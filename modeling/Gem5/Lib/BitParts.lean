import Mathlib

/-!
# Bit vectors as lists of parts

`bitParts r k v` cuts the `k` lowest parts of `r` bits off a bit vector, the lowest first, by shifting it; `joinParts` puts
parts together again. A vector whose width is the number of parts times their width is the join of its parts.
-/

namespace Gem5.Lib

variable {w : ℕ}

/-- The `k` lowest parts of `r` bits, lowest first. -/
def bitParts (r : ℕ) : ℕ → BitVec w → List (BitVec r)
  | 0, _ => []
  | k + 1, v => v.setWidth r :: bitParts r k (v >>> r)

/-- The bit vector with these parts, lowest first. -/
def joinParts (r w : ℕ) : List (BitVec r) → BitVec w
  | [] => 0#w
  | p :: ps => joinParts r w ps <<< r ||| p.setWidth w

@[simp] lemma length_bitParts (r k : ℕ) (v : BitVec w) : (bitParts r k v).length = k := by
  induction k generalizing v with
  | zero => rfl
  | succ k ih => rw [bitParts, List.length_cons, ih]

lemma getLsbD_joinParts_bitParts (r k : ℕ) (v : BitVec w) {i : ℕ} (hi : i < w) :
    (joinParts r w (bitParts r k v)).getLsbD i = (decide (i < r * k) && v.getLsbD i) := by
  induction k generalizing v i with
  | zero => simp [bitParts, joinParts]
  | succ k ih =>
    rw [bitParts, joinParts, BitVec.getLsbD_or, BitVec.getLsbD_shiftLeft, BitVec.getLsbD_setWidth, BitVec.getLsbD_setWidth]
    by_cases hr : i < r
    · have hk : i < r * (k + 1) := Nat.lt_of_lt_of_le hr (Nat.le_mul_of_pos_right r k.succ_pos)
      simp [hr, hi, hk]
    · have hk : i - r < r * k ↔ i < r * (k + 1) := by
        rw [Nat.mul_succ]
        omega
      rw [ih _ (by omega : i - r < w), BitVec.getLsbD_ushiftRight, Nat.add_sub_cancel' (Nat.le_of_not_lt hr)]
      simp [hr, hi, hk]

lemma joinParts_bitParts {r k : ℕ} (h : r * k = w) (v : BitVec w) : joinParts r w (bitParts r k v) = v := by
  refine BitVec.eq_of_getLsbD_eq fun i hi => ?_
  rw [getLsbD_joinParts_bitParts r k v hi, h, decide_eq_true hi, Bool.true_and]

lemma joinParts_replicate {r k : ℕ} (h : r * k = w) {v : BitVec w} {p : BitVec r} (hv : ∀ q ∈ bitParts r k v, q = p) :
    joinParts r w (List.replicate k p) = v := by
  have hparts : bitParts r k v = List.replicate k p := List.eq_replicate_iff.mpr ⟨length_bitParts .., hv⟩
  rw [← hparts, joinParts_bitParts h]

end Gem5.Lib
