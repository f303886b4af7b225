import Mathlib

/-!
# Prefixes of bit vectors

`prefixMask n` has the `n` most significant bits set, and `Agree n a b` says that two words have these bits in common.
Masks are compared, extended and applied by the lengths of the prefixes they stand for.
-/

namespace Gem5.Lib

open BitVec

variable {w n m : ℕ} {a b c : BitVec w}

/-- The mask of the `n` most significant bits. -/
def prefixMask (w n : ℕ) : BitVec w := BitVec.allOnes w <<< (w - n)

/-- The `n` most significant bits are the same. -/
def Agree (n : ℕ) (a b : BitVec w) : Prop := ∀ i < n, a.getMsbD i = b.getMsbD i

lemma Agree.symm (h : Agree n a b) : Agree n b a := fun i hi => (h i hi).symm

lemma Agree.trans (h : Agree n a b) (h' : Agree n b c) : Agree n a c := fun i hi => (h i hi).trans (h' i hi)

lemma Agree.mono (h : Agree n a b) (hm : m ≤ n) : Agree m a b := fun i hi => h i (Nat.lt_of_lt_of_le hi hm)

lemma agree_zero (a b : BitVec w) : Agree 0 a b := fun _ hi => absurd hi (Nat.not_lt_zero _)

lemma agree_succ : Agree (n + 1) a b ↔ Agree n a b ∧ a.getMsbD n = b.getMsbD n := by
  constructor
  · intro h
    exact ⟨h.mono (Nat.le_succ n), h n (Nat.lt_succ_self n)⟩
  · rintro ⟨h, hn⟩ i hi
    rcases Nat.lt_succ_iff_lt_or_eq.mp hi with hi | rfl
    · exact h i hi
    · exact hn

lemma getMsbD_prefixMask (hn : n ≤ w) (i : ℕ) : (prefixMask w n).getMsbD i = decide (i < n) := by
  rw [prefixMask, getMsbD_shiftLeft, getMsbD_allOnes]
  exact decide_eq_decide.mpr (by omega)

lemma and_prefixMask_eq_iff (hn : n ≤ w) : a &&& prefixMask w n = b &&& prefixMask w n ↔ Agree n a b := by
  constructor
  · intro h i hi
    have := congrArg (fun x => getMsbD x i) h
    simpa [getMsbD_prefixMask hn, hi] using this
  · intro h
    apply eq_of_getMsbD_eq
    intro i _
    rw [getMsbD_and, getMsbD_and, getMsbD_prefixMask hn]
    by_cases hi : i < n
    · rw [h i hi]
    · simp [hi]

/-- A word with nothing below the prefix. -/
def Masked (n : ℕ) (a : BitVec w) : Prop := a &&& prefixMask w n = a

lemma masked_and (n : ℕ) (a : BitVec w) : Masked n (a &&& prefixMask w n) := by
  rw [Masked, BitVec.and_assoc, BitVec.and_self]

lemma agree_and (hn : n ≤ w) (a : BitVec w) : Agree n (a &&& prefixMask w n) a := by
  rw [← and_prefixMask_eq_iff hn]
  exact masked_and n a

lemma Masked.eq_iff (hn : n ≤ w) (hb : Masked n b) : a &&& prefixMask w n = b ↔ Agree n a b := by
  rw [← and_prefixMask_eq_iff hn, hb]

lemma Masked.ext (hn : n ≤ w) (ha : Masked n a) (hb : Masked n b) (h : Agree n a b) : a = b := by
  rw [← hb.eq_iff hn, ha] at h
  exact h

lemma prefixMask_and_eq_iff (hn : n ≤ w) (hm : m ≤ w) : prefixMask w n &&& prefixMask w m = prefixMask w n ↔ n ≤ m := by
  constructor
  · intro h
    by_contra hlt
    have := congrArg (fun x => getMsbD x m) h
    simp only [getMsbD_and, getMsbD_prefixMask hn, getMsbD_prefixMask hm, Nat.lt_irrefl, decide_false,
      Bool.and_false] at this
    have hmn : m < n := by omega
    simp [hmn] at this
  · intro h
    apply eq_of_getMsbD_eq
    intro i _
    rw [getMsbD_and, getMsbD_prefixMask hn, getMsbD_prefixMask hm]
    by_cases hi : i < n
    · simp [hi, Nat.lt_of_lt_of_le hi h]
    · simp [hi]

lemma prefixMask_inj (hn : n ≤ w) (hm : m ≤ w) : prefixMask w n = prefixMask w m ↔ n = m := by
  constructor
  · intro h
    have h1 : n ≤ m := by rw [← prefixMask_and_eq_iff hn hm, h, BitVec.and_self]
    have h2 : m ≤ n := by rw [← prefixMask_and_eq_iff hm hn, h, BitVec.and_self]
    omega
  · rintro rfl
    rfl

lemma prefixMask_self (w : ℕ) : prefixMask w w = allOnes w := by simp [prefixMask]

lemma prefixMask_zero (w : ℕ) : prefixMask w 0 = 0 := by
  apply eq_of_getMsbD_eq
  intro i _
  simp [getMsbD_prefixMask]

lemma prefixMask_succ (hn : n < w) :
    prefixMask w n ||| prefixMask w n >>> 1 ||| twoPow w (w - 1) = prefixMask w (n + 1) := by
  apply eq_of_getMsbD_eq
  intro i hi
  rw [getMsbD_or, getMsbD_or, getMsbD_ushiftRight, getMsbD_prefixMask (by omega),
    getMsbD_prefixMask (by omega), getMsbD_prefixMask hn, getMsbD_twoPow]
  rw [Bool.eq_iff_iff]
  simp
  omega

end Gem5.Lib
