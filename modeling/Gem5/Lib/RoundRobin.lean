import Mathlib

/-!
# Round-robin arbiters

An arbiter with a pointer `p` into a list of clients looks at them in the order of the list rotated by
`p`, serves the first one that asks, and puts the pointer behind it. A client that asks is served, or it is
closer to the pointer afterwards (`served_or_closer`); so it is served after as many rounds as there are
clients (`exists_served`).
-/

namespace Gem5.Lib

open List

/-- How far it is from `p` to `i` in a ring of `n` places. -/
def ringDistance (n p i : ℕ) : ℕ := if p ≤ i then i - p else i + n - p

/-- The place after `i` in a ring of `n` places. -/
def ringNext (i n : ℕ) : ℕ := if n ≤ i + 1 then 0 else i + 1

lemma ringDistance_lt {n p i : ℕ} (hi : i < n) : ringDistance n p i < n := by
  unfold ringDistance
  split_ifs <;> omega

lemma ringNext_lt {n i : ℕ} (hi : i < n) : ringNext i n < n := by
  unfold ringNext
  split_ifs <;> omega

lemma ringDistance_ringNext_lt {n p i j : ℕ} (hp : p < n) (hi : i < n) (hj : j < n)
    (h : ringDistance n p j < ringDistance n p i) : ringDistance n (ringNext j n) i < ringDistance n p i := by
  unfold ringDistance ringNext at *
  split_ifs at * <;> omega

variable {α : Type*} [DecidableEq α] {l : List α} {p : ℕ} {x j : α} {asks : α → Bool}

lemma idxOf_rotate (hn : l.Nodup) (hx : x ∈ l) (hp : p < l.length) :
    (l.rotate p).idxOf x = ringDistance l.length p (l.idxOf x) := by
  have hsplit : l.take p ++ l.drop p = l := take_append_drop p l
  have hlen : (l.take p).length = p := by simp [hp.le]
  have hdisjoint := disjoint_of_nodup_append (hsplit.symm ▸ hn)
  rw [rotate_eq_drop_append_take hp.le]
  by_cases hmem : x ∈ l.take p
  · have hidx : l.idxOf x = (l.take p).idxOf x := by
      conv_lhs => rw [← hsplit]
      exact idxOf_append_of_mem hmem
    have hlt : (l.take p).idxOf x < p := (idxOf_lt_length_of_mem hmem).trans_eq hlen
    rw [idxOf_append_of_notMem fun h => hdisjoint hmem h, hidx, length_drop, ringDistance]
    split_ifs <;> omega
  · have hdrop : x ∈ l.drop p := (mem_append.mp (hsplit.symm ▸ hx)).resolve_left hmem
    have hidx : l.idxOf x = p + (l.drop p).idxOf x := by
      conv_lhs => rw [← hsplit]
      rw [idxOf_append_of_notMem hmem, hlen]
    rw [idxOf_append_of_mem hdrop, hidx, ringDistance]
    split_ifs <;> omega

lemma idxOf_le_of_find? (hj : l.find? asks = some j) (hx : x ∈ l) (hasks : asks x = true) : l.idxOf j ≤ l.idxOf x := by
  induction l with
  | nil => cases hx
  | cons y l ih =>
    cases hy : asks y with
    | true =>
      rw [find?_cons_of_pos hy] at hj
      cases hj
      simp
    | false =>
      rw [find?_cons_of_neg (by simp [hy])] at hj
      have hjy : y ≠ j := by
        rintro rfl
        rw [find?_some hj] at hy
        cases hy
      have hxy : y ≠ x := by
        rintro rfl
        rw [hasks] at hy
        cases hy
      rw [idxOf_cons_ne _ hjy, idxOf_cons_ne _ hxy]
      exact Nat.succ_le_succ (ih hj ((mem_cons.mp hx).resolve_left hxy.symm))

/-- **A client that asks is served, or gets closer to the pointer.** -/
lemma served_or_closer (hn : l.Nodup) (hp : p < l.length) (hx : x ∈ l) (hasks : asks x = true) :
    ∃ j ∈ l, (l.rotate p).find? asks = some j ∧ (j = x ∨
      ringDistance l.length (ringNext (l.idxOf j) l.length) (l.idxOf x) < ringDistance l.length p (l.idxOf x)) := by
  cases hj : (l.rotate p).find? asks with
  | none => exact absurd hasks (find?_eq_none.mp hj x (mem_rotate.mpr hx))
  | some j =>
    have hmem : j ∈ l := mem_rotate.mp (mem_of_find?_eq_some hj)
    refine ⟨j, hmem, rfl, ?_⟩
    by_cases hjx : j = x
    · exact .inl hjx
    · right
      have hle := idxOf_le_of_find? hj (mem_rotate.mpr hx) hasks
      rw [idxOf_rotate hn hmem hp, idxOf_rotate hn hx hp] at hle
      have hne : l.idxOf j ≠ l.idxOf x := fun h => hjx ((idxOf_inj hmem).mp h)
      have hjl := idxOf_lt_length_of_mem hmem
      have hxl := idxOf_lt_length_of_mem hx
      refine ringDistance_ringNext_lt hp hxl hjl (lt_of_le_of_ne hle fun h => hne ?_)
      unfold ringDistance at h
      split_ifs at h <;> omega

/-- A distance that gets smaller in each round without service is used up after `n` rounds. -/
lemma exists_served {n : ℕ} (distance : ℕ → ℕ) {served : ℕ → Prop} (h0 : distance 0 < n)
    (hstep : ∀ k < n, ¬ served k → distance (k + 1) < distance k) : ∃ k < n, served k := by
  by_contra hnot
  push Not at hnot
  have hdrop : ∀ k ≤ n, distance k + k ≤ distance 0 := by
    intro k
    induction k with
    | zero => exact fun _ => Nat.le_refl _
    | succ k ih =>
      intro hk
      have hlt := hstep k hk (hnot k hk)
      have := ih (Nat.le_of_succ_le hk)
      omega
  have := hdrop n (Nat.le_refl n)
  omega

end Gem5.Lib
