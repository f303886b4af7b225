import Mathlib

/-!
# Slices of a sequence

`slice g i j` is the list `g i, g (i + 1), …, g (j - 1)`: what a buffer holds that was filled in order
up to `j` and emptied in order up to `i`.
-/

namespace Gem5.Lib

open List

universe u

variable {α : Type u} {g : ℕ → α} {i j : ℕ}

/-- `g i, …, g (j - 1)`. -/
def slice (g : ℕ → α) (i j : ℕ) : List α := (range' i (j - i)).map g

@[simp] lemma length_slice : (slice g i j).length = j - i := by simp [slice]

lemma slice_of_le (h : j ≤ i) : slice g i j = [] := by
  simp [slice, Nat.sub_eq_zero_of_le h]

@[simp] lemma slice_self : slice g i i = [] := slice_of_le le_rfl

lemma slice_cons (h : i < j) : slice g i j = g i :: slice g (i + 1) j := by
  unfold slice
  rw [show j - i = (j - (i + 1)) + 1 by omega, range'_succ, map_cons]

lemma slice_snoc (h : i ≤ j) : slice g i (j + 1) = slice g i j ++ [g j] := by
  unfold slice
  rw [show j + 1 - i = (j - i) + 1 by omega, range'_1_concat, map_append, map_singleton, show i + (j - i) = j by omega]

lemma slice_singleton : slice g i (i + 1) = [g i] := by rw [slice_snoc le_rfl, slice_self, nil_append]

lemma slice_append {k : ℕ} (h : i ≤ j) (h' : j ≤ k) : slice g i j ++ slice g j k = slice g i k := by
  induction k, h' using Nat.le_induction with
  | base => rw [slice_self, append_nil]
  | succ k hk ih => rw [slice_snoc hk, slice_snoc (Nat.le_trans h hk), ← ih, append_assoc]

lemma mem_slice {x : α} : x ∈ slice g i j ↔ ∃ k, i ≤ k ∧ k < j ∧ g k = x := by
  simp only [slice, mem_map, mem_range'_1]
  constructor
  · rintro ⟨k, hk, rfl⟩; exact ⟨k, hk.1, by omega, rfl⟩
  · rintro ⟨k, h1, h2, rfl⟩; exact ⟨k, ⟨h1, by omega⟩, rfl⟩

lemma slice_eq_cons {x : α} {rest : List α} (h : slice g i j = x :: rest) :
    i < j ∧ x = g i ∧ rest = slice g (i + 1) j := by
  have hij : i < j := by
    by_contra hn
    rw [slice_of_le (by omega)] at h
    cases h
  rw [slice_cons hij] at h
  obtain ⟨h1, h2⟩ := cons.inj h
  exact ⟨hij, h1.symm, h2.symm⟩

end Gem5.Lib
