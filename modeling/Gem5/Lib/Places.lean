import Mathlib

/-!
# Things in places

A family of lists is seen as places that hold things. `Once t x` says that `x` is in one place of the family, and
there once. Moving a thing from one place to another keeps that, for this thing and all others. A loop that visits
places, none of them twice, does to each place what it does there.
-/

namespace Gem5.Lib

open List

universe u v

variable {I : Type u} {X : Type v} [BEq X] [LawfulBEq X] {t t' : I → List X} {x y : X} {i j : I}

/-- `x` is in exactly one place, and there once. -/
def Once (t : I → List X) (x : X) : Prop := ∃ i, (t i).count x = 1 ∧ ∀ j, j ≠ i → x ∉ t j

omit [LawfulBEq X] in
lemma Once.count_eq_one (h : Once t x) (hx : x ∈ t i) : (t i).count x = 1 ∧ ∀ j, j ≠ i → x ∉ t j := by
  obtain ⟨k, hk, hother⟩ := h
  obtain rfl : i = k := by
    by_contra hne
    exact hother i hne hx
  exact ⟨hk, hother⟩

lemma Once.congr (h : Once t x) (hcount : ∀ k, (t' k).count x = (t k).count x) : Once t' x := by
  obtain ⟨i, hi, hother⟩ := h
  refine ⟨i, by rw [hcount, hi], fun j hj => ?_⟩
  rw [← count_eq_zero, hcount, count_eq_zero]
  exact hother j hj

lemma Once.move (h : Once t y) {pre post : List X} (hne : i ≠ j) (hi : t i = pre ++ x :: post)
    (hi' : t' i = pre ++ post) (hj' : t' j = t j ++ [x]) (ho : ∀ k, k ≠ i → k ≠ j → t' k = t k) : Once t' y := by
  by_cases hy : y = x
  · subst hy
    obtain ⟨hone, hother⟩ := h.count_eq_one (i := i) (by rw [hi]; simp)
    have hgone : y ∉ pre ++ post := by
      rw [hi, count_append, count_cons_self] at hone
      rw [← count_eq_zero, count_append]
      omega
    refine ⟨j, ?_, fun k hk => ?_⟩
    · rw [hj', count_append, count_singleton_self, count_eq_zero.mpr (hother j hne.symm)]
    · by_cases hki : k = i
      · rw [hki, hi']
        exact hgone
      · rw [ho k hki hk]
        exact hother k hki
  · have hcount : ∀ k, (t' k).count y = (t k).count y := by
      intro k
      by_cases hki : k = i
      · rw [hki, hi, hi', count_append, count_append, count_cons_of_ne (Ne.symm hy)]
      · by_cases hkj : k = j
        · rw [hkj, hj', count_append, count_singleton, if_neg (by simpa using Ne.symm hy), Nat.add_zero]
        · rw [ho k hki hkj]
    exact h.congr hcount

lemma Once.append (h : Once t y) {xs : List X} (hy : y ∉ xs) (hi' : t' i = t i ++ xs)
    (ho : ∀ k, k ≠ i → t' k = t k) : Once t' y := by
  have hcount : ∀ k, (t' k).count y = (t k).count y := by
    intro k
    by_cases hki : k = i
    · rw [hki, hi', count_append, count_eq_zero.mpr hy, Nat.add_zero]
    · rw [ho k hki]
  exact h.congr hcount

lemma Once.new {xs : List X} (hnd : xs.Nodup) (hy : y ∈ xs) (hnew : ∀ k, y ∉ t k) (hi' : t' i = t i ++ xs)
    (ho : ∀ k, k ≠ i → t' k = t k) : Once t' y := by
  refine ⟨i, ?_, fun k hk => ?_⟩
  · rw [hi', count_append, count_eq_zero.mpr (hnew i), count_eq_one_of_mem hnd hy]
  · rw [ho k hk]
    exact hnew k

/-! ### Visiting places -/

/-- A loop over a list makes no element twice if what it makes of an entry tells which entry it was. -/
lemma nodup_flatMap_of_key {α β : Type*} {l : List α} {f : α → List β} (hl : l.Nodup) (hf : ∀ x ∈ l, (f x).Nodup)
    (hkey : ∀ x ∈ l, ∀ y ∈ l, ∀ b ∈ f x, b ∈ f y → x = y) : (l.flatMap f).Nodup := by
  refine nodup_flatMap.mpr ⟨hf, List.Pairwise.imp_of_mem (fun {x y} hx hy hne => ?_) hl⟩
  exact fun b hb hb' => hne (hkey x hx y hy b hb hb')

omit [BEq X] [LawfulBEq X] in
lemma foldl_visit [DecidableEq I] {S : Type*} (view : S → I → List X) {step : S → I → S} {f : List X → List X}
    (hstep : ∀ s c, view (step s c) = Function.update (view s) c (f (view s c))) {cs : List I} (hnd : cs.Nodup) (s : S)
    (c : I) : view (cs.foldl step s) c = if c ∈ cs then f (view s c) else view s c := by
  induction cs generalizing s with
  | nil => rfl
  | cons d cs ih =>
    obtain ⟨hd, hnd⟩ := nodup_cons.mp hnd
    rw [foldl_cons, ih hnd, hstep]
    by_cases hc : c = d
    · subst hc
      rw [if_neg hd, Function.update_self, if_pos (mem_cons_self ..)]
    · rw [Function.update_of_ne hc]
      simp [hc]

end Gem5.Lib
