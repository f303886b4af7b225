import Mathlib

/-!
# Insertion from the end of a list

A queue that is searched from its end for the first element an insertion may not pass. What is inserted goes right
after that element, or to the front when there is none. If the test is an order, the list stays sorted and elements
of one key stay in the order in which they were inserted; if it names a class of elements, that class stays in
order, whatever the keys are.
-/

namespace Gem5.Lib

open List

universe u

variable {α : Type u}

/-- Insert `x` after the last element with `stop`; the second component says that there is none. -/
def insertBack (stop : α → Bool) (x : α) : List α → List α × Bool
  | [] => ([x], true)
  | d :: l =>
    match insertBack stop x l with
    | (l', false) => (d :: l', false)
    | (l', true) => if stop d then (d :: l', false) else (x :: d :: l, true)

variable {stop : α → Bool} {x : α} {l : List α}

/-- Where the new element is: what comes after it may be passed, and what comes before it ends with an element that
may not, unless it is empty. -/
lemma insertBack_cases (stop : α → Bool) (x : α) (l : List α) :
    ∃ pre post, l = pre ++ post ∧ (insertBack stop x l).1 = pre ++ x :: post ∧ (∀ d ∈ post, stop d = false) ∧
      ((insertBack stop x l).2 = true ∧ pre = [] ∨
        (insertBack stop x l).2 = false ∧ ∃ pre' d, pre = pre' ++ [d] ∧ stop d = true) := by
  induction l with
  | nil => exact ⟨[], [], rfl, rfl, by simp, .inl ⟨rfl, rfl⟩⟩
  | cons d l ih =>
    obtain ⟨pre, post, hl, hfst, hpost, ⟨hsnd, rfl⟩ | ⟨hsnd, pre', e, rfl, he⟩⟩ := ih
    · rw [nil_append] at hl hfst
      subst hl
      have hpair : insertBack stop x l = (x :: l, true) := Prod.ext hfst hsnd
      cases hd : stop d with
      | true =>
        have heq : insertBack stop x (d :: l) = (d :: x :: l, false) := by simp [insertBack, hpair, hd]
        exact ⟨[d], l, rfl, by rw [heq]; rfl, hpost, .inr ⟨by rw [heq], [], d, rfl, hd⟩⟩
      | false =>
        have heq : insertBack stop x (d :: l) = (x :: d :: l, true) := by simp [insertBack, hpair, hd]
        exact ⟨[], d :: l, rfl, by rw [heq]; rfl, forall_mem_cons.mpr ⟨hd, hpost⟩, .inl ⟨by rw [heq], rfl⟩⟩
    · have hpair : insertBack stop x l = (pre' ++ [e] ++ x :: post, false) := Prod.ext hfst hsnd
      have heq : insertBack stop x (d :: l) = (d :: (pre' ++ [e] ++ x :: post), false) := by simp [insertBack, hpair]
      exact ⟨d :: (pre' ++ [e]), post, by rw [hl]; rfl, by rw [heq]; rfl, hpost, .inr ⟨by rw [heq], d :: pre', e, rfl, he⟩⟩

lemma perm_insertBack (stop : α → Bool) (x : α) (l : List α) : (insertBack stop x l).1.Perm (x :: l) := by
  obtain ⟨pre, post, rfl, hfst, -⟩ := insertBack_cases stop x l
  rw [hfst]
  exact perm_middle

lemma length_insertBack (stop : α → Bool) (x : α) (l : List α) : (insertBack stop x l).1.length = l.length + 1 :=
  (perm_insertBack stop x l).length_eq

lemma insertBack_head (stop : α → Bool) (x : α) (l : List α) :
    ((insertBack stop x l).2 = true ∧ (insertBack stop x l).1 = x :: l ∧ ∀ d ∈ l, stop d = false) ∨
      ((insertBack stop x l).2 = false ∧ ∃ d rest rest', l = d :: rest ∧ (insertBack stop x l).1 = d :: rest') := by
  obtain ⟨pre, post, rfl, hfst, hpost, ⟨hsnd, rfl⟩ | ⟨hsnd, pre', e, rfl, -⟩⟩ := insertBack_cases stop x l
  · exact .inl ⟨hsnd, hfst, hpost⟩
  · refine .inr ⟨hsnd, ?_⟩
    cases pre' with
    | nil => exact ⟨e, post, x :: post, rfl, hfst⟩
    | cons d pre' => exact ⟨d, _, _, rfl, hfst⟩

lemma filter_insertBack {q : α → Bool} (h : q x = true → ∀ d ∈ l, q d = true → stop d = true) :
    (insertBack stop x l).1.filter q = l.filter q ++ [x].filter q := by
  obtain ⟨pre, post, rfl, hfst, hpost, -⟩ := insertBack_cases stop x l
  rw [hfst, filter_append, filter_append, append_assoc]
  congr 1
  by_cases hx : q x = true
  · -- nothing of the class is behind the new member
    have hnil : post.filter q = [] := by
      refine filter_eq_nil_iff.mpr fun d hd hq => ?_
      have := h hx d (mem_append_right _ hd) hq
      rw [hpost d hd] at this
      cases this
    rw [filter_cons_of_pos hx, hnil, filter_cons_of_pos hx]
    rfl
  · rw [filter_cons_of_neg hx, filter_cons_of_neg hx, filter_nil, append_nil]

lemma pairwise_insertBack {β : Type*} [LinearOrder β] {key : α → β} (hl : l.Pairwise fun a b => key a ≤ key b)
    (hstop : ∀ d ∈ l, stop d = decide (key d ≤ key x)) :
    (insertBack stop x l).1.Pairwise fun a b => key a ≤ key b := by
  obtain ⟨pre, post, rfl, hfst, hpost, hpre⟩ := insertBack_cases stop x l
  obtain ⟨hpp, hqq, hpq⟩ := pairwise_append.mp hl
  have hafter : ∀ b ∈ post, key x ≤ key b := by
    intro b hb
    have := hpost b hb
    rw [hstop b (mem_append_right _ hb), decide_eq_false_iff_not] at this
    exact le_of_lt (not_le.mp this)
  have hbefore : ∀ a ∈ pre, key a ≤ key x := by
    intro a ha
    obtain ⟨-, rfl⟩ | ⟨-, pre', d, rfl, hd⟩ := hpre
    · cases ha
    · rw [hstop d (by simp), decide_eq_true_iff] at hd
      rcases mem_append.mp ha with ha | ha
      · exact le_trans ((pairwise_append.mp hpp).2.2 a ha d (by simp)) hd
      · rwa [mem_singleton.mp ha]
  rw [hfst, pairwise_append, pairwise_cons]
  refine ⟨hpp, ⟨hafter, hqq⟩, fun a ha b hb => ?_⟩
  rcases mem_cons.mp hb with rfl | hb
  · exact hbefore a ha
  · exact hpq a ha b hb

end Gem5.Lib
