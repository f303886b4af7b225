import Mathlib

/-!
# Linked lists, and bins of equal keys

`IsList next p l`: from the pointer `p` the links `next` go through the items of `l` and end. The rules
say what a list needs of its links: those of its own items, and how a part of it is exchanged.

A bin is a list with an item, its top. Bins are in order when all items of a bin have one key and the
keys grow from bin to bin. An item goes on top of the bin of its key, or into a new one; an item is
taken out of the bin of its key, which disappears with its last item.
-/

namespace Gem5.Lib

open List

section Linked

variable {α : Type*} {next next' : α → Option α}

/-- The links from `p` go through the items of the list and end. -/
def IsList (next : α → Option α) : Option α → List α → Prop
  | p, [] => p = none
  | p, x :: l => p = some x ∧ IsList next (next x) l

variable {p : Option α} {l₁ l₂ : List α}

lemma IsList.head?_eq {l : List α} (h : IsList next p l) : p = l.head? := by
  cases l with
  | nil => exact h
  | cons x l => exact h.1

lemma IsList.congr {l : List α} (h : IsList next p l) (heq : ∀ x ∈ l, next' x = next x) : IsList next' p l := by
  induction l generalizing p with
  | nil => exact h
  | cons x l ih =>
    refine ⟨h.1, ?_⟩
    rw [heq x (mem_cons_self ..)]
    exact ih h.2 fun y hy => heq y (mem_cons_of_mem _ hy)

lemma IsList.after {x : α} (h : IsList next p (l₁ ++ x :: l₂)) : IsList next (next x) l₂ := by
  induction l₁ generalizing p with
  | nil => exact h.2
  | cons y l₁ ih => exact ih h.2

lemma IsList.drop (h : IsList next p (l₁ ++ l₂)) : IsList next l₂.head? l₂ := by
  induction l₁ generalizing p with
  | nil =>
    rw [nil_append] at h
    rwa [← h.head?_eq]
  | cons y l₁ ih => exact ih h.2

lemma IsList.splice {l2' : List α} {x : α} (h : IsList next p (l₁ ++ x :: l₂))
    (heq : ∀ y ∈ l₁, next' y = next y) (hx : IsList next' (next' x) l2') : IsList next' p (l₁ ++ x :: l2') := by
  induction l₁ generalizing p with
  | nil => exact ⟨h.1, hx⟩
  | cons y l₁ ih =>
    refine ⟨h.1, ?_⟩
    rw [heq y (mem_cons_self ..)]
    exact ih h.2 fun z hz => heq z (mem_cons_of_mem _ hz)

end Linked

structure Bin (α : Type*) where
  /-- The item on top. -/
  top : α
  /-- The items below it. -/
  below : List α

namespace Bin

variable {α κ : Type*}

def items (b : Bin α) : List α := b.top :: b.below

def allItems (bins : List (Bin α)) : List α := bins.flatMap items

@[simp] lemma allItems_nil : allItems ([] : List (Bin α)) = [] := rfl

@[simp] lemma allItems_cons (b : Bin α) (bins : List (Bin α)) : allItems (b :: bins) = b.items ++ allItems bins := rfl

@[simp] lemma allItems_append (bins bins' : List (Bin α)) :
    allItems (bins ++ bins') = allItems bins ++ allItems bins' := flatMap_append ..

lemma top_mem_items (b : Bin α) : b.top ∈ b.items := mem_cons_self ..

lemma mem_allItems {x : α} : x ∈ allItems bins ↔ ∃ b ∈ bins, x ∈ b.items := mem_flatMap

lemma tops_sublist (bins : List (Bin α)) : (bins.map top).Sublist (allItems bins) := by
  induction bins with
  | nil => exact .refl _
  | cons b bins ih => exact .cons_cons _ (ih.trans (sublist_append_right _ _))

lemma length_le_allItems (bins : List (Bin α)) : bins.length ≤ (allItems bins).length := by
  simpa using (tops_sublist bins).length_le

variable {b : Bin α}

lemma items_sublist (hb : b ∈ bins) : b.items.Sublist (allItems bins) := by
  obtain ⟨pre, post, rfl⟩ := append_of_mem hb
  rw [allItems_append, allItems_cons]
  exact (sublist_append_left _ _).trans (sublist_append_right _ _)

variable [LinearOrder κ] (key : α → κ)

/-- All items of a bin have its key, and the keys grow from bin to bin. -/
structure Ordered (bins : List (Bin α)) : Prop where
  same : ∀ b ∈ bins, ∀ x ∈ b.items, key x = key b.top
  sorted : bins.Pairwise fun b b' => key b.top < key b'.top

/-- `e` goes on top of the bin of its key, or into a new one. -/
def insert (e : α) : List (Bin α) → List (Bin α)
  | [] => [⟨e, []⟩]
  | b :: bins =>
    if key e < key b.top then ⟨e, []⟩ :: b :: bins
    else if key b.top < key e then b :: insert e bins
    else ⟨e, b.items⟩ :: bins

def ofList : List α → List (Bin α)
  | [] => []
  | x :: l => [⟨x, l⟩]

/-- `e` is taken out of the bin of its key. -/
def erase [DecidableEq α] (e : α) : List (Bin α) → List (Bin α)
  | [] => []
  | b :: bins => if key b.top < key e then b :: erase e bins else ofList (b.items.erase e) ++ bins

variable {key} {bins : List (Bin α)} {e : α}

lemma Ordered.congr {key' : α → κ} (h : Ordered key bins) (heq : ∀ x ∈ allItems bins, key' x = key x) :
    Ordered key' bins := by
  have hitem : ∀ b ∈ bins, ∀ x ∈ b.items, key' x = key x := fun b hb x hx => heq x (mem_allItems.mpr ⟨b, hb, hx⟩)
  refine ⟨?_, ?_⟩
  · intro b hb x hx
    rw [hitem b hb x hx, hitem b hb _ b.top_mem_items]
    exact h.same b hb x hx
  · refine h.sorted.imp_of_mem ?_
    intro b b' hb hb' hlt
    rw [hitem b hb _ b.top_mem_items, hitem b' hb' _ b'.top_mem_items]
    exact hlt

lemma Ordered.tail (h : Ordered key (b :: bins)) : Ordered key bins where
  same b' hb' := h.same b' (mem_cons_of_mem _ hb')
  sorted := h.sorted.of_cons

lemma allItems_insert_perm (key : α → κ) (e : α) (bins : List (Bin α)) :
    (allItems (insert key e bins)).Perm (e :: allItems bins) := by
  induction bins with
  | nil => exact .refl _
  | cons b bins ih =>
    simp only [insert]
    split_ifs
    · exact .refl _
    · exact (ih.append_left _).trans perm_middle
    · exact .refl _

lemma key_of_mem_insert (hb : b ∈ insert key e bins) : b.top = e ∨ ∃ b' ∈ bins, b'.top = b.top := by
  induction bins with
  | nil =>
    rw [insert, mem_singleton] at hb
    exact .inl (by rw [hb])
  | cons b0 bins ih =>
    simp only [insert] at hb
    split_ifs at hb
    · rcases mem_cons.mp hb with rfl | hb
      · exact .inl rfl
      · exact .inr ⟨b, hb, rfl⟩
    · rcases mem_cons.mp hb with rfl | hb
      · exact .inr ⟨b, mem_cons_self .., rfl⟩
      · rcases ih hb with h | ⟨b', hb', h⟩
        · exact .inl h
        · exact .inr ⟨b', mem_cons_of_mem _ hb', h⟩
    · rcases mem_cons.mp hb with rfl | hb
      · exact .inl rfl
      · exact .inr ⟨b, mem_cons_of_mem _ hb, rfl⟩

lemma Ordered.cons_insert (h : Ordered key (b :: bins)) (hlt : key b.top < key e)
    (hins : Ordered key (insert key e bins)) : Ordered key (b :: insert key e bins) := by
  refine ⟨forall_mem_cons.mpr ⟨h.same b (mem_cons_self ..), hins.same⟩, ?_⟩
  refine pairwise_cons.mpr ⟨?_, hins.sorted⟩
  intro b' hb'
  rcases key_of_mem_insert hb' with heq | ⟨b1, hb1, heq⟩
  · rw [heq]
    exact hlt
  · rw [← heq]
    exact (pairwise_cons.mp h.sorted).1 b1 hb1

lemma Ordered.insert (h : Ordered key bins) : Ordered key (insert key e bins) := by
  induction bins with
  | nil => exact ⟨by simp [Bin.insert, items], pairwise_singleton _ _⟩
  | cons b bins ih =>
    have hsorted := pairwise_cons.mp h.sorted
    simp only [Bin.insert]
    split_ifs with hlt hgt
    · refine ⟨forall_mem_cons.mpr ⟨by simp [items], h.same⟩, pairwise_cons.mpr ⟨?_, h.sorted⟩⟩
      intro b' hb'
      rcases mem_cons.mp hb' with rfl | hb'
      · exact hlt
      · exact hlt.trans (hsorted.1 b' hb')
    · exact h.cons_insert hgt (ih h.tail)
    · have heq : key e = key b.top := le_antisymm (not_lt.mp hgt) (not_lt.mp hlt)
      refine ⟨forall_mem_cons.mpr ⟨?_, h.tail.same⟩, pairwise_cons.mpr ⟨?_, hsorted.2⟩⟩
      · intro x hx
        rcases mem_cons.mp hx with rfl | hx
        · rfl
        · exact (h.same b (mem_cons_self ..) x hx).trans heq.symm
      · intro b' hb'
        rw [show key (⟨e, b.items⟩ : Bin α).top = key b.top from heq]
        exact hsorted.1 b' hb'

lemma allItems_ofList (l : List α) : allItems (ofList l) = l := by
  cases l <;> simp [ofList, items]

section

variable (h : Ordered key (b :: bins)) (he : e ∈ allItems (b :: bins))
include h he

lemma Ordered.mem_first (hlt : ¬ key b.top < key e) : e ∈ b.items := by
  rw [allItems_cons, mem_append] at he
  rcases he with he | he
  · exact he
  · obtain ⟨b', hb', he⟩ := mem_allItems.mp he
    rw [h.tail.same b' hb' e he] at hlt
    exact absurd ((pairwise_cons.mp h.sorted).1 b' hb') hlt

lemma Ordered.mem_rest (hlt : key b.top < key e) : e ∈ allItems bins := by
  rw [allItems_cons, mem_append] at he
  rcases he with he | he
  · rw [h.same b (mem_cons_self ..) e he] at hlt
    exact absurd hlt (lt_irrefl _)
  · exact he

end

lemma Ordered.mem_append {pre : List (Bin α)} (h : Ordered key (pre ++ bins)) (he : e ∈ allItems (pre ++ bins))
    (hpre : ∀ b ∈ pre, key b.top < key e) : Ordered key bins ∧ e ∈ allItems bins := by
  induction pre with
  | nil => exact ⟨h, he⟩
  | cons b pre ih =>
    exact ih h.tail (h.mem_rest he (hpre b (mem_cons_self ..))) fun b' hb' => hpre b' (mem_cons_of_mem _ hb')

lemma Ordered.first_le (h : Ordered key (b :: bins)) {x : α} (hx : x ∈ allItems (b :: bins)) : key b.top ≤ key x := by
  by_cases hlt : key b.top < key x
  · exact hlt.le
  · rw [h.same b (mem_cons_self ..) x (h.mem_first hx hlt)]

lemma Ordered.allItems_erase_perm [DecidableEq α] (h : Ordered key bins) (he : e ∈ allItems bins) :
    (allItems bins).Perm (e :: allItems (erase key e bins)) := by
  induction bins with
  | nil => cases he
  | cons b bins ih =>
    simp only [erase]
    split_ifs with hlt
    · exact ((ih h.tail (h.mem_rest he hlt)).append_left _).trans perm_middle
    · rw [allItems_cons, allItems_append, allItems_ofList]
      exact (perm_cons_erase (h.mem_first he hlt)).append_right _

lemma mem_erase [DecidableEq α] (hb : b ∈ erase key e bins) : ∃ b' ∈ bins, b.items.Sublist b'.items := by
  induction bins with
  | nil => cases hb
  | cons b0 bins ih =>
    simp only [erase] at hb
    split_ifs at hb
    · rcases mem_cons.mp hb with rfl | hb
      · exact ⟨b, mem_cons_self .., .refl _⟩
      · obtain ⟨b', hb', hsub⟩ := ih hb
        exact ⟨b', mem_cons_of_mem _ hb', hsub⟩
    · rcases mem_append.mp hb with hb | hb
      · refine ⟨b0, mem_cons_self .., ?_⟩
        have hitems : b.items = b0.items.erase e := by
          cases hl : b0.items.erase e with
          | nil =>
            rw [hl] at hb
            cases hb
          | cons x l =>
            rw [hl, ofList, mem_singleton] at hb
            rw [hb]
            rfl
        rw [hitems]
        exact erase_sublist
      · exact ⟨b, mem_cons_of_mem _ hb, .refl _⟩

lemma Ordered.erase [DecidableEq α] (h : Ordered key bins) : Ordered key (erase key e bins) := by
  induction bins with
  | nil => exact h
  | cons b bins ih =>
    have hsorted := pairwise_cons.mp h.sorted
    have hsame := h.same b (mem_cons_self ..)
    -- The key of a bin is that of the bin it comes from.
    have hkey : ∀ b' ∈ Bin.erase key e bins, key b.top < key b'.top := by
      intro b' hb'
      obtain ⟨b1, hb1, hsub⟩ := mem_erase hb'
      rw [h.tail.same b1 hb1 _ (hsub.subset b'.top_mem_items)]
      exact hsorted.1 b1 hb1
    simp only [Bin.erase]
    split_ifs with hlt
    · refine ⟨forall_mem_cons.mpr ⟨hsame, (ih h.tail).same⟩, pairwise_cons.mpr ⟨hkey, (ih h.tail).sorted⟩⟩
    · cases hl : b.items.erase e with
      | nil => exact h.tail
      | cons x l =>
        have hmem : ∀ y ∈ x :: l, key y = key b.top := by
          intro y hy
          rw [← hl] at hy
          exact hsame y (mem_of_mem_erase hy)
        have hx := hmem x (mem_cons_self ..)
        refine ⟨forall_mem_cons.mpr ⟨?_, h.tail.same⟩, pairwise_cons.mpr ⟨?_, hsorted.2⟩⟩
        · intro y hy
          exact (hmem y hy).trans hx.symm
        · intro b' hb'
          change key x < key b'.top
          rw [hx]
          exact hsorted.1 b' hb'

lemma erase_top [DecidableEq α] (b : Bin α) (bins : List (Bin α)) :
    erase key b.top (b :: bins) = ofList b.below ++ bins := by
  rw [erase, if_neg (lt_irrefl _), items, erase_cons_head]

lemma insert_append (pre : List (Bin α)) (hpre : ∀ b ∈ pre, key b.top < key e) :
    insert key e (pre ++ bins) = pre ++ insert key e bins := by
  induction pre with
  | nil => rfl
  | cons b pre ih =>
    have hlt := hpre b (mem_cons_self ..)
    rw [cons_append, Bin.insert, if_neg (not_lt.mpr hlt.le), if_pos hlt,
      ih fun b' hb' => hpre b' (mem_cons_of_mem _ hb'), cons_append]

lemma erase_append [DecidableEq α] (pre : List (Bin α)) (hpre : ∀ b ∈ pre, key b.top < key e) :
    erase key e (pre ++ bins) = pre ++ erase key e bins := by
  induction pre with
  | nil => rfl
  | cons b pre ih =>
    rw [cons_append, Bin.erase, if_pos (hpre b (mem_cons_self ..)),
      ih fun b' hb' => hpre b' (mem_cons_of_mem _ hb'), cons_append]

end Bin

end Gem5.Lib
