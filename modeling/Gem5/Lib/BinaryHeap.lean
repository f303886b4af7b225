import Mathlib

/-!
# Binary heaps

`push_heap` and `pop_heap` of the standard library, on an array and for any total preorder `le`:
the least entry is at the front. `push_heap` takes an array whose entries but the last are a heap
and makes a heap of all of them; `pop_heap` takes a heap, puts its front at the end and makes a heap
of the rest. Neither adds nor drops an entry.

The children of entry `i` are `2 i + 1` and `2 i + 2`, so the parent of `i` is `(i - 1) / 2`. Both
operations move one entry along a path of the tree; `UpReady` and `DownReady` say what holds of the
others while it moves.
-/

namespace Gem5.Lib.BinaryHeap

open Array

variable {α : Type*}

/-- `le` orders the entries: it may hold both ways of two different ones. -/
structure IsPreorder (le : α → α → Bool) : Prop where
  trans {x y z : α} : le x y → le y z → le x z
  total (x y : α) : le x y ∨ le y x

variable [Inhabited α]

/-- Entry `i` of the array. -/
def entry (a : Array α) (i : ℕ) : α := a.getD i default

variable {a : Array α} {i n fuel : ℕ}

lemma entry_of_lt (h : i < a.size) : entry a i = a[i] := by
  simp [entry, getD_eq_getD_getElem?, h]

lemma entry_swap {j : ℕ} (hi : i < a.size) (hj : j < a.size) (k : ℕ) :
    entry (a.swapIfInBounds i j) k = if k = i then entry a j else if k = j then entry a i else entry a k := by
  rw [entry_of_lt hi, entry_of_lt hj]
  simp only [entry, getD_eq_getD_getElem?, swapIfInBounds, hi, hj, dite_true, getElem?_swap]
  rcases eq_or_ne k i with rfl | hki
  · by_cases hjk : j = k
    · simp [hjk]
    · simp [hjk]
  · by_cases hjk : j = k
    · simp [hjk, hki]
    · simp [hjk, hki, Ne.symm hki, Ne.symm hjk]

omit [Inhabited α] in
lemma swap_perm (a : Array α) (i j : ℕ) : (a.swapIfInBounds i j).toList.Perm a.toList := by
  simp only [swapIfInBounds]
  split_ifs with hi hj
  · exact (Array.swap_perm hi hj).toList
  · exact .refl _
  · exact .refl _

variable (le : α → α → Bool)

/-- The first `n` entries are a heap: no entry is before its parent. -/
def IsHeap (n : ℕ) (a : Array α) : Prop :=
  ∀ i, 0 < i → i < n → le (entry a ((i - 1) / 2)) (entry a i)

variable {le}

lemma IsHeap.front_le (hle : IsPreorder le) (h : IsHeap le n a) (hi : i < n) : le (entry a 0) (entry a i) := by
  -- Up from entry to parent.
  induction i using Nat.strongRecOn with
  | ind i ih =>
    rcases Nat.eq_zero_or_pos i with rfl | hpos
    · simpa using hle.total (entry a 0) (entry a 0)
    · exact hle.trans (ih ((i - 1) / 2) (by omega) (by omega)) (h i hpos hi)

variable (le)

/-- Move entry `i` up, with at most `fuel` swaps. -/
def siftUp : ℕ → ℕ → Array α → Array α
  | 0, _, a => a
  | fuel + 1, i, a =>
    if i = 0 ∨ le (entry a ((i - 1) / 2)) (entry a i) then a
    else siftUp fuel ((i - 1) / 2) (a.swapIfInBounds ((i - 1) / 2) i)

/-- `push_heap`: the last entry moves up to its place. -/
def pushHeap (a : Array α) : Array α := siftUp le a.size (a.size - 1) a

/-- The child of `i` that goes up when one has to, the other being no earlier. -/
def firstChild (n i : ℕ) (a : Array α) : ℕ :=
  if 2 * i + 2 < n ∧ !le (entry a (2 * i + 1)) (entry a (2 * i + 2)) then 2 * i + 2 else 2 * i + 1

/-- Move entry `i` down among the first `n`, with at most `fuel` swaps. -/
def siftDown (n : ℕ) : ℕ → ℕ → Array α → Array α
  | 0, _, a => a
  | fuel + 1, i, a =>
    if n ≤ 2 * i + 1 ∨ le (entry a i) (entry a (firstChild le n i a)) then a
    else siftDown n fuel (firstChild le n i a) (a.swapIfInBounds i (firstChild le n i a))

/-- `pop_heap`: the front goes to the end, and what was there moves down to its place. -/
def popHeap (a : Array α) : Array α :=
  siftDown le (a.size - 1) (a.size - 1) 0 (a.swapIfInBounds 0 (a.size - 1))

lemma siftUp_perm (fuel i : ℕ) (a : Array α) : (siftUp le fuel i a).toList.Perm a.toList := by
  induction fuel generalizing i a with
  | zero => exact .refl _
  | succ fuel ih =>
    simp only [siftUp]
    split_ifs
    · exact .refl _
    · exact (ih _ _).trans (swap_perm a _ _)

lemma siftDown_perm (n fuel i : ℕ) (a : Array α) : (siftDown le n fuel i a).toList.Perm a.toList := by
  induction fuel generalizing i a with
  | zero => exact .refl _
  | succ fuel ih =>
    simp only [siftDown]
    split_ifs
    · exact .refl _
    · exact (ih _ _).trans (swap_perm a _ _)

lemma pushHeap_perm (a : Array α) : (pushHeap le a).toList.Perm a.toList := siftUp_perm le _ _ a

lemma popHeap_perm (a : Array α) : (popHeap le a).toList.Perm a.toList :=
  (siftDown_perm le _ _ _ _).trans (swap_perm a _ _)

@[simp] lemma size_pushHeap (a : Array α) : (pushHeap le a).size = a.size := by
  simpa using (pushHeap_perm le a).length_eq

@[simp] lemma size_popHeap (a : Array α) : (popHeap le a).size = a.size := by
  simpa using (popHeap_perm le a).length_eq

/-- Entry `i` is moving up: it may be before its parent, and its children are not. -/
structure UpReady (n i : ℕ) (a : Array α) : Prop where
  others : ∀ j, 0 < j → j < n → j ≠ i → le (entry a ((j - 1) / 2)) (entry a j)
  below : ∀ j, 0 < i → 0 < j → j < n → (j - 1) / 2 = i → le (entry a ((i - 1) / 2)) (entry a j)

/-- Entry `i` is moving down: its children may be before it, and are not before its parent. -/
structure DownReady (n i : ℕ) (a : Array α) : Prop where
  others : ∀ j, 0 < j → j < n → (j - 1) / 2 ≠ i → le (entry a ((j - 1) / 2)) (entry a j)
  below : ∀ j, 0 < i → 0 < j → j < n → (j - 1) / 2 = i → le (entry a ((i - 1) / 2)) (entry a j)

variable {le}

omit [Inhabited α] in
lemma IsPreorder.of_not (hle : IsPreorder le) {x y : α} (h : ¬ le x y) : le y x := by
  rcases hle.total x y with h' | h'
  · exact absurd h' h
  · exact h'

lemma UpReady.swap (hle : IsPreorder le) (h : UpReady le n i a) (hpos : 0 < i)
    (hi : i < n) (hn : n ≤ a.size) (hlt : ¬ le (entry a ((i - 1) / 2)) (entry a i)) :
    UpReady le n ((i - 1) / 2) (a.swapIfInBounds ((i - 1) / 2) i) := by
  have hswap := entry_swap (a := a) (i := (i - 1) / 2) (j := i) (by omega) (by omega)
  generalize hp : (i - 1) / 2 = p at *
  have hpi : p < i := by omega
  have hup := hle.of_not hlt
  refine ⟨?_, ?_⟩
  · intro j hj hjn hjp
    rw [hswap, hswap, if_neg hjp]
    rcases eq_or_ne j i with rfl | hji
    · simpa [hp] using hup
    · rw [if_neg hji]
      rcases eq_or_ne ((j - 1) / 2) p with hjp' | hjp'
      · -- The other child of the parent.
        rw [if_pos hjp']
        have hedge := h.others j hj hjn hji
        rw [hjp'] at hedge
        exact hle.trans hup hedge
      · rw [if_neg hjp']
        rcases eq_or_ne ((j - 1) / 2) i with hji' | hji'
        · rw [if_pos hji']
          simpa [hp] using h.below j hpos hj hjn hji'
        · rw [if_neg hji']
          exact h.others j hj hjn hji
  · intro j hppos hj hjn hjp
    have hup' : le (entry a ((p - 1) / 2)) (entry a p) := h.others p hppos (by omega) (by omega)
    rw [hswap, hswap, if_neg (by omega), if_neg (by omega), if_neg (by omega)]
    rcases eq_or_ne j i with rfl | hji
    · simpa using hup'
    · rw [if_neg hji]
      have hedge := h.others j hj hjn hji
      rw [hjp] at hedge
      exact hle.trans hup' hedge

lemma isHeap_siftUp (hle : IsPreorder le) (h : UpReady le n i a) (hi : i < n)
    (hn : n ≤ a.size) (hfuel : i ≤ fuel) : IsHeap le n (siftUp le fuel i a) := by
  have hstop : ∀ {i} {a : Array α}, UpReady le n i a → (i = 0 ∨ le (entry a ((i - 1) / 2)) (entry a i)) →
      IsHeap le n a := by
    intro i a h hdone j hj hjn
    rcases eq_or_ne j i with rfl | hji
    · rcases hdone with h0 | hdone
      · omega
      · exact hdone
    · exact h.others j hj hjn hji
  induction fuel generalizing i a with
  | zero => exact hstop h (.inl (by omega))
  | succ fuel ih =>
    simp only [siftUp]
    split_ifs with hdone
    · exact hstop h hdone
    · rw [not_or] at hdone
      apply ih (h.swap hle (by omega) hi hn hdone.2) (by omega)
      · simpa using hn
      · omega

/-- What `push_heap` promises. -/
lemma isHeap_pushHeap (hle : IsPreorder le) (h : IsHeap le (a.size - 1) a) : IsHeap le a.size (pushHeap le a) := by
  rcases Nat.eq_zero_or_pos a.size with h0 | hpos
  · intro i _ hi
    omega
  · refine isHeap_siftUp hle ⟨?_, ?_⟩ (by omega) (Nat.le_refl _) (by omega)
    · intro j hj hjn hji
      exact h j hj (by omega)
    · intro j _ _ hjn hji
      omega

lemma firstChild_spec (hle : IsPreorder le) (a : Array α) (hi : 2 * i + 1 < n) :
    (firstChild le n i a - 1) / 2 = i ∧ i < firstChild le n i a ∧ firstChild le n i a < n ∧
      ∀ j, 0 < j → j < n → (j - 1) / 2 = i → le (entry a (firstChild le n i a)) (entry a j) := by
  have hchild : ∀ j, 0 < j → (j - 1) / 2 = i → j = 2 * i + 1 ∨ j = 2 * i + 2 := by
    intro j hj hji
    omega
  have hrefl : ∀ x, le x x := by
    intro x
    simpa using hle.total x x
  simp only [firstChild]
  split_ifs with h
  · simp only [Bool.not_eq_true'] at h
    refine ⟨by omega, by omega, by omega, ?_⟩
    intro j hj hjn hji
    rcases hchild j hj hji with rfl | rfl
    · exact hle.of_not (by simp [h.2])
    · exact hrefl _
  · refine ⟨by omega, by omega, by omega, ?_⟩
    intro j hj hjn hji
    rcases hchild j hj hji with rfl | rfl
    · exact hrefl _
    · by_contra hne
      exact h ⟨hjn, by simpa using hne⟩

lemma DownReady.swap (hle : IsPreorder le) (h : DownReady le n i a) (hi : 2 * i + 1 < n)
    (hn : n ≤ a.size) (hlt : ¬ le (entry a i) (entry a (firstChild le n i a))) :
    DownReady le n (firstChild le n i a) (a.swapIfInBounds i (firstChild le n i a)) := by
  obtain ⟨hparent, hgt, hcn, hleast⟩ := firstChild_spec hle a hi
  generalize hc : firstChild le n i a = c at *
  have hswap := entry_swap (a := a) (i := i) (j := c) (by omega) (by omega)
  have hup := hle.of_not hlt
  refine ⟨?_, ?_⟩
  · intro j hj hjn hjc
    rw [hswap, hswap, if_neg hjc]
    rcases eq_or_ne j i with rfl | hji
    · -- The child goes under the parent of the entry it replaces.
      rw [if_pos rfl, if_neg (by omega)]
      exact h.below c hj (by omega) hcn hparent
    · rw [if_neg hji]
      rcases eq_or_ne ((j - 1) / 2) i with hji' | hji'
      · rw [if_pos hji']
        rcases eq_or_ne j c with rfl | hjc'
        · simpa using hup
        · rw [if_neg hjc']
          exact hleast j hj hjn hji'
      · rw [if_neg hji', if_neg (by omega)]
        exact h.others j hj hjn hji'
  · intro j _ hj hjn hjc
    rw [hswap, hswap, hparent, if_pos rfl, if_neg (by omega), if_neg (by omega)]
    have hedge := h.others j hj hjn (by omega)
    rwa [hjc] at hedge

lemma isHeap_siftDown (hle : IsPreorder le) (h : DownReady le n i a)
    (hn : n ≤ a.size) (hfuel : n ≤ fuel + i) : IsHeap le n (siftDown le n fuel i a) := by
  have hstop : ∀ {i} {a : Array α}, DownReady le n i a →
      (n ≤ 2 * i + 1 ∨ le (entry a i) (entry a (firstChild le n i a))) → IsHeap le n a := by
    intro i a h hdone j hj hjn
    rcases eq_or_ne ((j - 1) / 2) i with hji | hji
    · rcases hdone with hleaf | hdone
      · omega
      · have hleast := (firstChild_spec hle a (show 2 * i + 1 < n by omega)).2.2.2 j hj hjn hji
        rw [hji]
        exact hle.trans hdone hleast
    · exact h.others j hj hjn hji
  induction fuel generalizing i a with
  | zero => exact hstop h (.inl (by omega))
  | succ fuel ih =>
    simp only [siftDown]
    split_ifs with hdone
    · exact hstop h hdone
    · rw [not_or, Nat.not_le] at hdone
      have hgt := (firstChild_spec hle a hdone.1).2.1
      apply ih (h.swap hle hdone.1 hn hdone.2)
      · simpa using hn
      · omega

/-- A move among the first `n` entries leaves the others where they are. -/
lemma entry_siftDown (hi : i < n) (hn : n ≤ a.size) {k : ℕ} (hk : n ≤ k) :
    entry (siftDown le n fuel i a) k = entry a k := by
  induction fuel generalizing i a with
  | zero => rfl
  | succ fuel ih =>
    simp only [siftDown]
    split_ifs with hdone
    · rfl
    · have hlt : firstChild le n i a < n := by
        simp only [firstChild]
        split_ifs <;> omega
      rw [ih hlt (by simpa using hn), entry_swap (by omega) (by omega), if_neg (by omega), if_neg (by omega)]

/-- What `pop_heap` promises. -/
lemma isHeap_popHeap (hle : IsPreorder le) (h : IsHeap le a.size a) (hpos : 0 < a.size) :
    IsHeap le (a.size - 1) (popHeap le a) ∧ entry (popHeap le a) (a.size - 1) = entry a 0 := by
  have hswap := entry_swap (a := a) (i := 0) (j := a.size - 1) hpos (by omega)
  refine ⟨isHeap_siftDown hle ⟨?_, ?_⟩ (by simp) (by omega), ?_⟩
  · intro j hj hjn hj0
    rw [hswap, hswap, if_neg hj0, if_neg (by omega), if_neg (by omega), if_neg (by omega)]
    exact h j hj (by omega)
  · intro j h0
    omega
  · rcases Nat.eq_zero_or_pos (a.size - 1) with h1 | h1
    · simp only [popHeap, h1, siftDown]
      rw [h1] at hswap
      simp [hswap]
    · rw [popHeap, entry_siftDown h1 (by simp) (Nat.le_refl _), hswap, if_neg (by omega), if_pos rfl]

/-! ## Adding an entry and taking the front -/

section Ends

variable (le)

/-- `push_back` and `push_heap`. -/
def push (x : α) (a : Array α) : Array α := pushHeap le (a.push x)

/-- `pop_heap` and `pop_back`. -/
def pop (a : Array α) : Array α := (popHeap le a).pop

@[simp] lemma size_push (x : α) (a : Array α) : (push le x a).size = a.size + 1 := by simp [push]

@[simp] lemma size_pop (a : Array α) : (pop le a).size = a.size - 1 := by simp [pop]

lemma push_perm (x : α) (a : Array α) : (push le x a).toList.Perm (x :: a.toList) := by
  refine (pushHeap_perm le _).trans ?_
  rw [toList_push]
  exact List.perm_append_singleton x a.toList

variable {a : Array α}

/-- An array with an entry is what `pop_back` leaves and its last entry. -/
lemma toList_eq_pop_append (hpos : 0 < a.size) : a.toList = a.pop.toList ++ [entry a (a.size - 1)] := by
  rw [entry_of_lt (by omega), toList_pop]
  have hne : a.toList ≠ [] := by
    intro h
    simp_all
  rw [← List.dropLast_append_getLast hne, List.dropLast_concat, List.getLast_eq_getElem]
  simp

variable {le}

lemma pop_perm (hle : IsPreorder le) (h : IsHeap le a.size a) (hpos : 0 < a.size) :
    a.toList.Perm (entry a 0 :: (pop le a).toList) := by
  have hlast := toList_eq_pop_append (a := popHeap le a) (by simpa using hpos)
  rw [size_popHeap, (isHeap_popHeap hle h hpos).2] at hlast
  refine (popHeap_perm le a).symm.trans ?_
  rw [hlast]
  exact List.perm_append_singleton _ _

lemma IsHeap.congr {n : ℕ} {a' : Array α} (h : IsHeap le n a) (heq : ∀ i < n, entry a' i = entry a i) :
    IsHeap le n a' := by
  intro i hi hin
  rw [heq i hin, heq _ (by omega)]
  exact h i hi hin

lemma isHeap_push (hle : IsPreorder le) (h : IsHeap le a.size a) (x : α) :
    IsHeap le (push le x a).size (push le x a) := by
  have hpush : IsHeap le (a.push x).size (push le x a) := by
    apply isHeap_pushHeap hle
    refine IsHeap.congr (a := a) (by simpa using h) ?_
    intro i hi
    rw [Array.size_push, Nat.add_sub_cancel] at hi
    simp [entry, getD_eq_getD_getElem?, getElem?_push, Nat.ne_of_lt hi]
  simpa using hpush

lemma isHeap_pop (hle : IsPreorder le) (h : IsHeap le a.size a) : IsHeap le (pop le a).size (pop le a) := by
  rcases Nat.eq_zero_or_pos a.size with h0 | hpos
  · intro i _ hi
    rw [size_pop] at hi
    omega
  · rw [size_pop]
    refine (isHeap_popHeap hle h hpos).1.congr ?_
    intro i hi
    rw [entry_of_lt (by simpa using hi), entry_of_lt (by rw [size_popHeap]; omega)]
    simp [pop]

omit [Inhabited α] in
/-- Replacing the last entry is `pop_back` and `push_back`. -/
lemma set_last (hpos : 0 < a.size) (x : α) : a.setIfInBounds (a.size - 1) x = a.pop.push x := by
  apply ext
  · simp
    omega
  · intro i hi _
    rw [size_setIfInBounds] at hi
    rw [getElem_setIfInBounds hi, getElem_push]
    rcases eq_or_ne (a.size - 1) i with rfl | hne
    · simp
    · rw [if_neg hne, dif_pos (by rw [Array.size_pop]; omega), Array.getElem_pop]

lemma IsHeap.front_le_of_mem (hle : IsPreorder le) (h : IsHeap le a.size a) {x : α}
    (hx : x ∈ a.toList) : le (entry a 0) x := by
  obtain ⟨i, hi, rfl⟩ := List.getElem_of_mem hx
  have hle' := h.front_le hle (i := i) (by simpa using hi)
  rwa [entry_of_lt (i := i) (by simpa using hi)] at hle'

variable (le)

/-- Several entries are added one after the other. -/
def pushAll (l : List α) (a : Array α) : Array α := l.foldl (fun a x => push le x a) a

@[simp] lemma size_pushAll (l : List α) (a : Array α) : (pushAll le l a).size = l.length + a.size := by
  induction l generalizing a with
  | nil => simp [pushAll]
  | cons x l ih =>
    change (pushAll le l (push le x a)).size = _
    rw [ih, size_push, List.length_cons]
    omega

lemma pushAll_perm (l : List α) (a : Array α) : (pushAll le l a).toList.Perm (l ++ a.toList) := by
  induction l generalizing a with
  | nil => exact .refl _
  | cons x l ih =>
    refine (ih (push le x a)).trans ?_
    exact ((push_perm le x a).append_left l).trans List.perm_middle

variable {le}

lemma isHeap_pushAll (hle : IsPreorder le) (l : List α) (h : IsHeap le a.size a) :
    IsHeap le (pushAll le l a).size (pushAll le l a) := by
  induction l generalizing a with
  | nil => exact h
  | cons x l ih => exact ih (isHeap_push hle h x)

lemma front_siftUp (hi : i < a.size) : entry (siftUp le fuel i a) 0 = entry a 0 ∨
    (entry (siftUp le fuel i a) 0 = entry a i ∧ ¬ le (entry a 0) (entry a i)) := by
  induction fuel generalizing i a with
  | zero => exact .inl rfl
  | succ fuel ih =>
    rw [siftUp]
    split_ifs with h
    · exact .inl rfl
    · rw [not_or] at h
      have hp : (i - 1) / 2 < a.size := by omega
      have hswap := entry_swap hp hi
      have hnew := ih (i := (i - 1) / 2) (a := a.swapIfInBounds ((i - 1) / 2) i) (by simpa using hp)
      rw [hswap ((i - 1) / 2), if_pos rfl, hswap 0] at hnew
      by_cases hz : 0 = (i - 1) / 2
      · rw [if_pos hz] at hnew
        refine .inr ⟨?_, hz ▸ h.2⟩
        rcases hnew with hnew | hnew
        · exact hnew
        · exact hnew.1
      · rwa [if_neg hz, if_neg (Ne.symm h.1)] at hnew

lemma front_push (hpos : 0 < a.size) (x : α) : entry (push le x a) 0 = entry a 0 ∨
    (entry (push le x a) 0 = x ∧ ¬ le (entry a 0) x) := by
  have hold : entry (a.push x) 0 = entry a 0 := by
    rw [entry_of_lt hpos, entry_of_lt (by simp), getElem_push_lt hpos]
  have hlast : entry (a.push x) a.size = x := by
    rw [entry_of_lt (by simp), getElem_push_eq]
  have hnew := @front_siftUp _ _ a.size (a.push x).size le (a.push x) (by simp)
  rw [hold, hlast] at hnew
  simpa [push, pushHeap] using hnew

lemma front_pushAll (hle : IsPreorder le) {l : List α} (hl : l ≠ []) :
    ∃ pre x post, l = pre ++ x :: post ∧ entry (pushAll le l #[]) 0 = x ∧ ∀ y ∈ pre, ¬ le y x := by
  induction l using List.reverseRecOn with
  | nil => exact absurd rfl hl
  | append_singleton l z ih =>
    have hpush : pushAll le (l ++ [z]) #[] = push le z (pushAll le l #[]) := by rw [pushAll, List.foldl_append]; rfl
    by_cases hnil : l = []
    · subst hnil
      exact ⟨[], z, [], rfl, by simp [pushAll, push, pushHeap, siftUp, entry], fun _ h => absurd h List.not_mem_nil⟩
    obtain ⟨pre, x, post, hsplit, hfront, hpre⟩ := ih hnil
    have hpos : 0 < (pushAll le l #[]).size := by simpa [List.length_pos_iff] using hnil
    rw [hpush]
    rcases front_push hpos z with h | ⟨h, hworse⟩
    · exact ⟨pre, x, post ++ [z], by rw [hsplit, List.append_assoc]; rfl, h.trans hfront, hpre⟩
    · -- whoever is as good as the new front would be as good as the old one
      have hheap := isHeap_pushAll hle l (a := #[]) fun i _ h => absurd h (Nat.not_lt_zero i)
      refine ⟨l, z, [], rfl, h, fun w hw hwz => hworse ?_⟩
      have hmem := (pushAll_perm le l #[]).mem_iff.mpr (List.mem_append_left _ hw)
      exact hle.trans (hheap.front_le_of_mem hle hmem) hwz

end Ends

end Gem5.Lib.BinaryHeap
