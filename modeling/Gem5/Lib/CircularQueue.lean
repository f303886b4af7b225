import Mathlib

/-!
# Circular queues

A queue in an array of a fixed capacity. Entries are numbered from the head on; the numbers keep growing, and
are taken modulo the capacity when the array is accessed. An entry is cleared when it leaves the queue, so the
array is given by the entries in the queue and the number of the first one: a number outside of the queue is that
of a cleared entry, or stands for another entry of the queue (`slot`). Proofs speak about the entry with a number
that is in the queue (`Has`), and each operation has a lemma that says which entries there are afterwards.
-/

namespace Gem5.Lib

open List

/-- A queue with at most `capacity` entries, the first with the number `head`. -/
structure CircularQueue (α : Type*) (capacity : ℕ) where
  head : ℕ := 1
  entries : List α := []
  length_le : entries.length ≤ capacity := by simp

namespace CircularQueue

variable {α : Type*} {capacity : ℕ}

/-- The number after that of the last entry. -/
def last (q : CircularQueue α capacity) : ℕ := q.head + q.entries.length

/-- What the array has for a number, also for one that is not in the queue. -/
def slot (q : CircularQueue α capacity) (i : ℕ) : Option α :=
  q.entries[(i + (capacity - q.head % capacity)) % capacity]?

/-- A new entry at the end, if there is room. -/
def push (q : CircularQueue α capacity) (a : α) : Option (CircularQueue α capacity) :=
  if h : q.entries.length < capacity then some ⟨q.head, q.entries ++ [a], by rw [length_append]; exact h⟩ else none

/-- Without the first `n` entries. -/
def dropFront (q : CircularQueue α capacity) (n : ℕ) : CircularQueue α capacity where
  head := q.head + min n q.entries.length
  entries := q.entries.drop n
  length_le := by
    have := q.length_le
    rw [length_drop]
    omega

def popBack (q : CircularQueue α capacity) : CircularQueue α capacity where
  head := q.head
  entries := q.entries.dropLast
  length_le := by
    have := q.length_le
    rw [length_dropLast]
    omega

/-- With another value for the entry with a number that is in the queue. -/
def modify (q : CircularQueue α capacity) (i : ℕ) (f : α → α) : CircularQueue α capacity where
  head := q.head
  entries := if q.head ≤ i then q.entries.modify (i - q.head) f else q.entries
  length_le := by
    have := q.length_le
    split <;> simpa

/-- The entry with a number is in the queue. -/
def Has (q : CircularQueue α capacity) (i : ℕ) (a : α) : Prop := q.head ≤ i ∧ q.entries[i - q.head]? = some a

variable {q q' : CircularQueue α capacity} {i j n : ℕ} {a b : α} {f : α → α}

instance [DecidableEq α] : Decidable (q.Has i a) := inferInstanceAs (Decidable (_ ∧ _))

lemma Has.lt_last (h : q.Has i a) : i < q.last := by
  have := List.getElem?_eq_some_iff.mp h.2
  have hlt := this.1
  have := h.1
  unfold last
  omega

lemma Has.mem (h : q.Has i a) : a ∈ q.entries := mem_of_getElem? h.2

lemma Has.eq (h : q.Has i a) (h' : q.Has i b) : a = b := Option.some.inj (h.2.symm.trans h'.2)

lemma exists_has (h : q.head ≤ i) (h' : i < q.last) : ∃ a, q.Has i a := by
  have hlt : i - q.head < q.entries.length := by unfold last at h'; omega
  exact ⟨_, h, getElem?_eq_getElem hlt⟩

lemma Has.slot (h : q.Has i a) : q.slot i = some a := by
  have hlt := h.lt_last
  have hle := q.length_le
  obtain ⟨hhead, hget⟩ := h
  rw [CircularQueue.slot, ← hget]
  congr 1
  unfold last at hlt
  obtain ⟨k, rfl⟩ := Nat.exists_eq_add_of_le hhead
  have hk : k < capacity := by omega
  have hmod : q.head + (capacity - q.head % capacity) = capacity * (q.head / capacity + 1) := by
    have := Nat.div_add_mod q.head capacity
    have := Nat.mod_lt q.head (by omega : 0 < capacity)
    rw [Nat.mul_add]
    omega
  rw [Nat.add_sub_cancel_left, show q.head + k + (capacity - q.head % capacity) = k + capacity * (q.head / capacity + 1) by omega,
    Nat.add_mul_mod_self_left, Nat.mod_eq_of_lt hk]

lemma not_has_empty : ¬ (({} : CircularQueue α capacity).Has i a) := by
  simp [Has]

/-! ### The operations -/

lemma push_head (h : q.push a = some q') : q'.head = q.head := by
  unfold push at h
  split at h
  · cases h
    rfl
  · cases h

lemma push_last (h : q.push a = some q') : q'.last = q.last + 1 := by
  unfold push at h
  split at h
  · cases h
    simp [last]
    omega
  · cases h

lemma has_push (h : q.push a = some q') : q'.Has i b ↔ q.Has i b ∨ i = q.last ∧ b = a := by
  unfold push at h
  split at h
  · cases h
    simp only [Has, last, getElem?_append]
    constructor
    · rintro ⟨hhead, hget⟩
      split at hget
      · exact .inl ⟨hhead, hget⟩
      · rename_i hlt
        obtain ⟨hzero, heq⟩ := List.getElem?_eq_some_iff.mp hget
        simp only [length_singleton] at hzero
        exact .inr ⟨by omega, by simpa using heq.symm⟩
    · rintro (⟨hhead, hget⟩ | ⟨rfl, rfl⟩)
      · have hlt := (List.getElem?_eq_some_iff.mp hget).1
        exact ⟨hhead, by rwa [if_pos hlt]⟩
      · exact ⟨Nat.le_add_right .., by simp⟩
  · cases h

@[simp] lemma dropFront_last (q : CircularQueue α capacity) (n : ℕ) : (q.dropFront n).last = q.last := by
  simp only [dropFront, last, length_drop]
  omega

lemma dropFront_head (h : n ≤ q.entries.length) : (q.dropFront n).head = q.head + n := by
  simp only [dropFront]
  omega

lemma has_dropFront (h : n ≤ q.entries.length) : (q.dropFront n).Has i a ↔ q.Has i a ∧ q.head + n ≤ i := by
  simp only [Has, dropFront_head h]
  simp only [dropFront, getElem?_drop]
  constructor
  · rintro ⟨hhead, hget⟩
    refine ⟨⟨by omega, ?_⟩, hhead⟩
    rwa [show n + (i - (q.head + n)) = i - q.head by omega] at hget
  · rintro ⟨⟨hhead, hget⟩, hn⟩
    refine ⟨hn, ?_⟩
    rwa [show n + (i - (q.head + n)) = i - q.head by omega]

lemma popBack_last (h : q.entries ≠ []) : q.popBack.last + 1 = q.last := by
  have := length_pos_iff.mpr h
  simp only [popBack, last, length_dropLast]
  omega

lemma has_popBack : q.popBack.Has i a ↔ q.Has i a ∧ i + 1 < q.last := by
  simp only [Has, popBack, last, getElem?_dropLast]
  constructor
  · rintro ⟨hhead, hget⟩
    split at hget
    · exact ⟨⟨hhead, hget⟩, by omega⟩
    · cases hget
  · rintro ⟨⟨hhead, hget⟩, hlt⟩
    exact ⟨hhead, by rwa [if_pos (by omega)]⟩

@[simp] lemma modify_head (q : CircularQueue α capacity) (i : ℕ) (f : α → α) : (q.modify i f).head = q.head := rfl

@[simp] lemma modify_last (q : CircularQueue α capacity) (i : ℕ) (f : α → α) : (q.modify i f).last = q.last := by
  simp only [modify, last]
  split <;> simp

lemma has_modify : (q.modify j f).Has i b ↔ ∃ a, q.Has i a ∧ b = if i = j then f a else a := by
  simp only [Has, modify]
  by_cases hj : q.head ≤ j
  · rw [if_pos hj, getElem?_modify]
    have hiff : q.head ≤ i → ((j - q.head = i - q.head) = (i = j)) := fun h => propext (by omega)
    constructor
    · rintro ⟨hhead, hget⟩
      obtain ⟨a, ha, rfl⟩ := Option.map_eq_some_iff.mp hget
      exact ⟨a, ⟨hhead, ha⟩, by simp only [hiff hhead]⟩
    · rintro ⟨a, ⟨hhead, hget⟩, rfl⟩
      refine ⟨hhead, Option.map_eq_some_iff.mpr ⟨a, hget, ?_⟩⟩
      simp only [hiff hhead]
  · rw [if_neg hj]
    constructor
    · rintro ⟨hhead, hget⟩
      exact ⟨b, ⟨hhead, hget⟩, by rw [if_neg (by omega)]⟩
    · rintro ⟨a, ⟨hhead, hget⟩, rfl⟩
      exact ⟨hhead, by rw [if_neg (by omega), hget]⟩

lemma modify_modify (g : α → α) : (q.modify i f).modify i g = q.modify i (g ∘ f) := by
  simp only [modify]
  split
  · simp only [modify_modify_eq]
  · rfl

lemma slot_modify_eq_none : (q.modify j f).slot i = none ↔ q.slot i = none := by
  have hlength : (q.modify j f).entries.length = q.entries.length := by
    simp only [modify]
    split <;> simp
  simp only [slot, getElem?_eq_none_iff, hlength, modify_head]

lemma Has.modify_self (h : q.Has i a) (f : α → α) : (q.modify i f).Has i (f a) :=
  has_modify.mpr ⟨a, h, by rw [if_pos rfl]⟩

lemma Has.modify_of_ne (h : q.Has i a) (hij : i ≠ j) : (q.modify j f).Has i a :=
  has_modify.mpr ⟨a, h, by rw [if_neg hij]⟩

end CircularQueue

end Gem5.Lib
