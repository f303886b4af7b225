import Mathlib

/-!
# Maps from keys to lists

`std::map<K, std::list<V>>`: the entries in ascending order of their keys, one for each key. A list
may be empty. The lemmas are about all values of a map, in any order: appending to a list adds one,
erasing a key drops those of its list.
-/

namespace Gem5.Lib

open List

/-- A map from keys to lists, in ascending order of the keys. -/
structure ListMap (κ ν : Type*) [LinearOrder κ] where
  /-- The keys with their lists, in iteration order. -/
  entries : List (κ × List ν) := []
  sorted : entries.Pairwise fun x y => x.1 < y.1 := by simp

namespace ListMap

variable {κ ν : Type*} [LinearOrder κ]

lemma sorted_nil : ([] : List (κ × List ν)).Pairwise fun x y => x.1 < y.1 := .nil

def values (m : ListMap κ ν) : List ν := m.entries.flatMap Prod.snd

/-- `count(k)` is not zero. -/
def contains (k : κ) (m : ListMap κ ν) : Bool := m.entries.any fun x => x.1 == k

/-- What `operator[]` reads: the list of `k`, empty when there is none. -/
def get (k : κ) (m : ListMap κ ν) : List ν := (m.entries.filter fun x => x.1 == k).flatMap Prod.snd

/-- `erase(k)`. -/
def erase (k : κ) (m : ListMap κ ν) : ListMap κ ν where
  entries := m.entries.filter fun x => x.1 != k
  sorted := m.sorted.filter _

/-- The entries after `v` is appended to the list of `k`. -/
def insertBack (k : κ) (v : ν) : List (κ × List ν) → List (κ × List ν)
  | [] => [(k, [v])]
  | x :: l =>
    if k < x.1 then (k, [v]) :: x :: l
    else if x.1 = k then (x.1, x.2 ++ [v]) :: l
    else x :: insertBack k v l

lemma key_of_mem_insertBack {k : κ} {v : ν} {l : List (κ × List ν)} {x : κ × List ν}
    (h : x ∈ insertBack k v l) : x.1 = k ∨ ∃ y ∈ l, y.1 = x.1 := by
  induction l with
  | nil =>
    rw [insertBack, mem_singleton] at h
    exact .inl (by rw [h])
  | cons y l ih =>
    simp only [insertBack] at h
    split_ifs at h with hlt heq
    · rcases mem_cons.mp h with rfl | h
      · exact .inl rfl
      · exact .inr ⟨x, h, rfl⟩
    · rcases mem_cons.mp h with rfl | h
      · exact .inl heq
      · exact .inr ⟨x, by simp [h], rfl⟩
    · rcases mem_cons.mp h with rfl | h
      · exact .inr ⟨x, by simp, rfl⟩
      · rcases ih h with h | ⟨z, hz, hzx⟩
        · exact .inl h
        · exact .inr ⟨z, by simp [hz], hzx⟩

lemma sorted_insertBack {k : κ} {v : ν} {l : List (κ × List ν)} (h : l.Pairwise fun x y => x.1 < y.1) :
    (insertBack k v l).Pairwise fun x y => x.1 < y.1 := by
  induction l with
  | nil => simp [insertBack]
  | cons x l ih =>
    rw [pairwise_cons] at h
    simp only [insertBack]
    split_ifs with hlt heq
    · refine pairwise_cons.mpr ⟨?_, pairwise_cons.mpr h⟩
      intro y hy
      rcases mem_cons.mp hy with rfl | hy
      · exact hlt
      · exact hlt.trans (h.1 y hy)
    · exact pairwise_cons.mpr ⟨h.1, h.2⟩
    · refine pairwise_cons.mpr ⟨?_, ih h.2⟩
      intro y hy
      rcases key_of_mem_insertBack hy with hk | ⟨z, hz, hzy⟩
      · rw [hk]
        exact lt_of_le_of_ne (not_lt.mp hlt) heq
      · rw [← hzy]
        exact h.1 z hz

/-- `operator[](k).push_back(v)`. -/
def pushBack (k : κ) (v : ν) (m : ListMap κ ν) : ListMap κ ν where
  entries := insertBack k v m.entries
  sorted := sorted_insertBack m.sorted

lemma values_pushBack (k : κ) (v : ν) (m : ListMap κ ν) : (m.pushBack k v).values.Perm (v :: m.values) := by
  have hgen : ∀ l : List (κ × List ν), ((insertBack k v l).flatMap Prod.snd).Perm (v :: l.flatMap Prod.snd) := by
    intro l
    induction l with
    | nil => simp [insertBack]
    | cons x l ih =>
      simp only [insertBack]
      split_ifs
      · simp
      · simp
      · simpa using (ih.append_left x.2).trans perm_middle
  exact hgen m.entries

lemma values_erase (k : κ) (m : ListMap κ ν) : m.values.Perm (m.get k ++ (m.erase k).values) := by
  have hsplit := filter_append_perm (fun x : κ × List ν => x.1 == k) m.entries
  have hflat := hsplit.symm.flatMap_right Prod.snd
  rw [flatMap_append] at hflat
  exact hflat

end ListMap

end Gem5.Lib
