import Mathlib

/-!
# Destination sets

`NetDest` (`mem/ruby/common/NetDest.cc`) holds the destinations of a message: for each type of machine a
set of controllers of that type. `counts` gives the number of controllers of each type
(`m_num_controllers`); node numbers run through the types one after the other, so that the nodes of type
`m` start at `baseNumber counts m`.
-/

namespace Gem5.Ruby

open List

/-- `MachineType_base_number(m)`. -/
def baseNumber (counts : List ℕ) (m : ℕ) : ℕ := (counts.take m).sum

/-- `MachineType_base_count(m)`. -/
def baseCount (counts : List ℕ) (m : ℕ) : ℕ := counts.getD m 0

/-- `NetDest`: the bits of each set are below its size. -/
@[ext]
structure NetDest (counts : List ℕ) where
  /-- `m_bits`. -/
  bits : ℕ → Finset ℕ
  lt : ∀ m, ∀ j ∈ bits m, j < baseCount counts m

variable {counts : List ℕ}

lemma baseNumber_succ (counts : List ℕ) (m : ℕ) : baseNumber counts (m + 1) = baseNumber counts m + baseCount counts m := by
  unfold baseNumber baseCount
  by_cases hm : m < counts.length
  · rw [take_succ_eq_append_getElem hm, sum_append, getD_eq_getElem _ _ hm]
    simp
  · rw [take_of_length_le (by omega), take_of_length_le (by omega), getD_eq_default _ _ (by omega)]
    rfl

lemma baseNumber_mono (counts : List ℕ) {m m' : ℕ} (h : m ≤ m') : baseNumber counts m ≤ baseNumber counts m' := by
  induction h with
  | refl => exact Nat.le_refl _
  | step _ ih => exact ih.trans (baseNumber_succ counts _ ▸ Nat.le_add_right ..)

lemma type_unique {m m' j j' : ℕ} (hj : j < baseCount counts m) (hj' : j' < baseCount counts m')
    (h : baseNumber counts m + j = baseNumber counts m' + j') : m = m' ∧ j = j' := by
  have hm := baseNumber_succ counts m
  have hm' := baseNumber_succ counts m'
  have heq : m = m' := by
    rcases Nat.lt_trichotomy m m' with hlt | heq | hlt
    · have hle : baseNumber counts (m + 1) ≤ baseNumber counts m' := baseNumber_mono counts hlt
      omega
    · exact heq
    · have hle : baseNumber counts (m' + 1) ≤ baseNumber counts m := baseNumber_mono counts hlt
      omega
  subst heq
  exact ⟨rfl, by omega⟩

namespace NetDest

/-- A new `NetDest`, or one after `clear()`. -/
def empty (counts : List ℕ) : NetDest counts where
  bits _ := ∅
  lt _ _ h := absurd h (Finset.notMem_empty _)

/-- `add({m, j})`; `none` if the assertion fails that there is such a controller. -/
def add (d : NetDest counts) (m j : ℕ) : Option (NetDest counts) :=
  if h : j < baseCount counts m then
    some
      { bits := Function.update d.bits m (insert j (d.bits m))
        lt := by
          intro m' j' hj'
          by_cases hm : m' = m
          · subst hm
            rw [Function.update_self] at hj'
            rcases Finset.mem_insert.mp hj' with rfl | hj'
            · exact h
            · exact d.lt m' j' hj'
          · rw [Function.update_of_ne hm] at hj'
            exact d.lt m' j' hj' }
  else none

/-- `removeNetDest(netDest)`. -/
def removeNetDest (d netDest : NetDest counts) : NetDest counts where
  bits m := d.bits m \ netDest.bits m
  lt m j h := d.lt m j (Finset.mem_sdiff.mp h).1

/-- `getAllDest()`. -/
def getAllDest (d : NetDest counts) : List ℕ :=
  (range counts.length).flatMap fun m =>
    ((range (baseCount counts m)).filter fun j => j ∈ d.bits m).map (baseNumber counts m + ·)

lemma length_of_mem {d : NetDest counts} {m j : ℕ} (h : j ∈ d.bits m) : m < counts.length := by
  by_contra hm
  have hlt := d.lt m j h
  rw [baseCount, getD_eq_default _ _ (by omega)] at hlt
  omega

lemma mem_getAllDest {d : NetDest counts} {id : ℕ} :
    id ∈ d.getAllDest ↔ ∃ m, ∃ j ∈ d.bits m, id = baseNumber counts m + j := by
  simp only [getAllDest, mem_flatMap, mem_range, mem_map, mem_filter, decide_eq_true_eq]
  constructor
  · rintro ⟨m, -, j, ⟨-, hj⟩, rfl⟩
    exact ⟨m, j, hj, rfl⟩
  · rintro ⟨m, j, hj, rfl⟩
    exact ⟨m, length_of_mem hj, j, ⟨d.lt m j hj, hj⟩, rfl⟩

lemma nodup_getAllDest (d : NetDest counts) : d.getAllDest.Nodup := by
  refine nodup_flatMap.mpr ⟨fun m _ => ?_, ?_⟩
  · exact (nodup_range.filter _).map fun _ _ h => Nat.add_left_cancel h
  · refine nodup_range.imp fun {m m'} hne => ?_
    intro id hid hid'
    simp only [mem_map, mem_filter, mem_range] at hid hid'
    obtain ⟨j, ⟨hj, -⟩, rfl⟩ := hid
    obtain ⟨j', ⟨hj', -⟩, h⟩ := hid'
    exact hne (type_unique hj hj' h.symm).1

lemma add_empty {m j : ℕ} (h : j < baseCount counts m) :
    ∃ d, (empty counts).add m j = some d ∧ ∀ m' j', j' ∈ d.bits m' ↔ m' = m ∧ j' = j := by
  refine ⟨_, dif_pos h, fun m' j' => ?_⟩
  by_cases hm : m' = m
  · subst hm
    simp [empty]
  · simp [empty, hm]

lemma getAllDest_removeNetDest {d one : NetDest counts} {m j : ℕ} (hj : j < baseCount counts m)
    (hone : ∀ m' j', j' ∈ one.bits m' ↔ m' = m ∧ j' = j) :
    (d.removeNetDest one).getAllDest = d.getAllDest.filter (· != baseNumber counts m + j) := by
  rw [getAllDest, getAllDest, filter_flatMap, flatMap_def, flatMap_def]
  refine congrArg flatten (map_congr_left fun m' _ => ?_)
  rw [filter_map, filter_filter]
  refine congrArg (map _) (filter_congr fun j' hj' => ?_)
  have hiff : baseNumber counts m' + j' = baseNumber counts m + j ↔ m' = m ∧ j' = j :=
    ⟨type_unique (mem_range.mp hj') hj, by rintro ⟨rfl, rfl⟩; rfl⟩
  rw [Bool.eq_iff_iff]
  simp only [removeNetDest, Finset.mem_sdiff, hone, decide_eq_true_eq, Function.comp_apply, Bool.and_eq_true, bne_iff_ne, ne_eq,
    hiff]
  exact and_comm

lemma getAllDest_one {one : NetDest counts} {m j : ℕ} (hone : ∀ m' j', j' ∈ one.bits m' ↔ m' = m ∧ j' = j) :
    one.getAllDest = [baseNumber counts m + j] := by
  refine perm_singleton.mp ((perm_ext_iff_of_nodup one.nodup_getAllDest (nodup_singleton _)).mpr fun id => ?_)
  rw [mem_getAllDest, mem_singleton]
  constructor
  · rintro ⟨m', j', hj', rfl⟩
    obtain ⟨rfl, rfl⟩ := (hone m' j').mp hj'
    rfl
  · rintro rfl
    exact ⟨m, j, (hone m j).mpr ⟨rfl, rfl⟩, rfl⟩

end NetDest

end Gem5.Ruby
