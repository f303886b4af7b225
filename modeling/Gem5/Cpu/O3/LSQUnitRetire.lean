import Gem5.Cpu.O3.LSQUnitRun

/-!
# Runs of the load/store queue: insertion, commit, writing back and squashing

The calls that move an end of a queue or `storeWBIt`, and that every call keeps the invariant (**`Ok.perform`**). A
load leaves the queue at the front when it is committed, a store when it and all older ones are complete; both leave it
at the back when they are squashed.
-/

namespace Gem5.O3

open Lib List CircularQueue CircularQueue.Has Nat

namespace LSQUnit

variable {p : LSQParams} {u u' u'' : LSQUnit p} {i j k n : ℕ} {a a' : LoadEntry} {b b' : StoreEntry}
  {E : LSQFault → Prop}

/-! ### Insertion -/

lemma Ok.insertLoad {inst : LoadInst} (h : Ok u) (hlegal : u.Legal (.insertLoad inst)) (hu' : u.insertLoad inst = .ok u') :
    Ok u' := by
  obtain ⟨-, hloads, hstores⟩ := hlegal
  unfold LSQUnit.insertLoad at hu'
  split at hu'
  · cases hu'
  · rename_i q hq
    cases hu'
    have hhas {i : ℕ} {a : LoadEntry} (ha : q.Has i a) :
        u.loadQueue.Has i a ∨ i = u.loadQueue.last ∧ a = { inst with sqIt := u.storeQueue.last } :=
      (has_push hq).mp ha
    constructor
    case loads_sorted =>
      intro i a i' a' ha ha' hlt
      rcases hhas ha with ha | ⟨rfl, rfl⟩ <;> rcases hhas ha' with ha' | ⟨rfl, rfl⟩
      · exact h.loads_sorted i a i' a' ha ha' hlt
      · exact hloads a ha.mem
      · exact absurd ha'.lt_last (by omega)
      · omega
    case stores_sorted => exact h.stores_sorted
    case older_store =>
      intro i a j b ha hb hlt
      rcases hhas ha with ha | ⟨rfl, rfl⟩
      · exact h.older_store i a j b ha hb hlt
      · exact hstores b hb.mem
    case younger_store =>
      intro i a j b ha hb hle
      rcases hhas ha with ha | ⟨rfl, rfl⟩
      · exact h.younger_store i a j b ha hb hle
      · exact absurd hb.lt_last (not_lt.mpr hle)
    case sqIt_le =>
      intro i a ha
      rcases hhas ha with ha | ⟨rfl, rfl⟩
      · exact h.sqIt_le i a ha
      · exact le_refl _
    case older_load =>
      intro i a j b ha hb hlt
      rcases hhas ha with ha | ⟨rfl, rfl⟩
      · exact h.older_load i a j b ha hb hlt
      · exact absurd (h.lqIt_le j b hb) (not_le.mpr hlt)
    case younger_load =>
      intro i a j b ha hb hle
      rcases hhas ha with ha | ⟨rfl, rfl⟩
      · exact h.younger_load i a j b ha hb hle
      · exact hstores b hb.mem
    case lqIt_le =>
      intro j b hb
      rw [push_last hq]
      exact le_succ_of_le (h.lqIt_le j b hb)
    case head_le_lqIt =>
      rw [push_head hq]
      exact h.head_le_lqIt
    case storeWBIt_range => exact h.storeWBIt_range
    case canWB_of_lt => exact h.canWB_of_lt
    case completed_of_le => exact h.completed_of_le
    case executed => grind [Ok.executed, mem]
    case storeWBIt_le =>
      intro i a ha hex
      rcases hhas ha with ha | ⟨rfl, rfl⟩
      · exact h.storeWBIt_le i a ha hex
      · exact h.storeWBIt_range.2
    case written => exact h.written
    case blocked => exact h.blocked

lemma Ok.insertStore {inst : StoreInst} (h : Ok u) (hlegal : u.Legal (.insertStore inst))
    (hu' : u.insertStore inst = .ok u') : Ok u' := by
  obtain ⟨-, hloads, hstores⟩ := hlegal
  unfold LSQUnit.insertStore at hu'
  split at hu'
  · cases hu'
  · rename_i q hq
    cases hu'
    have hlast := push_last hq
    have hhead := push_head hq
    have hhas {j : ℕ} {b : StoreEntry} (hb : q.Has j b) :
        u.storeQueue.Has j b ∨ j = u.storeQueue.last ∧ b = { inst with lqIt := u.loadQueue.last } :=
      (has_push hq).mp hb
    constructor
    case loads_sorted => exact h.loads_sorted
    case stores_sorted =>
      intro j b j' b' hb hb' hlt
      rcases hhas hb with hb | ⟨rfl, rfl⟩ <;> rcases hhas hb' with hb' | ⟨rfl, rfl⟩
      · exact h.stores_sorted j b j' b' hb hb' hlt
      · exact hstores b hb.mem
      · exact absurd hb'.lt_last (by omega)
      · omega
    case older_store =>
      intro i a j b ha hb hlt
      rcases hhas hb with hb | ⟨rfl, rfl⟩
      · exact h.older_store i a j b ha hb hlt
      · exact absurd (h.sqIt_le i a ha) (by omega)
    case younger_store =>
      intro i a j b ha hb hle
      rcases hhas hb with hb | ⟨rfl, rfl⟩
      · exact h.younger_store i a j b ha hb hle
      · exact hloads a ha.mem
    case sqIt_le =>
      intro i a ha
      have := h.sqIt_le i a ha
      simp only
      omega
    case older_load =>
      intro i a j b ha hb hlt
      rcases hhas hb with hb | ⟨rfl, rfl⟩
      · exact h.older_load i a j b ha hb hlt
      · exact hloads a ha.mem
    case younger_load =>
      intro i a j b ha hb hle
      rcases hhas hb with hb | ⟨rfl, rfl⟩
      · exact h.younger_load i a j b ha hb hle
      · exact absurd ha.lt_last (not_lt.mpr hle)
    case lqIt_le =>
      intro j b hb
      rcases hhas hb with hb | ⟨rfl, rfl⟩
      · exact h.lqIt_le j b hb
      · exact le_refl _
    case head_le_lqIt =>
      intro j b hb hc
      rcases hhas hb with hb | ⟨rfl, rfl⟩
      · exact h.head_le_lqIt j b hb hc
      · exact Nat.le_add_right ..
    case storeWBIt_range =>
      have := h.storeWBIt_range
      simp only
      omega
    case canWB_of_lt => grind [Ok.canWB_of_lt, Ok.storeWBIt_range]
    case completed_of_le => grind [Ok.completed_of_le]
    case executed => grind [Ok.executed]
    case storeWBIt_le => exact h.storeWBIt_le
    case written =>
      intro j b hb hsize
      rcases hhas hb with hb | ⟨rfl, rfl⟩
      · exact h.written j b hb hsize
      · exact absurd rfl hsize
    grind [Ok.blocked, has_push]

/-! ### Writing back -/

lemma Ok.advance (h : Ok u) (hb : u.storeQueue.Has u.storeWBIt b) (hcan : b.canWB = true)
    (hblocked : u.isStoreBlocked = false) : Ok { u with storeWBIt := u.storeWBIt + 1 } := by
  have hlast := hb.lt_last
  have hhead := hb.1
  exact
    { h with
      storeWBIt_range := ⟨le_succ_of_le hhead, hlast⟩
      canWB_of_lt := fun j c hc hlt => by grind [Ok.canWB_of_lt, eq]
      completed_of_le := fun j c hc hle => h.completed_of_le j c hc (le_of_succ_le hle)
      storeWBIt_le := fun i a ha hex => by grind [Ok.storeWBIt_le, Ok.younger_store, Ok.executed]
      blocked := fun hb => by simp_all }

/-- Stores before `wb` may be marked as complete or leave the queue. -/
structure StoresRetired (wb : ℕ) (q q' : CircularQueue StoreEntry n) : Prop where
  last_eq : q'.last = q.last
  head_le : q'.head ≤ wb
  of_has : ∀ j b', q'.Has j b' → ∃ b, q.Has j b ∧ b' = { b with completed := b'.completed } ∧ (wb ≤ j → b' = b)
  unsent : ∀ j b, q.Has j b → wb ≤ j → q'.Has j b

lemma Ok.retire (h : Ok u) (hs : StoresRetired u.storeWBIt u.storeQueue u'.storeQueue) (hl : u'.loadQueue = u.loadQueue)
    (hwb : u'.storeWBIt = u.storeWBIt) (hblk : u'.isStoreBlocked = u.isStoreBlocked) : Ok u' := by
  have hstore {j : ℕ} {b' : StoreEntry} (hb' : u'.storeQueue.Has j b') :
      ∃ b, u.storeQueue.Has j b ∧ b' = { b with completed := b'.completed } ∧ (u.storeWBIt ≤ j → b' = b) := hs.of_has j b' hb'
  refine h.within ⟨fun i a ha => ⟨a, hl ▸ ha, .refl ..⟩, fun j b' hb' => ?_, hwb⟩ ?_ (fun j b' hb' => ?_)
    (fun j b' hb' hc => ?_) ⟨?_, ?_⟩ fun hblocked => ?_
  · obtain ⟨b, hb, heq, hsame⟩ := hstore hb'
    refine ⟨b, hb, ?_, ?_, ?_, fun hle => by rw [hsame hle], fun hw hsize => ?_, ?_⟩ <;> rw [heq] at *
    · exact id
    · exact (hw hsize).imp fun _ hw => hw.congr ..
    · exact .inl
  · rw [hl, hs.last_eq]
    exact h.sqIt_le
  · obtain ⟨b, hb, heq, -⟩ := hstore hb'
    rw [hl, heq]
    exact h.lqIt_le j b hb
  · obtain ⟨b, hb, heq, -⟩ := hstore hb'
    rw [heq] at hc ⊢
    rw [hl]
    exact h.head_le_lqIt j b hb hc
  · rw [hwb]
    exact hs.head_le
  · rw [hwb, hs.last_eq]
    exact h.storeWBIt_range.2
  grind [Ok.blocked, StoresRetired.unsent]

/-- The record of the stalled load after a store is done: it stays only if it is about another store. -/
structure Unstalled (seqNum : ℕ) (u u' : LSQUnit p) : Prop where
  rest : u' = { u with stalled := u'.stalled, stallingStoreIsn := u'.stallingStoreIsn }
  record : u'.stalled = true → u.stalled = true ∧ u'.stallingStoreIsn = u.stallingStoreIsn ∧ seqNum ≠ u.stallingStoreIsn

lemma unstall_sat (hE : u.NullStalling → E .nullInstruction) (seqNum : ℕ) : Sat E (Unstalled seqNum u) (u.unstall seqNum) := by
  unfold unstall
  refine .ite (fun hmatch => ?_) fun hmatch => ⟨rfl, fun hstalled => ⟨hstalled, rfl, fun heq => hmatch ?_⟩⟩
  · simp only [Bool.and_eq_true, beq_iff_eq] at hmatch
    cases hslot : u.loadQueue.slot u.stallingLoadIdx with
    | none =>
      rw [load, hslot]
      exact hE ⟨hmatch.1, hslot⟩
    | some a =>
      rw [load, hslot]
      exact ⟨rfl, fun h => by cases h⟩
  · rw [hstalled, heq]
    simp

/-- What writing back stores does: the invariant is kept, the loads as well, and the store of the record stays where it
is and is not sent. -/
structure WriteBack (u u' : LSQUnit p) : Prop where
  ok : Ok u'
  loads : u'.loadQueue = u.loadQueue
  violator : u'.memDepViolator = u.memDepViolator
  record : u'.stalled = true → u.stalled = true ∧ u'.stallingStoreIsn = u.stallingStoreIsn ∧
    u'.stallingLoadIdx = u.stallingLoadIdx ∧
    ∀ j b, u.storeQueue.Has j b → b.seqNum = u.stallingStoreIsn → u.storeWBIt ≤ j → b.isDataPrefetch = false →
      u'.storeWBIt ≤ j ∧ ∃ b', u'.storeQueue.Has j b' ∧ b'.toStoreInst = b.toStoreInst
  prefetch : ∀ j b', u'.storeQueue.Has j b' → ∃ b, u.storeQueue.Has j b ∧ b'.toStoreInst = b.toStoreInst

lemma WriteBack.refl (h : Ok u) : WriteBack u u where
  ok := h
  loads := rfl
  violator := rfl
  record hstalled := ⟨hstalled, rfl, rfl, fun _ b hb _ hle _ => ⟨hle, b, hb, rfl⟩⟩
  prefetch _ b' hb' := ⟨b', hb', rfl⟩

lemma storePostSend_sat (h : Ok u) (hb : u.storeQueue.Has u.storeWBIt b) (hcan : b.canWB = true)
    (hblocked : u.isStoreBlocked = false) (hE : u.NullStalling → E .nullInstruction) : Sat E (WriteBack u) u.storePostSend := by
  rw [storePostSend, store_eq hb]
  refine (unstall_sat hE b.seqNum).bind fun w hw => ?_
  have hok := h.advance hb hcan hblocked
  obtain ⟨hrest, hrecord⟩ := hw
  generalize w.stalled = stalled, w.stallingStoreIsn = isn at hrest hrecord
  subst hrest
  refine ⟨{ hok with }, rfl, rfl, fun hstalled => ?_, fun _ b' hb' => ⟨b', hb', rfl⟩⟩
  grind [eq]

variable {α : Type} {youngest squashedNum : ℕ}

/-- What is behind the head of a queue before `n` entries that leave it. -/
lemma getElem?_takeWhile {q : α → Bool} {l : List α} {x : α} (hk : k < (l.takeWhile q).length)
    (hx : l[k]? = some x) : q x = true := by
  induction l generalizing k with
  | nil => simp at hx
  | cons y l ih =>
    by_cases hy : q y = true
    · grind [takeWhile_cons_of_pos]
    simp_all

/-- A store that has been sent is complete, and leaves the queue with those behind it that are, if it is the
first. -/
lemma StoresRetired.complete {q : CircularQueue StoreEntry n} {wb : ℕ} (hb : q.Has i b) (hlt : i < wb) (hhead : q.head ≤ wb)
    (hnot : ∀ j c, q.Has j c → wb ≤ j → c.completed = false) :
    StoresRetired wb q (retireFront i (q.modify i fun store => { store with completed := true })) := by
  generalize hq1 : (q.modify i fun store => { store with completed := true }) = q1
  replace hq1 := hq1.symm
  unfold retireFront
  have hof {j : ℕ} {c' : StoreEntry} (hc' : q1.Has j c') :
      ∃ c, q.Has j c ∧ c' = { c with completed := c'.completed } ∧ (wb ≤ j → c' = c) := by
    grind [has_modify]
  have hunsent {j : ℕ} {c : StoreEntry} (hc : q.Has j c) (hle : wb ≤ j) : q1.Has j c := by
    rw [hq1]
    exact hc.modify_of_ne (by omega)
  have hlast : q1.last = q.last := by rw [hq1]; exact modify_last ..
  have hhead₁ : q1.head = q.head := by rw [hq1]; rfl
  by_cases hfirst : i = q1.head
  · rw [if_pos hfirst]
    generalize ht : (q1.entries.tail.takeWhile (·.completed)).length = t
    have hpos : 0 < q1.entries.length := by
      have := hb.lt_last
      rw [← hlast] at this
      unfold last at this
      omega
    have hle : t ≤ q1.entries.tail.length := ht ▸ (takeWhile_sublist _).length_le
    rw [length_tail] at hle
    have htop : q1.head + (1 + t) ≤ wb := by
      by_contra hcon
      obtain ⟨c, hc⟩ := exists_has (q := q) (i := wb) hhead (by rw [← hlast]; unfold last; omega)
      have hget := (hunsent hc (le_refl _)).2
      have htail : q1.entries.tail[wb - q1.head - 1]? = some c := by grind
      have hdone := getElem?_takeWhile (q := (·.completed)) (by rw [ht]; omega) htail
      grind
    have hdrop {j : ℕ} {c : StoreEntry} : (q1.dropFront (1 + t)).Has j c ↔ q1.Has j c ∧ q1.head + (1 + t) ≤ j :=
      has_dropFront (by omega)
    refine ⟨(dropFront_last ..).trans hlast, ?_, fun j c' hc' => hof (hdrop.mp hc').1, fun j c hc hle => ?_⟩
    · rw [dropFront_head (by omega)]
      exact htop
    · exact hdrop.mpr ⟨hunsent hc hle, by omega⟩
  · rw [if_neg hfirst]
    exact ⟨hlast, hhead₁ ▸ hhead, fun j c' hc' => hof hc', fun j c hc hle => hunsent hc hle⟩

/-- The store with the number `i` is complete, and `storeWBIt` is behind it. -/
lemma completeStore_sat (h : Ok u) (hb : u.storeQueue.Has i b) (hlt : i < u.storeWBIt) (hE : u.NullStalling → E .nullInstruction) :
    Sat E (fun u' => Ok u' ∧ u'.loadQueue = u.loadQueue ∧ u'.memDepViolator = u.memDepViolator ∧
        u'.storeWBIt = u.storeWBIt ∧ StoresRetired u.storeWBIt u.storeQueue u'.storeQueue ∧
        u'.stallingLoadIdx = u.stallingLoadIdx ∧
        (u'.stalled = true → u.stalled = true ∧ u'.stallingStoreIsn = u.stallingStoreIsn ∧ b.seqNum ≠ u.stallingStoreIsn))
      (u.completeStore i) := by
  have hretired := StoresRetired.complete hb hlt h.storeWBIt_range.1 h.completed_of_le
  rw [completeStore, store_eq hb]
  have hunstall := unstall_sat (E := E) (u := { u with
    storeQueue := retireFront i (u.storeQueue.modify i fun store => { store with completed := true })
    storesToWB := u.storesToWB - 1 }) hE b.seqNum
  refine hunstall.bind fun w hw => ?_
  obtain ⟨hrest, hrecord⟩ := hw
  generalize w.stalled = stalled, w.stallingStoreIsn = isn at hrest hrecord
  subst hrest
  exact ⟨h.retire hretired rfl rfl rfl, rfl, rfl, rfl, hretired, rfl, hrecord⟩

lemma StoresRetired.toStoreInst {wb : ℕ} {q q' : CircularQueue StoreEntry n} (h : StoresRetired wb q q') (hb' : q'.Has j b') :
    ∃ b, q.Has j b ∧ b'.toStoreInst = b.toStoreInst := by grind [StoresRetired.of_has]

lemma completeStore_writeBack (h : Ok u) (hb : u.storeQueue.Has i b) (hlt : i < u.storeWBIt)
    (hE : u.NullStalling → E .nullInstruction) : Sat E (WriteBack u) (u.completeStore i) := by
  refine (completeStore_sat h hb hlt hE).mono fun w hw => ?_
  obtain ⟨hok, hloads, hviolator, hwb, hretired, hidx, hrecord⟩ := hw
  refine ⟨hok, hloads, hviolator, fun hstalled => ?_, fun j c hc => hretired.toStoreInst hc⟩
  grind [StoresRetired.unsent]

section

variable (h : Ok u) (hb : u.storeQueue.Has u.storeWBIt b) (hcan : b.canWB = true)
include h hb hcan

/-- The store at `storeWBIt` is complete without being sent. -/
lemma completeNext_sat (hblocked : u.isStoreBlocked = false) (hE : u.NullStalling → E .nullInstruction) :
    Sat E (WriteBack u) u.completeNext := by
  refine (completeStore_sat (h.advance hb hcan hblocked) hb (lt_succ_self _) hE).mono fun w hw => ?_
  obtain ⟨hok, hloads, hviolator, hwb, hretired, hidx, hrecord⟩ := hw
  refine ⟨hok, hloads, hviolator, fun hstalled => ?_, fun j c hc => hretired.toStoreInst hc⟩
  grind [eq, StoresRetired.unsent]

lemma sendStore_sat (sent : Bool) (hE : u.NullStalling → E .nullInstruction) :
    Sat E (WriteBack u) (u.sendStore sent) := by
  unfold sendStore
  refine .ite (fun _ => ?_) fun _ => { WriteBack.refl h with ok := { h with blocked := fun _ => ⟨b, hb, hcan⟩ } }
  have hok : Ok { u with isStoreBlocked := false } := { h with blocked := nofun }
  exact (storePostSend_sat hok hb hcan rfl hE).mono fun w hw => { hw with }

end

lemma StoreKept.setCommitted (b : StoreEntry) : StoreKept b { b with committed := true } :=
  ⟨rfl, rfl, rfl, rfl, id, fun h hsize => (h hsize).imp fun _ hw => hw.congr ..⟩

lemma WriteBack.of_setStore {f : StoreEntry → StoreEntry} (h : WriteBack (u.setStore k f) u')
    (hf : ∀ b, (f b).toStoreInst = b.toStoreInst) : WriteBack u u' := by
  refine ⟨h.ok, h.loads, h.violator, fun hstalled => ?_, fun j c hc => ?_⟩
  · obtain ⟨hstalled, hisn, hidx, hstore⟩ := h.record hstalled
    refine ⟨hstalled, hisn, hidx, fun j c hc hseq hle hprefetch => ?_⟩
    have hc' : (u.setStore k f).storeQueue.Has j (if j = k then f c else c) := has_modify.mpr ⟨c, hc, rfl⟩
    have hinst : (if j = k then f c else c).toStoreInst = c.toStoreInst := by
      split_ifs
      · exact hf c
      · rfl
    obtain ⟨hle', c', hc'', hinst'⟩ := hstore j _ hc' (by rw [hinst]; exact hseq) hle (by rw [hinst]; exact hprefetch)
    exact ⟨hle', c', hc'', hinst'.trans hinst⟩
  · obtain ⟨c', hc', hinst⟩ := h.prefetch j c hc
    obtain ⟨c'', hc'', rfl⟩ := has_modify.mp hc'
    grind

lemma writebackStore_sat (h : Ok u) (success sent : Bool) (hE : u.NullStalling → E .nullInstruction)
    (hcommitted : E .committed) (hlocal : E .localStoreConditional) : Sat E (WriteBack u) (u.writebackStore success sent) := by
  unfold writebackStore
  refine .ite (fun hrange => ?_) fun _ => .refl h
  obtain ⟨b, hb⟩ := exists_has hrange.2.1 hrange.2.2
  rw [store_eq hb]
  refine .ite (fun hguard => ?_) fun _ => .refl h
  simp only [Bool.and_eq_true] at hguard
  have hcan := hguard.1.1
  have hblocked : u.isStoreBlocked = false := by simpa using hguard.2
  refine .ite (fun _ => completeNext_sat h hb hcan hblocked hE) fun hsize => .ite (fun hprefetch => ?_) fun _ => ?_
  · refine { WriteBack.refl h with ok := h.advance hb hcan hblocked, record := fun hstalled => ?_ }
    grind [eq]
  · obtain ⟨storeReq, hw⟩ := h.written _ b hb hsize
    rw [hw.request_eq]
    refine Sat.bind (Sat.ensure fun _ => hcommitted) fun _ _ => .ite (fun _ => .refl h) fun _ => ?_
    -- The store is marked as committed.
    have hok : Ok (u.setStore u.storeWBIt fun store => { store with committed := true }) := by
      refine h.frame (C := fun _ => False) ⟨.refl .., .modify _ .setCommitted, rfl, rfl⟩ fun j c c' hc hc' hcan => .inl ?_
      obtain ⟨c'', hc'', rfl⟩ := has_modify.mp hc'
      grind [eq]
    have hb' := hb.modify_self fun store => { store with committed := true }
    have hback {x : Except LSQFault (LSQUnit p)}
        (hx : Sat E (WriteBack (u.setStore u.storeWBIt fun store => { store with committed := true })) x) :
        Sat E (WriteBack u) x := hx.mono fun w hw => hw.of_setStore fun _ => rfl
    refine .ite (fun _ => hback (completeNext_sat hok hb' hcan hblocked hE)) fun _ => .ite (fun _ => ?_) fun _ => ?_
    · exact Sat.bind (Sat.ensure fun _ => hlocal) fun _ _ => hback (completeNext_sat hok hb' hcan hblocked hE)
    · exact hback (sendStore_sat hok hb' hcan sent hE)

lemma writebackBlockedStore_sat (h : Ok u) (hblocked : u.isStoreBlocked = true) (sent : Bool)
    (hE : u.NullStalling → E .nullInstruction) : Sat E (WriteBack u) (u.writebackBlockedStore sent) := by
  obtain ⟨b, hb, hcan⟩ := h.blocked hblocked
  exact .of_ensure hblocked (sendStore_sat h hb hcan sent hE)

/-! ### Commit -/

/-- The loads that are committed leave the queue at the front. -/
structure LoadsCommitted (youngest : ℕ) (q q' : CircularQueue LoadEntry n) : Prop where
  last_eq : q'.last = q.last
  head_le : q.head ≤ q'.head
  has_iff : ∀ i a, q'.Has i a ↔ q.Has i a ∧ q'.head ≤ i
  committed : ∀ i a, q.Has i a → i < q'.head → a.seqNum ≤ youngest

lemma LoadsCommitted.dropFront (youngest : ℕ) (q : CircularQueue LoadEntry n) : LoadsCommitted youngest q
      (q.dropFront (q.entries.takeWhile fun load => decide (load.seqNum ≤ youngest)).length) := by
  generalize ht : (q.entries.takeWhile fun load => decide (load.seqNum ≤ youngest)).length = t
  have hle : t ≤ q.entries.length := ht ▸ (takeWhile_sublist _).length_le
  have hhead := dropFront_head hle
  refine ⟨dropFront_last .., by omega, fun i a => ?_, fun i a ha hlt => ?_⟩
  · rw [has_dropFront hle, hhead]
  · have hdone := getElem?_takeWhile (q := fun load : LoadEntry => decide (load.seqNum ≤ youngest))
      (by have := ha.1; rw [ht]; omega) ha.2
    exact of_decide_eq_true hdone

lemma Within.of_has (hl : ∀ i a, u'.loadQueue.Has i a → u.loadQueue.Has i a)
    (hs : ∀ j b, u'.storeQueue.Has j b → u.storeQueue.Has j b) (hwb : u'.storeWBIt = u.storeWBIt) : Within u u' :=
  ⟨fun i a ha => ⟨a, hl i a ha, .refl ..⟩, fun j b hb => ⟨b, hs j b hb, rfl, rfl, id, fun _ => rfl, id, .inl⟩, hwb⟩

lemma Ok.commitLoads (h : Ok u) (hl : LoadsCommitted youngest u.loadQueue u'.loadQueue)
    (hs : u'.storeQueue = u.storeQueue) (hwb : u'.storeWBIt = u.storeWBIt) (hblk : u'.isStoreBlocked = u.isStoreBlocked)
    (hcan : ∀ j b, u.storeQueue.Has j b → b.canWB = false → youngest < b.seqNum) : Ok u' := by
  have hhas (i : ℕ) (a : LoadEntry) (ha : u'.loadQueue.Has i a) : u.loadQueue.Has i a := ((hl.has_iff i a).mp ha).1
  apply h.within (.of_has hhas (by rw [hs]; exact fun _ _ => id) hwb) <;> rw [hs]
  · exact fun i a ha => h.sqIt_le i a (hhas i a ha)
  · rw [hl.last_eq]
    exact h.lqIt_le
  · intro j b hb hc
    -- Otherwise the load at `lqIt`, which is younger than the store, has been committed.
    by_contra hlt
    have hlast : u'.loadQueue.head ≤ u.loadQueue.last := hl.last_eq ▸ Nat.le_add_right ..
    obtain ⟨a, ha⟩ := exists_has (h.head_le_lqIt j b hb hc) (by omega : b.lqIt < u.loadQueue.last)
    have hyounger := h.younger_load _ a j b ha hb (le_refl _)
    have hcommitted := hl.committed _ a ha (by omega)
    have := hcan j b hb hc
    omega
  · rw [hwb]
    exact h.storeWBIt_range
  · rw [hwb, hblk]
    exact h.blocked

/-- What the loop of `commitStores` makes of a store. -/
lemma getElem?_commitStoresLoop (youngest : ℕ) {l : List StoreEntry} (hb : l[k]? = some b) :
    ∃ b', (commitStoresLoop youngest l).1[k]? = some b' ∧
      (b' = b ∨ b' = { b with canWB := true } ∧ b.seqNum ≤ youngest) := by
  induction l generalizing k with
  | nil => simp at hb
  | cons x rest ih =>
    rw [commitStoresLoop]
    cases k with
    | zero => grind
    | succ k =>
      have hb : rest[k]? = some b := by simpa using hb
      grind

/-- The stores up to the youngest one committed can be written back, since they are in program order. -/
lemma canWB_commitStoresLoop {l : List StoreEntry} (hsorted : l.Pairwise fun x y => x.seqNum < y.seqNum)
    (hb' : b' ∈ (commitStoresLoop youngest l).1) (hcan : b'.canWB = false) : youngest < b'.seqNum := by
  induction l with
  | nil => simp [commitStoresLoop] at hb'
  | cons x rest ih =>
    obtain ⟨hx, hrest⟩ := pairwise_cons.mp hsorted
    rw [commitStoresLoop] at hb'
    split_ifs at hb' with hcanx hyoung
    · grind
    · grind
    · grind

lemma Ok.pairwise (h : Ok u) : u.storeQueue.entries.Pairwise fun x y => x.seqNum < y.seqNum := by
  refine pairwise_iff_getElem.mpr fun k k' hk hk' hlt => ?_
  refine h.stores_sorted (u.storeQueue.head + k) _ (u.storeQueue.head + k') _ ⟨by omega, ?_⟩ ⟨by omega, ?_⟩ (by omega)
  · rw [Nat.add_sub_cancel_left, getElem?_eq_getElem hk]
  · rw [Nat.add_sub_cancel_left, getElem?_eq_getElem hk']

lemma commitStores_has (youngest : ℕ) (hb : u.storeQueue.Has j b) :
    ∃ b', (u.commitStores youngest).storeQueue.Has j b' ∧
      (b' = b ∨ b' = { b with canWB := true } ∧ b.seqNum ≤ youngest) := by
  obtain ⟨b', hget, hor⟩ := getElem?_commitStoresLoop youngest hb.2
  exact ⟨b', ⟨hb.1, hget⟩, hor⟩

lemma commitStores_frame (u : LSQUnit p) (youngest : ℕ) : Frame (fun _ => False) u (u.commitStores youngest) := by
  refine ⟨.refl .., ⟨rfl, ?_, fun j b hb => ?_⟩, rfl, rfl⟩
  · simp [commitStores, last, length_commitStoresLoop]
  · obtain ⟨b', hb', rfl | ⟨rfl, -⟩⟩ := commitStores_has youngest hb
    · exact ⟨b', hb', .refl b'⟩
    · exact ⟨_, hb', .setCanWB b⟩

lemma Ok.commitStores (h : Ok u) (hlegal : u.Legal (.commit youngest)) : Ok (u.commitStores youngest) := by
  refine h.frame (commitStores_frame u youngest) fun j b b' hb hb' hcan => ?_
  obtain ⟨b'', hb'', hor⟩ := commitStores_has youngest hb
  obtain rfl := hb'.eq hb''
  rcases hor with rfl | ⟨-, hle⟩
  · exact .inl hcan
  · exact .inr fun i a ha hlt => hlegal a ha.mem (by omega)

lemma Ok.commit (h : Ok u) (hlegal : u.Legal (.commit youngest)) :
    Ok ((u.commitStores youngest).commitLoads youngest) :=
  (h.commitStores hlegal).commitLoads (.dropFront youngest _) rfl rfl rfl fun _ _ hb hcan =>
    canWB_commitStoresLoop h.pairwise hb.mem hcan

/-! ### Squashing -/

/-- Entries leave a queue at the back. -/
structure Squashed {α : Type} (q q' : CircularQueue α n) : Prop where
  head_eq : q'.head = q.head
  last_le : q'.last ≤ q.last
  has_iff : ∀ i a, q'.Has i a ↔ q.Has i a ∧ i < q'.last

lemma Squashed.refl (q : CircularQueue α n) : Squashed q q :=
  ⟨rfl, le_refl _, fun _ _ => ⟨fun h => ⟨h, h.lt_last⟩, And.left⟩⟩

lemma Squashed.trans {q q' q'' : CircularQueue α n} (h : Squashed q q') (h' : Squashed q' q'') : Squashed q q'' := by
  have hlast := h'.last_le
  refine ⟨h'.head_eq.trans h.head_eq, le_trans hlast h.last_le, fun i a => ?_⟩
  rw [h'.has_iff, h.has_iff]
  grind

lemma Squashed.popBack {q : CircularQueue α n} (h : q.entries ≠ []) : Squashed q q.popBack := by
  have hlast := popBack_last h
  refine ⟨rfl, by omega, fun i a => ?_⟩
  grind [has_popBack]

lemma has_getLast? {q : CircularQueue α n} {x : α} (h : q.entries.getLast? = some x) :
    q.entries ≠ [] ∧ q.Has (q.last - 1) x := by
  have hne : q.entries ≠ [] := by
    rintro heq
    simp [heq] at h
  have hpos := length_pos_iff.mpr hne
  refine ⟨hne, by unfold last; omega, ?_⟩
  rw [getLast?_eq_getElem?] at h
  rw [← h]
  congr 1
  unfold last
  omega

/-- What the loop of `squash` over the loads does. The record is taken back if its load is squashed. -/
structure LoadsSquashed (squashedNum : ℕ) (u u' : LSQUnit p) : Prop where
  queue : Squashed u.loadQueue u'.loadQueue
  rest : u' = { u with
    loadQueue := u'.loadQueue
    stalled := u'.stalled
    stallingStoreIsn := u'.stallingStoreIsn
    stallingLoadIdx := u'.stallingLoadIdx }
  squashed : ∀ i a, u.loadQueue.Has i a → u'.loadQueue.last ≤ i → squashedNum < a.seqNum
  stays : ∀ i a, u'.loadQueue.Has i a → a.seqNum ≤ squashedNum
  record : u'.stalled = true → u.stalled = true ∧ SameRecord u u' ∧
    (u.stallingLoadIdx < u.loadQueue.last → u.stallingLoadIdx < u'.loadQueue.last)

lemma squashLoads_spec (squashedNum : ℕ)
    (hsorted : ∀ i a i' a', u.loadQueue.Has i a → u.loadQueue.Has i' a' → i < i' → a.seqNum < a'.seqNum)
    (hn : u.loadQueue.entries.length ≤ n) : LoadsSquashed squashedNum u (u.squashLoads squashedNum n) := by
  induction n generalizing u with
  | zero =>
    have hnone {i : ℕ} {a : LoadEntry} (ha : u.loadQueue.Has i a) : False := by
      have := length_pos_of_mem ha.mem
      omega
    exact ⟨.refl _, rfl, fun i a ha => (hnone ha).elim, fun i a ha => (hnone ha).elim,
      fun h => ⟨h, ⟨rfl, rfl, rfl⟩, id⟩⟩
  | succ n ih =>
    rw [squashLoads]
    cases hlast : u.loadQueue.entries.getLast? with
    | none =>
      have hnil := getLast?_eq_none_iff.mp hlast
      have hnone {i : ℕ} {a : LoadEntry} (ha : u.loadQueue.Has i a) : False := by
        have := ha.mem
        simp [hnil] at this
      exact ⟨.refl _, rfl, fun i a ha => (hnone ha).elim, fun i a ha => (hnone ha).elim,
        fun h => ⟨h, ⟨rfl, rfl, rfl⟩, id⟩⟩
    | some x =>
      obtain ⟨hne, hx⟩ := has_getLast? hlast
      have hpos := length_pos_iff.mpr hne
      by_cases hyoung : squashedNum < x.seqNum
      · simp only [hyoung, if_true]
        -- The unit after the last load has left, whatever becomes of the record.
        have hstep {w : LSQUnit p} (hw : w.loadQueue = u.loadQueue.popBack)
            (hrest : w = { u with
              loadQueue := w.loadQueue
              stalled := w.stalled
              stallingStoreIsn := w.stallingStoreIsn
              stallingLoadIdx := w.stallingLoadIdx })
            (hrecord : w.stalled = true → u.stalled = true ∧ SameRecord u w ∧ u.loadQueue.last ≠ u.stallingLoadIdx + 1) :
            LoadsSquashed squashedNum u (w.squashLoads squashedNum n) := by
          have hpop : Squashed u.loadQueue w.loadQueue := hw ▸ .popBack hne
          have hlen : w.loadQueue.entries.length ≤ n := by grind [popBack]
          have hlastw : w.loadQueue.last + 1 = u.loadQueue.last := hw ▸ popBack_last hne
          have hi := ih (u := w) (fun i a i' a' ha ha' =>
            hsorted i a i' a' ((hpop.has_iff i a).mp ha).1 ((hpop.has_iff i' a').mp ha').1) hlen
          refine ⟨hpop.trans hi.queue, ?_, fun i a ha hle => ?_, hi.stays, fun hstalled => ?_⟩
          · rw [hi.rest, hrest]
          · by_cases hlt : i < w.loadQueue.last
            · exact hi.squashed i a ((hpop.has_iff i a).mpr ⟨ha, hlt⟩) hle
            · have := ha.lt_last
              rw [show i = u.loadQueue.last - 1 by omega] at ha
              rw [ha.eq hx]
              exact hyoung
          · obtain ⟨hstalled, hsame, hkeep⟩ := hi.record hstalled
            obtain ⟨hstalled', hsame', hne'⟩ := hrecord hstalled
            refine ⟨hstalled', ?_, fun hlt => ?_⟩
            · exact ⟨hsame.1.trans hsame'.1, hsame.2.1.trans hsame'.2.1, hsame.2.2.trans hsame'.2.2⟩
            · rw [← hsame'.2.2]
              exact hkeep (by rw [hsame'.2.2]; omega)
        by_cases hcond : (u.stalled && u.loadQueue.last == u.stallingLoadIdx + 1) = true
        · grind
        · rw [if_neg hcond]
          refine hstep rfl rfl fun hstalled => ⟨hstalled, ⟨rfl, rfl, rfl⟩, fun heq => hcond ?_⟩
          simp [show u.stalled = true from hstalled, heq]
      · simp only [hyoung, if_false]
        refine ⟨.refl _, rfl, fun i a ha hle => absurd ha.lt_last (by omega), fun i a ha => ?_,
          fun h => ⟨h, ⟨rfl, rfl, rfl⟩, id⟩⟩
        have hlt := ha.lt_last
        rcases lt_or_eq_of_le (by omega : i ≤ u.loadQueue.last - 1) with hlt | rfl
        · have := hsorted i a _ x ha hx hlt
          omega
        · rw [ha.eq hx]
          omega

/-- What the loop of `squash` over the stores does. It stops at a store that can be written back. -/
structure StoresSquashed (squashedNum : ℕ) (u u' : LSQUnit p) : Prop where
  queue : Squashed u.storeQueue u'.storeQueue
  rest : u' = { u with storeQueue := u'.storeQueue }
  squashed : ∀ j b, u.storeQueue.Has j b → u'.storeQueue.last ≤ j → squashedNum < b.seqNum ∧ b.canWB = false
  stays : ∀ b, u'.storeQueue.Has (u'.storeQueue.last - 1) b → b.seqNum ≤ squashedNum ∨ b.canWB = true

lemma squashStores_sat (hn : u.storeQueue.entries.length ≤ n)
    (hE : u.stalled = true → (∃ j b, u.storeQueue.Has j b ∧ b.seqNum = u.stallingStoreIsn ∧ squashedNum < b.seqNum) →
      E .stillStalled) :
    Sat E (StoresSquashed squashedNum u) (u.squashStores squashedNum n) := by
  induction n generalizing u with
  | zero =>
    have hnone {j : ℕ} {b : StoreEntry} (hb : u.storeQueue.Has j b) : False := by
      have := length_pos_of_mem hb.mem
      omega
    exact ⟨.refl _, rfl, fun j b hb => (hnone hb).elim, fun b hb => (hnone hb).elim⟩
  | succ n ih =>
    rw [squashStores]
    cases hlast : u.storeQueue.entries.getLast? with
    | none =>
      have hnil := getLast?_eq_none_iff.mp hlast
      have hnone {j : ℕ} {b : StoreEntry} (hb : u.storeQueue.Has j b) : False := by
        have := hb.mem
        simp [hnil] at this
      exact ⟨.refl _, rfl, fun j b hb => (hnone hb).elim, fun b hb => (hnone hb).elim⟩
    | some x =>
      obtain ⟨hne, hx⟩ := has_getLast? hlast
      have hpos := length_pos_iff.mpr hne
      refine .ite (fun hcond => ?_) fun hcond => ?_
      · refine Sat.bind (Sat.ensure fun hstill => ?_) fun _ _ => ?_
        · grind
        · have hpop : Squashed u.storeQueue u.storeQueue.popBack := .popBack hne
          have hlastw := popBack_last hne
          have hlen : u.storeQueue.popBack.entries.length ≤ n := by grind [popBack]
          refine (ih (u := { u with storeQueue := u.storeQueue.popBack }) hlen fun hstalled hstore => hE hstalled ?_).mono
            fun w hw => ?_
          · obtain ⟨j, b, hb, hseq⟩ := hstore
            exact ⟨j, b, ((hpop.has_iff j b).mp hb).1, hseq⟩
          · refine ⟨hpop.trans hw.queue, hw.rest, fun j b hb hle => ?_, hw.stays⟩
            by_cases hlt : j < u.storeQueue.popBack.last
            · exact hw.squashed j b ((hpop.has_iff j b).mpr ⟨hb, hlt⟩) hle
            · have := hb.lt_last
              grind [eq]
      · refine ⟨.refl _, rfl, fun j b hb hle => absurd hb.lt_last (by omega), fun b hb => ?_⟩
        grind [eq]

/-- Both queues lose what is younger than `squashedNum`. -/
lemma Ok.squashed {v : LSQUnit p} (h : Ok u) (hlegal : u.Legal (.squash squashedNum))
    (hl : LoadsSquashed squashedNum u v) (hs : StoresSquashed squashedNum u' u'') (hstores : u'.storeQueue = u.storeQueue)
    (hloads : u''.loadQueue = v.loadQueue) (hwb : u''.storeWBIt = u.storeWBIt)
    (hblk : u''.isStoreBlocked = u.isStoreBlocked) : Ok u'' := by
  have hq : Squashed u.storeQueue u''.storeQueue := hstores ▸ hs.queue
  have hgone : ∀ j b, u.storeQueue.Has j b → u''.storeQueue.last ≤ j → squashedNum < b.seqNum ∧ b.canWB = false :=
    hstores ▸ hs.squashed
  have hload (i : ℕ) (a : LoadEntry) (ha : u''.loadQueue.Has i a) : u.loadQueue.Has i a := by
    rw [hloads] at ha
    exact ((hl.queue.has_iff i a).mp ha).1
  have hold {i : ℕ} {a : LoadEntry} (ha : u''.loadQueue.Has i a) : a.seqNum ≤ squashedNum := hl.stays i a (hloads ▸ ha)
  have hstore (j : ℕ) (b : StoreEntry) (hb : u''.storeQueue.Has j b) : u.storeQueue.Has j b := ((hq.has_iff j b).mp hb).1
  have hhead : u.storeQueue.head ≤ u''.storeQueue.last := hq.head_eq ▸ Nat.le_add_right ..
  have hrange := h.storeWBIt_range
  refine h.within (.of_has hload hstore hwb) (fun i a ha => ?_) (fun j b hb => ?_) (fun j b hb => ?_) ⟨?_, ?_⟩ ?_
  · by_contra hlt
    have hle := h.sqIt_le i a (hload i a ha)
    obtain ⟨b, hb⟩ := exists_has hhead (by omega)
    have hyounger := (hgone _ b hb (le_refl _)).1
    have holder := h.older_store i a _ b (hload i a ha) hb (by omega)
    have := hold ha
    omega
  · have hle := h.lqIt_le j b (hstore j b hb)
    rw [hloads]
    -- Otherwise a load older than the store is squashed, and the store is kept behind one that can be written back.
    by_contra hlt
    have hlhead : u.loadQueue.head ≤ v.loadQueue.last := hl.queue.head_eq ▸ Nat.le_add_right ..
    obtain ⟨a, ha⟩ := exists_has hlhead (by omega)
    have hyoung := hl.squashed _ a ha (le_refl _)
    have holder := h.older_load _ a j b ha (hstore j b hb) (by omega)
    have hjlt := hb.lt_last
    obtain ⟨z, hz⟩ := exists_has (q := u''.storeQueue) (i := u''.storeQueue.last - 1)
      (by have := hb.1; omega) (by omega)
    have hbz : b.seqNum ≤ z.seqNum := by
      rcases lt_or_eq_of_le (by omega : j ≤ u''.storeQueue.last - 1) with hjz | rfl
      · exact le_of_lt (h.stores_sorted j b _ z (hstore j b hb) (hstore _ z hz) hjz)
      · exact le_of_eq (by rw [hb.eq hz])
    rcases hs.stays z hz with hle | hcan
    · omega
    · have := hlegal z (hstore _ z hz).mem hcan a ha.mem (by omega)
      omega
  · rw [hloads, hl.queue.head_eq]
    exact h.head_le_lqIt j b (hstore j b hb)
  · rw [hwb, hq.head_eq]
    exact hrange.1
  · rw [hwb]
    by_contra hlt
    obtain ⟨b, hb⟩ := exists_has hhead (by omega)
    grind [Ok.canWB_of_lt]
  grind [Ok.blocked, Squashed.has_iff]

/-- `squash` takes back the record if its load is squashed, before it comes to the stores. -/
lemma squash_sat (h : Ok u) (hlegal : u.Legal (.squash squashedNum))
    (hE : ∀ v, LoadsSquashed squashedNum u v → v.stalled = true →
      (∃ j b, u.storeQueue.Has j b ∧ b.seqNum = v.stallingStoreIsn ∧ squashedNum < b.seqNum) → E .stillStalled) :
    Sat E (fun u' => Ok u' ∧ ∃ v, LoadsSquashed squashedNum u v ∧
        StoresSquashed squashedNum { v with memDepViolator := u'.memDepViolator } u')
      (u.squash squashedNum) := by
  have hl := squashLoads_spec squashedNum h.loads_sorted (le_refl _)
  unfold squash
  generalize u.squashLoads squashedNum u.loadQueue.entries.length = v at hl ⊢
  have hstores : v.storeQueue = u.storeQueue := by rw [hl.rest]
  have hwb : v.storeWBIt = u.storeWBIt := by rw [hl.rest]
  have hblk : v.isStoreBlocked = u.isStoreBlocked := by rw [hl.rest]
  -- Whatever becomes of the violator.
  have hsquash {w : LSQUnit p} (hw : w = { v with memDepViolator := w.memDepViolator }) :
      Sat E (fun u' => Ok u' ∧ ∃ v, LoadsSquashed squashedNum u v ∧
          StoresSquashed squashedNum { v with memDepViolator := u'.memDepViolator } u')
        (w.squashStores squashedNum w.storeQueue.entries.length) := by
    have hwv : w.storeQueue = v.storeQueue := by rw [hw]
    refine (squashStores_sat (le_refl _) fun hstalled hstore => ?_).mono fun u' hu' => ⟨?_, v, hl, ?_⟩
    · grind
    · refine h.squashed hlegal hl hu' (hwv.trans hstores) ?_ ?_ ?_
      · rw [hu'.rest, hw]
      · rw [hu'.rest, hw]
        exact hwb
      · rw [hu'.rest, hw]
        exact hblk
    · have hv : u'.memDepViolator = w.memDepViolator := by rw [hu'.rest]
      rw [hv, ← hw]
      exact hu'
  grind

/-! ### All calls -/

lemma getElem?_snoopLoop (needsTSO : Bool) (hit : LoadEntry → Bool) (force : Bool) {l : List LoadEntry}
    (ha : l[k]? = some a) : ∃ a', (snoopLoop needsTSO hit force l)[k]? = some a' ∧ LoadKept False a a' := by
  induction l generalizing k force with
  | nil => simp at ha
  | cons x rest ih =>
    rw [snoopLoop]
    cases k with
    | zero =>
      obtain rfl : x = a := by simpa using ha
      split_ifs
      · exact ⟨x, rfl, .refl ..⟩
      · refine ⟨_, rfl, ?_⟩
        split_ifs
        · exact .refl ..
        · exact ⟨rfl, rfl, rfl, id, fun _ => ⟨rfl, rfl⟩⟩
      · exact ⟨x, rfl, .refl ..⟩
    | succ k =>
      have ha : rest[k]? = some a := by simpa using ha
      split_ifs <;> simpa using ih _ ha

lemma checkSnoop_loads (hit : LoadEntry → Bool) (u : LSQUnit p) :
    LoadsKept (fun _ => False) u.loadQueue (u.checkSnoop hit).loadQueue := by
  refine ⟨rfl, ?_, fun i a ha => ?_⟩
  · simp only [checkSnoop, last, length_append, length_take, length_snoopLoop, length_drop]
    omega
  · obtain ⟨hhead, hget⟩ := ha
    simp only [checkSnoop, CircularQueue.Has]
    generalize i - u.loadQueue.head = k at hget
    cases hl : u.loadQueue.entries with
    | nil => simp [hl] at hget
    | cons x rest =>
      cases k with
      | zero => simp_all [LoadKept.refl]
      | succ k => simp_all [getElem?_snoopLoop]

lemma LoadKept.writeback (changed : Prop) (hchanged : changed) (a : LoadEntry) :
    LoadKept changed a { a with executed := true, response := .idle } :=
  ⟨rfl, rfl, rfl, fun _ => rfl, fun hnot => absurd hchanged hnot⟩

/-- **Every call keeps the invariant.** -/
lemma Ok.perform {c : Call} (h : Ok u) (hlegal : u.Legal c) (hu' : u.perform c = .ok u') : Ok u' := by
  cases c with
  | insertLoad inst => exact h.insertLoad hlegal hu'
  | insertStore inst => exact h.insertStore hlegal hu'
  | executeLoad i acc =>
    obtain ⟨a, -, ha, -⟩ := hlegal
    have hstep := (executeLoad_sat (E := fun _ => True) h ha acc fun _ => trivial).of_ok hu'
    exact h.frame_of_eq ⟨hstep.loads, by rw [hstep.rest]; exact .refl _, by rw [hstep.rest], by rw [hstep.rest]⟩
      (by rw [hstep.rest])
  | executeStore j acc =>
    obtain ⟨⟨b, -, hb, hcan, hkind⟩, hsize⟩ := hlegal
    have hsat : Sat (fun _ => True) (StoreStep u j b) (u.executeStore j acc) :=
      executeStore_sat h hb hcan acc (fun storeReq hacc => by rw [hacc] at hsize; exact hsize) trivial
    have hstep := hsat.of_ok hu'
    refine h.frame hstep.frame fun k c c' hc hc' hcan' => (hstep.canWB k c c' hc hc' hcan').imp_right fun ⟨hk, hsc⟩ => ?_
    subst hk
    rw [hc.eq hb]
    exact fun i a ha => hkind hsc a ha.mem
  | writeback i =>
    cases hu'
    exact h.frame_of_eq ⟨.modify _ (.writeback _ (rfl : i = i)), .refl _, rfl, rfl⟩ rfl
  | setAtCommit i =>
    cases hu'
    exact h.frame_of_eq (C := fun _ => False) ⟨.modify _ fun a => ⟨rfl, rfl, rfl, id, fun _ => ⟨rfl, rfl⟩⟩, .refl _, rfl, rfl⟩ rfl
  | checkSnoop hit =>
    cases hu'
    exact h.frame_of_eq ⟨checkSnoop_loads hit u, .refl _, rfl, rfl⟩ rfl
  | commit youngest =>
    cases hu'
    exact h.commit hlegal
  | writebackStore success sent =>
    exact ((writebackStore_sat (E := fun _ => True) h success sent (fun _ => trivial) trivial trivial).of_ok hu').ok
  | writebackBlockedStore sent => exact ((writebackBlockedStore_sat (E := fun _ => True) h hlegal sent fun _ => trivial).of_ok hu').ok
  | completeStore i =>
    obtain ⟨hlt, b, -, hb, -⟩ := hlegal
    exact ((completeStore_writeBack (E := fun _ => True) h hb hlt fun _ => trivial).of_ok hu').ok
  | squash squashedNum => exact ((squash_sat (E := fun _ => True) h hlegal fun _ _ _ _ => trivial).of_ok hu').1
  | getMemDepViolator =>
    cases hu'
    exact { h with }

lemma Reachable.ok {Q : LSQUnit p → Call → Prop} (h : Reachable p Q u) : Ok u := by
  induction h with
  | start => exact .start
  | step _ hlegal _ hcall ih => exact ih.perform hlegal hcall

end LSQUnit

end Gem5.O3
