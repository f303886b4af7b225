import Gem5.Cpu.O3.LSQUnit

/-!
# Runs of the load/store queue

The invariant `Ok` of the queues: both are in program order, the position `sqIt` that a load has taken when it was
inserted divides the stores into older and younger ones, the position `lqIt` of a store does the same for the loads, and
a load that has not been executed is not older than a store that has been sent. Most calls keep the
entries of both queues up to their data (`Frame`), and the invariant with them
(`Ok.frame`). This module has the calls that execute instructions; `LSQUnitRetire` has those that move an end of a
queue or `storeWBIt`.
-/

namespace Gem5.O3

open Lib CircularQueue CircularQueue.Has

namespace LSQUnit

variable {p : LSQParams} {u u' u'' : LSQUnit p} {i j k n : ℕ} {a a' : LoadEntry} {b b' : StoreEntry}

/-! ### The invariant -/

/-- A store with data: its address and its request. -/
structure Written (b : StoreEntry) (request : StoreRequest) : Prop where
  request_eq : b.request = some request
  effAddrValid : b.effAddrValid = true
  effAddr : b.effAddr = request.vaddr
  effSize : b.effSize = request.size
  size : b.size = request.size
  strictlyOrdered : b.strictlyOrdered = request.isStrictlyOrdered
  isAllZeros : b.isAllZeros = request.storeNoData
  data : request.storeNoData = false → b.isAtomic = false → b.data = request.data

structure Ok (u : LSQUnit p) : Prop where
  loads_sorted : ∀ i a i' a', u.loadQueue.Has i a → u.loadQueue.Has i' a' → i < i' → a.seqNum < a'.seqNum
  stores_sorted : ∀ j b j' b', u.storeQueue.Has j b → u.storeQueue.Has j' b' → j < j' → b.seqNum < b'.seqNum
  /-- The stores before `sqIt` of a load are older, those from there on are younger. -/
  older_store : ∀ i a j b, u.loadQueue.Has i a → u.storeQueue.Has j b → j < a.sqIt → b.seqNum < a.seqNum
  younger_store : ∀ i a j b, u.loadQueue.Has i a → u.storeQueue.Has j b → a.sqIt ≤ j → a.seqNum < b.seqNum
  sqIt_le : ∀ i a, u.loadQueue.Has i a → a.sqIt ≤ u.storeQueue.last
  /-- The loads before `lqIt` of a store are older, those from there on are younger. -/
  older_load : ∀ i a j b, u.loadQueue.Has i a → u.storeQueue.Has j b → i < b.lqIt → a.seqNum < b.seqNum
  younger_load : ∀ i a j b, u.loadQueue.Has i a → u.storeQueue.Has j b → b.lqIt ≤ i → b.seqNum < a.seqNum
  lqIt_le : ∀ j b, u.storeQueue.Has j b → b.lqIt ≤ u.loadQueue.last
  /-- No load younger than a store that cannot be written back has been committed. -/
  head_le_lqIt : ∀ j b, u.storeQueue.Has j b → b.canWB = false → u.loadQueue.head ≤ b.lqIt
  storeWBIt_range : u.storeQueue.head ≤ u.storeWBIt ∧ u.storeWBIt ≤ u.storeQueue.last
  canWB_of_lt : ∀ j b, u.storeQueue.Has j b → j < u.storeWBIt → b.canWB = true
  completed_of_le : ∀ j b, u.storeQueue.Has j b → u.storeWBIt ≤ j → b.completed = false
  /-- A load older than a store that can be written back has been executed. -/
  executed : ∀ i a j b, u.loadQueue.Has i a → u.storeQueue.Has j b → b.canWB = true → a.seqNum < b.seqNum → a.executed = true
  /-- The stores that a load which has not been executed has to look at have not been sent. -/
  storeWBIt_le : ∀ i a, u.loadQueue.Has i a → a.executed = false → u.storeWBIt ≤ a.sqIt
  written : ∀ j b, u.storeQueue.Has j b → b.size ≠ 0 → ∃ request, Written b request
  blocked : u.isStoreBlocked = true → ∃ b, u.storeQueue.Has u.storeWBIt b ∧ b.canWB = true

lemma Ok.start : Ok ({} : LSQUnit p) := by
  constructor <;> simp [not_has_empty, last]

/-! ### Calls that keep the entries -/

/-- A load keeps its place. It may be executed, or be answered, only if `changed`. -/
structure LoadKept (changed : Prop) (a a' : LoadEntry) : Prop where
  seqNum : a'.seqNum = a.seqNum
  sqIt : a'.sqIt = a.sqIt
  isDataPrefetch : a'.isDataPrefetch = a.isDataPrefetch
  executed : a.executed = true → a'.executed = true
  same : ¬ changed → a'.executed = a.executed ∧ a'.response = a.response

/-- A store keeps its place, and what the invariant says of it. -/
structure StoreKept (b b' : StoreEntry) : Prop where
  seqNum : b'.seqNum = b.seqNum
  lqIt : b'.lqIt = b.lqIt
  completed : b'.completed = b.completed
  isDataPrefetch : b'.isDataPrefetch = b.isDataPrefetch
  canWB : b.canWB = true → b'.canWB = true
  written : (b.size ≠ 0 → ∃ request, Written b request) → b'.size ≠ 0 → ∃ request, Written b' request

/-- The loads stay where they are. Only those in `C` may be executed, or be answered. -/
structure LoadsKept (C : ℕ → Prop) (q q' : CircularQueue LoadEntry n) : Prop where
  head_eq : q'.head = q.head
  last_eq : q'.last = q.last
  kept : ∀ i a, q.Has i a → ∃ a', q'.Has i a' ∧ LoadKept (C i) a a'

structure StoresKept (q q' : CircularQueue StoreEntry n) : Prop where
  head_eq : q'.head = q.head
  last_eq : q'.last = q.last
  kept : ∀ j b, q.Has j b → ∃ b', q'.Has j b' ∧ StoreKept b b'

/-- Both queues and `storeWBIt` are kept. -/
structure Frame (C : ℕ → Prop) (u u' : LSQUnit p) : Prop where
  loads : LoadsKept C u.loadQueue u'.loadQueue
  stores : StoresKept u.storeQueue u'.storeQueue
  storeWBIt : u'.storeWBIt = u.storeWBIt
  isStoreBlocked : u'.isStoreBlocked = u.isStoreBlocked

section Kept

variable {C D : ℕ → Prop} {lq lq' lq'' : CircularQueue LoadEntry n} {sq sq' sq'' : CircularQueue StoreEntry n}

lemma LoadKept.refl (changed : Prop) (a : LoadEntry) : LoadKept changed a a := ⟨rfl, rfl, rfl, id, fun _ => ⟨rfl, rfl⟩⟩

lemma StoreKept.refl (b : StoreEntry) : StoreKept b b := ⟨rfl, rfl, rfl, rfl, id, id⟩

lemma StoreKept.canWB_eq_false (h : StoreKept b b') (hb' : b'.canWB = false) : b.canWB = false := by
  grind [StoreKept.canWB]

lemma LoadKept.executed_eq_false {changed : Prop} (h : LoadKept changed a a') (ha' : a'.executed = false) :
    a.executed = false := by grind [LoadKept.executed]

lemma LoadsKept.refl (C : ℕ → Prop) (q : CircularQueue LoadEntry n) : LoadsKept C q q :=
  ⟨rfl, rfl, fun _ a h => ⟨a, h, .refl ..⟩⟩

lemma LoadsKept.trans (h : LoadsKept C lq lq') (h' : LoadsKept C lq' lq'') : LoadsKept C lq lq'' := by
  refine ⟨h'.head_eq.trans h.head_eq, h'.last_eq.trans h.last_eq, fun i a ha => ?_⟩
  obtain ⟨a', ha', hk⟩ := h.kept i a ha
  obtain ⟨a'', ha'', hk'⟩ := h'.kept i a' ha'
  refine ⟨a'', ha'', hk'.seqNum.trans hk.seqNum, hk'.sqIt.trans hk.sqIt, hk'.isDataPrefetch.trans hk.isDataPrefetch,
    hk'.executed ∘ hk.executed, fun hi => ?_⟩
  exact ⟨(hk'.same hi).1.trans (hk.same hi).1, (hk'.same hi).2.trans (hk.same hi).2⟩

lemma LoadsKept.weaken (h : LoadsKept C lq lq') (hCD : ∀ i, C i → D i) : LoadsKept D lq lq' := by
  refine ⟨h.head_eq, h.last_eq, fun i a ha => ?_⟩
  obtain ⟨a', ha', hk⟩ := h.kept i a ha
  exact ⟨a', ha', hk.seqNum, hk.sqIt, hk.isDataPrefetch, hk.executed, fun hnot => hk.same (hnot ∘ hCD i)⟩

lemma LoadsKept.of_has (h : LoadsKept C lq lq') (ha' : lq'.Has i a') : ∃ a, lq.Has i a ∧ LoadKept (C i) a a' := by
  obtain ⟨a, ha⟩ := exists_has (h.head_eq ▸ ha'.1) (h.last_eq ▸ ha'.lt_last)
  grind [LoadsKept.kept, eq]

lemma LoadsKept.modify (lq : CircularQueue LoadEntry n) {f : LoadEntry → LoadEntry} (hf : ∀ a, LoadKept (C i) a (f a)) :
    LoadsKept C lq (lq.modify i f) := by
  refine ⟨rfl, modify_last .., fun j a ha => ?_⟩
  by_cases hji : j = i
  · subst hji
    exact ⟨f a, ha.modify_self f, hf a⟩
  · exact ⟨a, ha.modify_of_ne hji, .refl ..⟩

lemma StoresKept.refl (q : CircularQueue StoreEntry n) : StoresKept q q := ⟨rfl, rfl, fun _ b h => ⟨b, h, .refl b⟩⟩

lemma StoresKept.trans (h : StoresKept sq sq') (h' : StoresKept sq' sq'') : StoresKept sq sq'' := by
  refine ⟨h'.head_eq.trans h.head_eq, h'.last_eq.trans h.last_eq, fun j b hb => ?_⟩
  obtain ⟨b', hb', hk⟩ := h.kept j b hb
  obtain ⟨b'', hb'', hk'⟩ := h'.kept j b' hb'
  exact ⟨b'', hb'', hk'.seqNum.trans hk.seqNum, hk'.lqIt.trans hk.lqIt, hk'.completed.trans hk.completed,
    hk'.isDataPrefetch.trans hk.isDataPrefetch, hk'.canWB ∘ hk.canWB, hk'.written ∘ hk.written⟩

lemma StoresKept.of_has (h : StoresKept sq sq') (hb' : sq'.Has j b') : ∃ b, sq.Has j b ∧ StoreKept b b' := by
  obtain ⟨b, hb⟩ := exists_has (h.head_eq ▸ hb'.1) (h.last_eq ▸ hb'.lt_last)
  grind [StoresKept.kept, eq]

lemma StoresKept.modify (sq : CircularQueue StoreEntry n) {f : StoreEntry → StoreEntry} (hf : ∀ b, StoreKept b (f b)) :
    StoresKept sq (sq.modify j f) := by
  refine ⟨rfl, modify_last .., fun k b hb => ?_⟩
  by_cases hkj : k = j
  · subst hkj
    exact ⟨f b, hb.modify_self f, hf b⟩
  · exact ⟨b, hb.modify_of_ne hkj, .refl b⟩

lemma Frame.refl (C : ℕ → Prop) (u : LSQUnit p) : Frame C u u := ⟨.refl .., .refl .., rfl, rfl⟩

lemma Frame.trans (h : Frame C u u') (h' : Frame C u' u'') : Frame C u u'' :=
  ⟨h.loads.trans h'.loads, h.stores.trans h'.stores, h'.storeWBIt.trans h.storeWBIt,
    h'.isStoreBlocked.trans h.isStoreBlocked⟩

/-- What a call leaves in the queues was there before, up to its data. A store that it allows to be written back is
younger than executed loads only. -/
structure Within (u u' : LSQUnit p) : Prop where
  load : ∀ i a', u'.loadQueue.Has i a' → ∃ a, u.loadQueue.Has i a ∧ LoadKept True a a'
  store : ∀ j b', u'.storeQueue.Has j b' → ∃ b, u.storeQueue.Has j b ∧ b'.seqNum = b.seqNum ∧ b'.lqIt = b.lqIt ∧
    (b.canWB = true → b'.canWB = true) ∧ (u.storeWBIt ≤ j → b'.completed = b.completed) ∧
    ((b.size ≠ 0 → ∃ request, Written b request) → b'.size ≠ 0 → ∃ request, Written b' request) ∧
    (b'.canWB = true → b.canWB = true ∨ ∀ i a, u.loadQueue.Has i a → a.seqNum < b.seqNum → a.executed = true)
  storeWBIt : u'.storeWBIt = u.storeWBIt

/-- Such a call keeps the invariant, if it keeps what the invariant says about the ends of the queues. -/
lemma Ok.within (h : Ok u) (hw : Within u u') (hsq : ∀ i a, u'.loadQueue.Has i a → a.sqIt ≤ u'.storeQueue.last)
    (hlq : ∀ j b, u'.storeQueue.Has j b → b.lqIt ≤ u'.loadQueue.last)
    (hhead : ∀ j b, u'.storeQueue.Has j b → b.canWB = false → u'.loadQueue.head ≤ b.lqIt)
    (hrange : u'.storeQueue.head ≤ u'.storeWBIt ∧ u'.storeWBIt ≤ u'.storeQueue.last)
    (hblocked : u'.isStoreBlocked = true → ∃ b, u'.storeQueue.Has u'.storeWBIt b ∧ b.canWB = true) : Ok u' := by
  constructor
  case loads_sorted =>
    intro i a' j b' ha hb hij
    obtain ⟨a, ha, hka⟩ := hw.load i a' ha
    obtain ⟨b, hb, hkb⟩ := hw.load j b' hb
    rw [hka.seqNum, hkb.seqNum]
    exact h.loads_sorted i a j b ha hb hij
  case stores_sorted =>
    intro i a' j b' ha hb hij
    obtain ⟨a, ha, hseq, -⟩ := hw.store i a' ha
    obtain ⟨b, hb, hseq', -⟩ := hw.store j b' hb
    rw [hseq, hseq']
    exact h.stores_sorted i a j b ha hb hij
  case older_store =>
    intro i a' j b' ha hb hlt
    obtain ⟨a, ha, hka⟩ := hw.load i a' ha
    obtain ⟨b, hb, hseq, -⟩ := hw.store j b' hb
    rw [hka.seqNum, hseq]
    exact h.older_store i a j b ha hb (hka.sqIt ▸ hlt)
  case younger_store =>
    intro i a' j b' ha hb hle
    obtain ⟨a, ha, hka⟩ := hw.load i a' ha
    obtain ⟨b, hb, hseq, -⟩ := hw.store j b' hb
    rw [hka.seqNum, hseq]
    exact h.younger_store i a j b ha hb (hka.sqIt ▸ hle)
  case older_load =>
    intro i a' j b' ha hb hlt
    obtain ⟨a, ha, hka⟩ := hw.load i a' ha
    obtain ⟨b, hb, hseq, hit, -⟩ := hw.store j b' hb
    rw [hka.seqNum, hseq]
    exact h.older_load i a j b ha hb (hit ▸ hlt)
  case younger_load =>
    intro i a' j b' ha hb hle
    obtain ⟨a, ha, hka⟩ := hw.load i a' ha
    obtain ⟨b, hb, hseq, hit, -⟩ := hw.store j b' hb
    rw [hka.seqNum, hseq]
    exact h.younger_load i a j b ha hb (hit ▸ hle)
  case canWB_of_lt => grind [Within.store, Ok.canWB_of_lt, Within.storeWBIt]
  case completed_of_le => grind [Within.storeWBIt, Within.store, Ok.completed_of_le]
  case executed =>
    intro i a' j b' ha hb hc hlt
    obtain ⟨a, ha, hka⟩ := hw.load i a' ha
    obtain ⟨b, hb, hseq, -, -, -, -, hcan⟩ := hw.store j b' hb
    grind [LoadKept.seqNum, LoadKept.executed, Ok.executed]
  case storeWBIt_le =>
    intro i a' ha hex
    obtain ⟨a, ha, hka⟩ := hw.load i a' ha
    rw [hw.storeWBIt, hka.sqIt]
    exact h.storeWBIt_le i a ha (hka.executed_eq_false hex)
  case written => grind [Within.store, Ok.written]
  case sqIt_le => exact hsq
  case lqIt_le => exact hlq
  case head_le_lqIt => exact hhead
  case storeWBIt_range => exact hrange
  case blocked => exact hblocked

lemma LoadKept.weaken {changed : Prop} (h : LoadKept changed a a') : LoadKept True a a' :=
  ⟨h.seqNum, h.sqIt, h.isDataPrefetch, h.executed, fun hnot => absurd trivial hnot⟩

/-- A call that keeps the entries keeps the invariant, if the stores that it allows to be written back are younger than
executed loads only. -/
lemma Ok.frame (h : Ok u) (hf : Frame C u u')
    (hcan : ∀ j b b', u.storeQueue.Has j b → u'.storeQueue.Has j b' → b'.canWB = true → b.canWB = true ∨
      ∀ i a, u.loadQueue.Has i a → a.seqNum < b.seqNum → a.executed = true) : Ok u' := by
  have hl {i : ℕ} {a' : LoadEntry} (ha' : u'.loadQueue.Has i a') := hf.loads.of_has ha'
  have hs {j : ℕ} {b' : StoreEntry} (hb' : u'.storeQueue.Has j b') := hf.stores.of_has hb'
  refine h.within ⟨fun i a' ha' => ?_, fun j b' hb' => ?_, hf.storeWBIt⟩ (fun i a' ha' => ?_) (fun j b' hb' => ?_)
    (fun j b' hb' hc => ?_) ?_ fun hblocked => ?_
  · grind [LoadKept.weaken]
  · obtain ⟨b, hb, hk⟩ := hs hb'
    exact ⟨b, hb, hk.seqNum, hk.lqIt, hk.canWB, fun _ => hk.completed, hk.written, hcan j b b' hb hb'⟩
  · obtain ⟨a, ha, hk⟩ := hl ha'
    rw [hk.sqIt, hf.stores.last_eq]
    exact h.sqIt_le i a ha
  · obtain ⟨b, hb, hk⟩ := hs hb'
    rw [hk.lqIt, hf.loads.last_eq]
    exact h.lqIt_le j b hb
  · obtain ⟨b, hb, hk⟩ := hs hb'
    rw [hk.lqIt, hf.loads.head_eq]
    exact h.head_le_lqIt j b hb (hk.canWB_eq_false hc)
  · rw [hf.stores.head_eq, hf.stores.last_eq, hf.storeWBIt]
    exact h.storeWBIt_range
  · rw [hf.isStoreBlocked] at hblocked
    obtain ⟨b, hb, hc⟩ := h.blocked hblocked
    obtain ⟨b', hb', hk⟩ := hf.stores.kept _ b hb
    exact ⟨b', hf.storeWBIt ▸ hb', hk.canWB hc⟩

lemma Ok.frame_of_eq (h : Ok u) (hf : Frame C u u') (hs : u'.storeQueue = u.storeQueue) : Ok u' := by
  grind [Ok.frame, eq]

lemma Ok.setLoad (h : Ok u) {f : LoadEntry → LoadEntry} (hf : ∀ a, LoadKept (i = i) a (f a)) : Ok (u.setLoad i f) := by
  have hset : LoadsKept (· = i) u.loadQueue (u.setLoad i f).loadQueue := .modify _ hf
  exact h.frame_of_eq ⟨hset, .refl _, rfl, rfl⟩ rfl

end Kept

/-! ### What the calls do -/

variable {E : LSQFault → Prop} {request : Request} {result : ReadResult}

lemma load_eq (h : u.loadQueue.Has i a) : u.load i = .ok a := by
  rw [load, h.slot]

lemma store_eq (h : u.storeQueue.Has j b) : u.store j = .ok b := by
  rw [store, h.slot]

/-- The record of a stalled load is that of a cleared entry. -/
def NullStalling (u : LSQUnit p) : Prop := u.stalled = true ∧ u.loadQueue.slot u.stallingLoadIdx = none

/-- What `checkViolations` can change. -/
structure Checked (u u' : LSQUnit p) : Prop where
  loads : LoadsKept (fun _ => False) u.loadQueue u'.loadQueue
  rest : u' = { u with loadQueue := u'.loadQueue, memDepViolator := u'.memDepViolator }
  violator : ∀ v, u.memDepViolator = some v → ∃ v', u'.memDepViolator = some v' ∧ v'.seqNum ≤ v.seqNum

lemma Checked.refl (u : LSQUnit p) : Checked u u := ⟨.refl .., rfl, fun v hv => ⟨v, hv, Nat.le_refl _⟩⟩

lemma Checked.trans (h : Checked u u') (h' : Checked u' u'') : Checked u u'' := by
  refine ⟨h.loads.trans h'.loads, ?_, fun v hv => ?_⟩
  · rw [h'.rest, h.rest]
  grind [Checked.violator]

section

variable {isLoad : Bool} {g : ℕ × ℕ} (hhead : u.loadQueue.head ≤ i)
include hhead

lemma checkViolationsLoop_sat (hn : i + n = u.loadQueue.last) :
    Sat E (Checked u) (checkViolationsLoop isLoad g n i u) := by
  induction n generalizing i u with
  | zero => exact .refl u
  | succ n ih =>
    obtain ⟨ld, hld⟩ := exists_has hhead (by omega)
    rw [checkViolationsLoop, load_eq hld]
    -- The loads behind this one, after a change of this one that keeps its place.
    have hrest {w : LSQUnit p} (hw : Checked u w) : Sat E (Checked u) (checkViolationsLoop isLoad g n (i + 1) w) :=
      (ih (by rw [hw.loads.head_eq]; omega) (by rw [hw.loads.last_eq]; omega)).mono fun _ h => hw.trans h
    refine .ite (fun _ => hrest (.refl u)) fun _ => .ite (fun _ => ?_) fun _ => hrest (.refl u)
    refine .ite (fun _ => .ite (fun hsnoop => ?_) fun _ => hrest ⟨?_, rfl, ?_⟩) fun _ => .ite (fun _ => .refl u) fun hany => ?_
    · refine ⟨.refl .., rfl, fun v hv => ⟨ld, rfl, ?_⟩⟩
      grind
    · exact .modify _ fun ld => ⟨rfl, rfl, rfl, id, fun _ => ⟨rfl, rfl⟩⟩
    · exact fun v hv => ⟨v, hv, Nat.le_refl _⟩
    · refine ⟨.refl .., rfl, fun v hv => ⟨ld, rfl, ?_⟩⟩
      simp_all

lemma checkViolations_sat (hlast : i ≤ u.loadQueue.last) : Sat E (Checked u) (u.checkViolations isLoad g i) := by
  refine .of_ensure (decide_eq_true hlast) ?_
  exact checkViolationsLoop_sat hhead (by omega)

end

/-! ### Loads -/

/-- The store has data that `read` looks at. -/
structure Considered (b : StoreEntry) (storeReq : StoreRequest) : Prop where
  size : b.size ≠ 0
  strictlyOrdered : b.strictlyOrdered = false
  request : b.request = some storeReq
  isCacheMaintenance : storeReq.isCacheMaintenance = false

/-- The youngest store before the position `top` that covers bytes of the load and has not been sent. -/
structure Youngest (u : LSQUnit p) (request : Request) (top j : ℕ) (b : StoreEntry) (storeReq : StoreRequest) : Prop where
  has : u.storeQueue.Has j b
  unsent : u.storeWBIt ≤ j
  lt_top : j < top
  considered : Considered b storeReq
  covers : coverage request b storeReq ≠ .noAddrRangeCoverage
  youngest : ∀ j' b' req', u.storeQueue.Has j' b' → j < j' → j' < top → Considered b' req' →
    coverage request b' req' = .noAddrRangeCoverage

/-- What the search of `read` finds among the stores before the position `top`. -/
def Found (u : LSQUnit p) (request : Request) (top : ℕ) : Option (StoreEntry × AddrRangeCoverage) → Prop
  | none => ∀ j b storeReq, u.storeQueue.Has j b → u.storeWBIt ≤ j → j < top → Considered b storeReq →
      coverage request b storeReq = .noAddrRangeCoverage
  | some (b, cover) => ∃ j storeReq, Youngest u request top j b storeReq ∧ coverage request b storeReq = cover

variable {top : ℕ} {f : LoadEntry → LoadEntry} {storeReq : StoreRequest}

lemma Found.succ {r : Option (StoreEntry × AddrRangeCoverage)} (h : Found u request top r)
    (hb : u.storeQueue.Has top b)
    (hnot : ∀ storeReq, Considered b storeReq → coverage request b storeReq = .noAddrRangeCoverage) :
    Found u request (top + 1) r := by
  cases r with
  | none =>
    intro j b' storeReq hb' hle hlt hcon
    rcases Nat.lt_succ_iff_lt_or_eq.mp hlt with hlt | rfl
    · exact h j b' storeReq hb' hle hlt hcon
    grind [eq]
  | some r =>
    obtain ⟨j, storeReq, hy, hcover⟩ := h
    refine ⟨j, storeReq, ⟨hy.has, hy.unsent, Nat.lt_succ_of_lt hy.lt_top, hy.considered, hy.covers, ?_⟩, hcover⟩
    grind [Youngest.youngest, eq]

lemma findStore_sat (h : Ok u) (ha : u.loadQueue.Has i a) (hn : u.storeWBIt + n ≤ a.sqIt) :
    Sat E (Found u request (u.storeWBIt + n)) (findStore request a u n) := by
  induction n with
  | zero => exact fun j b _ _ hle hlt _ => absurd hlt (by omega)
  | succ n ih =>
    have hlast := h.sqIt_le i a ha
    have hrange := h.storeWBIt_range
    obtain ⟨b, hb⟩ := exists_has (q := u.storeQueue) (i := u.storeWBIt + n) (by omega) (by omega)
    have hrest (hnot : ∀ storeReq, Considered b storeReq → coverage request b storeReq = .noAddrRangeCoverage) :
        Sat E (Found u request (u.storeWBIt + (n + 1))) (findStore request a u n) :=
      (ih (by omega)).mono fun r hr => hr.succ hb hnot
    rw [findStore, store_eq hb]
    refine .of_ensure (decide_eq_true (h.older_store i a _ b ha hb (by omega))) ?_
    refine .ite (fun hdata => ?_) fun hdata => hrest fun storeReq hcon => absurd ?_ hdata
    · simp only [Bool.and_eq_true, bne_iff_ne, ne_eq, Bool.not_eq_true'] at hdata
      obtain ⟨req, hw⟩ := h.written _ b hb hdata.1
      rw [hw.request_eq]
      refine .ite (fun hmaint => hrest fun storeReq hcon => ?_) fun hmaint => .of_ensure hw.effAddrValid ?_
      · obtain rfl : req = storeReq := Option.some.inj (hw.request_eq.symm.trans hcon.request)
        rw [hcon.isCacheMaintenance] at hmaint
        cases hmaint
      · have hcon : Considered b req := ⟨hdata.1, hdata.2, hw.request_eq, by simpa using hmaint⟩
        have hfound {cover : AddrRangeCoverage} (hcover : coverage request b req = cover) (hne : cover ≠ .noAddrRangeCoverage) :
            Found u request (u.storeWBIt + (n + 1)) (some (b, cover)) := by
          refine ⟨_, req, ⟨hb, by omega, by omega, hcon, hcover ▸ hne, ?_⟩, hcover⟩
          intro j' b' req' _ hlt htop
          omega
        cases hcover : coverage request b req with
        | partialAddrRangeCoverage => exact hfound hcover nofun
        | fullAddrRangeCoverage => exact hfound hcover nofun
        | noAddrRangeCoverage =>
          refine hrest fun storeReq hcon' => ?_
          rw [← Option.some.inj (hw.request_eq.symm.trans hcon'.request)]
          exact hcover
    · simp [hcon.size, hcon.strictlyOrdered]

/-- What is under way for a load after `read`. -/
def responseOf : ReadResult → Response
  | .strictlyOrdered => .idle
  | .localAccess => .scheduled
  | .forward _ => .scheduled
  | .reschedule => .idle
  | .memory => .inFlight

/-- What `read` makes of what it has found. -/
def resultOf (request : Request) : Option (StoreEntry × AddrRangeCoverage) → ReadResult
  | some (store, .fullAddrRangeCoverage) => .forward (forwarded request store)
  | some _ => .reschedule
  | none => .memory

/-- The position before which `read` looks for stores. -/
def searchTop (u : LSQUnit p) (a : LoadEntry) : ℕ := if a.isDataPrefetch then u.storeWBIt else a.sqIt

/-- The record of the stalled load is the same. -/
def SameRecord (u u' : LSQUnit p) : Prop :=
  u'.stalled = u.stalled ∧ u'.stallingStoreIsn = u.stallingStoreIsn ∧ u'.stallingLoadIdx = u.stallingLoadIdx

/-- The load `a` with the number `i` has to wait: it is recorded with the store, unless another load is recorded
that is not younger. -/
def Stalls (u : LSQUnit p) (i : ℕ) (a : LoadEntry) (b : StoreEntry) (u' : LSQUnit p) : Prop :=
  (u.stalled = true ∧ SameRecord u u' ∧ ∃ c, u.loadQueue.slot u.stallingLoadIdx = some c ∧ c.seqNum ≤ a.seqNum) ∨
    (u'.stalled = true ∧ u'.stallingStoreIsn = b.seqNum ∧ u'.stallingLoadIdx = i) ∧ ¬ u.NullStalling

/-- What `read` of a load that has not been executed does. -/
structure ReadStep (u : LSQUnit p) (i : ℕ) (a : LoadEntry) (request : Request) (result : ReadResult) (u' : LSQUnit p) :
    Prop where
  loads : LoadsKept (· = i) u.loadQueue u'.loadQueue
  rest : u' = { u with
    loadQueue := u'.loadQueue
    stalled := u'.stalled
    stallingStoreIsn := u'.stallingStoreIsn
    stallingLoadIdx := u'.stallingLoadIdx }
  entry : ∃ a', u'.loadQueue.Has i a' ∧ a'.executed = false ∧ a'.response = responseOf result ∧
    (result = .reschedule → a'.effAddrValid = false)
  found : request.isStrictlyOrdered = false → request.isLocalAccess = false →
    ∃ r, Found u request (u.searchTop a) r ∧ result = resultOf request r
  same : result ≠ .reschedule → SameRecord u u'
  stalls : result = .reschedule → ∃ j b storeReq, Youngest u request (u.searchTop a) j b storeReq ∧ Stalls u i a b u'

lemma exists_found (h : Ok u) (ha : u.loadQueue.Has i a) (hex : a.executed = false) (request : Request) :
    ∃ r, findStore request a u (if a.isDataPrefetch then 0 else a.sqIt - u.storeWBIt) = .ok r ∧
      Found u request (u.searchTop a) r := by
  have hle := h.storeWBIt_le i a ha hex
  unfold searchTop
  split
  · exact (findStore_sat h ha (n := 0) hle).exists_ok
  · have hsat : Sat (fun _ => False) (Found u request (u.storeWBIt + (a.sqIt - u.storeWBIt)))
        (findStore request a u (a.sqIt - u.storeWBIt)) := findStore_sat h ha (by omega)
    rw [show u.storeWBIt + (a.sqIt - u.storeWBIt) = a.sqIt by omega] at hsat
    exact hsat.exists_ok

lemma ReadStep.of_setLoad (ha : u.loadQueue.Has i a) (hex : a.executed = false)
    (hkept : ∀ a, LoadKept (i = i) a (f a)) (hexf : (f a).executed = a.executed) (hresp : (f a).response = responseOf result)
    (hresult : result ≠ .reschedule)
    (hfound : request.isStrictlyOrdered = false → request.isLocalAccess = false →
      ∃ r, Found u request (u.searchTop a) r ∧ result = resultOf request r) :
    ReadStep u i a request result (u.setLoad i f) where
  loads := .modify _ hkept
  rest := rfl
  entry := ⟨f a, ha.modify_self f, hexf.trans hex, hresp, fun hres => absurd hres hresult⟩
  found := hfound
  same _ := ⟨rfl, rfl, rfl⟩
  stalls hres := absurd hres hresult

lemma stall_sat (hE : u.NullStalling → E .nullInstruction) :
    Sat E (fun u' => Stalls u i a b u' ∧ ∃ s isn idx, u' = { u with stalled := s, stallingStoreIsn := isn, stallingLoadIdx := idx })
      (u.stall a i b) := by
  unfold stall
  refine .ite (fun hstalled => ?_) fun hnot => ⟨.inr ⟨⟨rfl, rfl, rfl⟩, fun hnull => hnot hnull.1⟩, _, _, _, rfl⟩
  cases hslot : u.loadQueue.slot u.stallingLoadIdx with
  | none =>
    rw [load, hslot]
    exact hE ⟨hstalled, hslot⟩
  | some c =>
    rw [load, hslot]
    change Sat E _ (pure (if a.seqNum < c.seqNum then _ else _))
    by_cases hlt : a.seqNum < c.seqNum
    · rw [if_pos hlt]
      refine ⟨.inr ⟨⟨rfl, rfl, rfl⟩, fun hnull => ?_⟩, _, _, _, rfl⟩
      rw [hnull.2] at hslot
      cases hslot
    · rw [if_neg hlt]
      exact ⟨.inl ⟨hstalled, ⟨rfl, rfl, rfl⟩, c, hslot, Nat.not_lt.mp hlt⟩, _, _, _, rfl⟩

/-- `read` returns, unless it reschedules the load and finds the record of a cleared entry. -/
lemma read_sat (h : Ok u) (ha : u.loadQueue.Has i a) (hex : a.executed = false)
    (hE : (∃ r, Found u request (u.searchTop a) r ∧ resultOf request r = .reschedule) → u.NullStalling → E .nullInstruction) :
    Sat E (fun r => ReadStep u i a request r.1 r.2) (u.read request i) := by
  rw [read, load_eq ha]
  refine .of_ensure (by rw [hex]; rfl) ?_
  refine .ite (fun hstrict => ?_) fun _ => .ite (fun hlocal => ?_) fun _ => ?_
  · refine .of_setLoad ha hex (fun a => ⟨rfl, rfl, rfl, id, fun hi => absurd rfl hi⟩) rfl rfl nofun fun hnot => ?_
    rw [hnot] at hstrict
    cases hstrict
  · refine .of_setLoad ha hex (fun a => ⟨rfl, rfl, rfl, id, fun hi => absurd rfl hi⟩) rfl rfl nofun fun _ hnot => ?_
    rw [hnot] at hlocal
    cases hlocal
  · obtain ⟨r, hr, hfound⟩ := exists_found h ha hex request
    refine .of_ensure (decide_eq_true (h.storeWBIt_le i a ha hex)) ?_
    rw [hr]
    -- What is left when a store has been found that cannot serve the load.
    have hpart {cover : AddrRangeCoverage} {b : StoreEntry} (hfound : Found u request (u.searchTop a) (some (b, cover)))
        (hres : resultOf request (some (b, cover)) = .reschedule) :
        Sat E (fun r => ReadStep u i a request r.1 r.2)
          (do ensure (!b.completed) .completedStore
              let u ← u.stall a i b
              pure (ReadResult.reschedule, u.reschedule i)) := by
      obtain ⟨j, storeReq, hy, -⟩ := id hfound
      refine .of_ensure (by rw [h.completed_of_le j b hy.has hy.unsent]; rfl) ?_
      refine (stall_sat (hE ⟨_, hfound, hres⟩)).bind fun u' hu' => ?_
      obtain ⟨hstalls, s, isn, idx, rfl⟩ := hu'
      exact
        { loads := .modify _ fun a => ⟨rfl, rfl, rfl, id, fun hi => absurd rfl hi⟩
          rest := rfl
          entry := ⟨_, ha.modify_self _, hex, rfl, fun _ => rfl⟩
          found := fun _ _ => ⟨_, hfound, hres.symm⟩
          same := fun hne => absurd rfl hne
          stalls := fun _ => ⟨j, b, storeReq, hy, hstalls⟩ }
    match r, hfound with
    | some (b, .fullAddrRangeCoverage), hfound =>
      exact .of_setLoad ha hex (fun a => ⟨rfl, rfl, rfl, id, fun hi => absurd rfl hi⟩) rfl rfl nofun
        fun _ _ => ⟨_, hfound, rfl⟩
    | some (b, .partialAddrRangeCoverage), hfound => exact hpart hfound rfl
    | some (b, .noAddrRangeCoverage), hfound => exact hpart hfound rfl
    | none, hfound =>
      exact .of_setLoad ha hex (fun a => ⟨rfl, rfl, rfl, id, fun hi => absurd rfl hi⟩) rfl rfl nofun
        fun _ _ => ⟨_, hfound, rfl⟩

/-- The record of the stalled load means something: the load is in the queue and waits, and the store is older,
still in the queue, and has not been sent. -/
structure Recorded (u : LSQUnit p) (a : LoadEntry) (j : ℕ) (b : StoreEntry) : Prop where
  load : u.loadQueue.Has u.stallingLoadIdx a
  executed : a.executed = false
  idle : a.response = .idle
  isDataPrefetch : a.isDataPrefetch = false
  store : u.storeQueue.Has j b
  seqNum : b.seqNum = u.stallingStoreIsn
  older : b.seqNum < a.seqNum
  unsent : u.storeWBIt ≤ j

/-- The load `a` has to wait when it is executed: for its translation, or for a store that cannot serve it. -/
def Waits (u : LSQUnit p) (a : LoadEntry) : LoadAccess → Prop
  | .delayed => True
  | .access request _ => request.isStrictlyOrdered = false ∧ request.isLocalAccess = false ∧
      ∃ j b storeReq, Youngest u request (u.searchTop a) j b storeReq ∧
        coverage request b storeReq = .partialAddrRangeCoverage
  | _ => False

/-- What `executeLoad` does. -/
structure LoadStep (u : LSQUnit p) (i : ℕ) (a : LoadEntry) (acc : LoadAccess) (u' : LSQUnit p) : Prop where
  loads : LoadsKept (· = i) u.loadQueue u'.loadQueue
  rest : u' = { u with
    loadQueue := u'.loadQueue
    stalled := u'.stalled
    stallingStoreIsn := u'.stallingStoreIsn
    stallingLoadIdx := u'.stallingLoadIdx
    memDepViolator := u'.memDepViolator }
  violator : ∀ v, u.memDepViolator = some v → ∃ v', u'.memDepViolator = some v' ∧ v'.seqNum ≤ v.seqNum
  record : SameRecord u u' ∨ u'.stalled = true ∧ ∃ a' j b, Recorded u' a' j b
  waits : a.executed = false → u.Waits a acc →
    ∃ a', u'.loadQueue.Has i a' ∧ a'.executed = false ∧ (a.response = .idle → a'.response = .idle)

lemma LoadStep.of_setLoad {acc : LoadAccess} (hf : ∀ a, LoadKept (i = i) a (f a))
    (hnot : ¬ u.Waits a acc) : LoadStep u i a acc (u.setLoad i f) where
  loads := .modify _ hf
  rest := rfl
  violator v hv := ⟨v, hv, Nat.le_refl _⟩
  record := .inl ⟨rfl, rfl, rfl⟩
  waits _ h := absurd h hnot

lemma Youngest.unique {j' : ℕ} {storeReq' : StoreRequest} (h : Youngest u request top j b storeReq)
    (h' : Youngest u request top j' b' storeReq') : b = b' ∧ storeReq = storeReq' := by
  rcases Nat.lt_trichotomy j j' with hlt | rfl | hlt
  · exact absurd (h.youngest j' b' _ h'.has hlt h'.lt_top h'.considered) h'.covers
  · obtain rfl := h.has.eq h'.has
    exact ⟨rfl, Option.some.inj (h.considered.request.symm.trans h'.considered.request)⟩
  · exact absurd (h'.youngest j b _ h.has hlt h.lt_top h.considered) h.covers

lemma ReadStep.reschedule_of_youngest (h : ReadStep u i a request result u')
    (hstrict : request.isStrictlyOrdered = false) (hlocal : request.isLocalAccess = false)
    (hy : Youngest u request (u.searchTop a) j b storeReq)
    (hpart : coverage request b storeReq = .partialAddrRangeCoverage) : result = .reschedule := by
  obtain ⟨r, hr, rfl⟩ := h.found hstrict hlocal
  cases r with
  | none =>
    have hnone := hr j b storeReq hy.has hy.unsent hy.lt_top hy.considered
    rw [hpart] at hnone
    cases hnone
  | some r =>
    obtain ⟨b', cover⟩ := r
    obtain ⟨j', storeReq', hy', hcover⟩ := hr
    obtain ⟨rfl, rfl⟩ := hy.unique hy'
    rw [← hcover, hpart]
    rfl

/-- The load that `read` has recorded waits for the store. -/
lemma ReadStep.recorded (h : ReadStep u i a request .reschedule u') (hok : Ok u) (ha : u.loadQueue.Has i a) :
    SameRecord u u' ∨ u'.stalled = true ∧ ∃ a' j b, Recorded u' a' j b := by
  obtain ⟨j, b, storeReq, hy, hstalls⟩ := h.stalls rfl
  rcases hstalls with ⟨-, hsame, -⟩ | ⟨⟨hstalled, hisn, hidx⟩, -⟩
  · exact .inl hsame
  · obtain ⟨a', ha', hexec, hidle, -⟩ := h.entry
    obtain ⟨a'', ha'', hk⟩ := h.loads.kept i a ha
    obtain rfl := ha'.eq ha''
    have hprefetch : a.isDataPrefetch = false := by
      cases hp : a.isDataPrefetch with
      | false => rfl
      | true =>
        have hlt := hy.lt_top
        rw [searchTop, hp, if_pos rfl] at hlt
        exact absurd hy.unsent (Nat.not_le.mpr hlt)
    have hlt : j < a.sqIt := by
      have hlt := hy.lt_top
      rwa [searchTop, hprefetch, if_neg (by simp)] at hlt
    have hstores : u'.storeQueue = u.storeQueue := by rw [h.rest]
    have hwb : u'.storeWBIt = u.storeWBIt := by rw [h.rest]
    exact .inr ⟨hstalled, a', j, b,
      { load := hidx ▸ ha'
        executed := hexec
        idle := hidle
        isDataPrefetch := hk.isDataPrefetch.trans hprefetch
        store := hstores ▸ hy.has
        seqNum := hisn.symm
        older := hk.seqNum ▸ hok.older_store i a j b ha hy.has hlt
        unsent := hwb ▸ hy.unsent }⟩

lemma Youngest.congr (h : Youngest u request top j b storeReq)
    (hstores : u'.storeQueue = u.storeQueue) (hwb : u'.storeWBIt = u.storeWBIt) : Youngest u' request top j b storeReq where
  has := hstores ▸ h.has
  unsent := hwb ▸ h.unsent
  lt_top := h.lt_top
  considered := h.considered
  covers := h.covers
  youngest j' b' req' hb' := h.youngest j' b' req' (hstores ▸ hb')

/-- The last part of `executeLoad` keeps what `read` has done. -/
lemma ReadStep.loadStep {w : LSQUnit p}
    (h : ReadStep (u.setLoad i f) i (f a) request result u') (partialFault : Bool) (hok : Ok u)
    (hf : ∀ a, LoadKept (i = i) a (f a)) (ha : u.loadQueue.Has i a)
    (hw : w = { u' with loadQueue := w.loadQueue, memDepViolator := w.memDepViolator })
    (hloads : LoadsKept (· = i) u'.loadQueue w.loadQueue)
    (hviolator : ∀ v, u'.memDepViolator = some v → ∃ v', w.memDepViolator = some v' ∧ v'.seqNum ≤ v.seqNum)
    (hwaits : result = .reschedule → w = u') : LoadStep u i a (.access request partialFault) w := by
  have hset : LoadsKept (· = i) u.loadQueue (u.setLoad i f).loadQueue := .modify _ hf
  have hv : u'.memDepViolator = u.memDepViolator := by rw [h.rest]; rfl
  refine ⟨(hset.trans h.loads).trans hloads, ?_, fun v hv' => hviolator v (hv.trans hv'), ?_, fun _ hwait => ?_⟩
  · rw [hw, h.rest]
    rfl
  · by_cases hres : result = .reschedule
    · subst hres
      rw [hwaits rfl]
      exact h.recorded (hok.setLoad hf) (ha.modify_self f)
    · rw [hw]
      exact .inl (h.same hres)
  · obtain ⟨hstrict, hlocal, j, b, storeReq, hy, hpart⟩ := hwait
    have htop : (u.setLoad i f).searchTop (f a) = u.searchTop a := by
      rw [searchTop, searchTop, (hf a).isDataPrefetch, (hf a).sqIt]
      rfl
    have hy' : Youngest (u.setLoad i f) request ((u.setLoad i f).searchTop (f a)) j b storeReq := by
      rw [htop]
      exact hy.congr rfl rfl
    have hres : result = .reschedule := h.reschedule_of_youngest hstrict hlocal hy' hpart
    obtain ⟨a', ha', hex', hidle, -⟩ := h.entry
    subst hres
    rw [hwaits rfl]
    exact ⟨a', ha', hex', fun _ => hidle⟩

lemma LoadKept.stop (changed : Prop) (hchanged : changed) (a : LoadEntry) :
    LoadKept changed a { a with executed := a.executed || !a.strictlyOrdered || a.atCommit } :=
  ⟨rfl, rfl, rfl, fun h => by simp [h], fun hnot => absurd hchanged hnot⟩

lemma executeLoad_sat (h : Ok u) (ha : u.loadQueue.Has i a) (acc : LoadAccess)
    (hE : u.NullStalling → E .nullInstruction) :
    Sat E (LoadStep u i a acc) (u.executeLoad i acc) := by
  have hrefl : LoadStep u i a acc u :=
    { loads := .refl ..
      rest := rfl
      violator := fun v hv => ⟨v, hv, Nat.le_refl _⟩
      record := .inl ⟨rfl, rfl, rfl⟩
      waits := fun hex _ => ⟨a, ha, hex, id⟩ }
  unfold executeLoad
  rw [load_eq ha]
  refine .ite (fun _ => hrefl) fun hex => ?_
  have hex : a.executed = false := by simpa using hex
  cases acc with
  | delayed => exact hrefl
  | stopped strictlyOrdered =>
    have hset : LoadsKept (· = i) u.loadQueue (u.loadQueue.modify i fun load => { load with strictlyOrdered }) :=
      .modify _ fun a => ⟨rfl, rfl, rfl, id, fun _ => ⟨rfl, rfl⟩⟩
    exact ⟨hset.trans (.modify _ (.stop _ rfl)), rfl, hrefl.violator, .inl ⟨rfl, rfl, rfl⟩, fun _ hwait => hwait.elim⟩
  | notRequired => exact .of_setLoad (fun a => ⟨rfl, rfl, rfl, fun _ => rfl, fun hi => absurd rfl hi⟩) id
  | access request partialFault =>
    -- The load with its address.
    have hf (a : LoadEntry) : LoadKept (i = i) a
        { a with
          effAddr := request.vaddr, effSize := request.size, effAddrValid := true
          strictlyOrdered := request.isStrictlyOrdered } := ⟨rfl, rfl, rfl, id, fun _ => ⟨rfl, rfl⟩⟩
    refine (read_sat (h.setLoad hf) (ha.modify_self _) hex fun _ hnull => hE ?_).bind fun r hr => ?_
    · exact hnull.imp_right slot_modify_eq_none.mp
    · obtain ⟨result, u'⟩ := r
      change ReadStep _ i _ request result u' at hr
      have hstep {w : LSQUnit p} := hr.loadStep (w := w) partialFault h hf ha
      refine .ite (fun _ => hstep rfl (.refl ..) (fun v hv => ⟨v, hv, Nat.le_refl _⟩) fun _ => rfl) fun _ => ?_
      refine .ite (fun hres => ?_) fun hres => ?_
      · refine hstep rfl (.modify _ (.stop _ rfl)) (fun v hv => ⟨v, hv, Nat.le_refl _⟩) fun hres' => ?_
        rw [hres] at hres'
        cases hres'
      · obtain ⟨a', ha', -, -, hnot⟩ := hr.entry
        rw [load_eq ha']
        refine .ite (fun hcheck => ?_) fun _ => hstep rfl (.refl ..) (fun v hv => ⟨v, hv, Nat.le_refl _⟩) fun _ => rfl
        have hlt := ha'.lt_last
        have hle := ha'.1
        refine (checkViolations_sat (by omega) (by omega)).mono fun w hw => ?_
        refine hstep hw.rest (hw.loads.weaken fun _ => False.elim) hw.violator fun hres => ?_
        simp [hnot hres] at hcheck

/-! ### Stores -/

/-- What `executeStore` does. A store conditional or an atomic can be written back afterwards. -/
structure StoreStep (u : LSQUnit p) (j : ℕ) (b : StoreEntry) (u' : LSQUnit p) : Prop where
  frame : Frame (fun _ => False) u u'
  rest : u' = { u with
    loadQueue := u'.loadQueue
    storeQueue := u'.storeQueue
    storesToWB := u'.storesToWB
    memDepViolator := u'.memDepViolator }
  violator : ∀ v, u.memDepViolator = some v → ∃ v', u'.memDepViolator = some v' ∧ v'.seqNum ≤ v.seqNum
  canWB : ∀ k c c', u.storeQueue.Has k c → u'.storeQueue.Has k c' → c'.canWB = true → c.canWB = true ∨
    k = j ∧ (b.isStoreConditional || b.isAtomic) = true

lemma StoreStep.refl (u : LSQUnit p) (j : ℕ) (b : StoreEntry) : StoreStep u j b u where
  frame := .refl ..
  rest := rfl
  violator v hv := ⟨v, hv, Nat.le_refl _⟩
  canWB _ _ _ hc hc' hcan := .inl (hc.eq hc' ▸ hcan)

lemma StoreStep.checked (h : StoreStep u j b u') (h' : Checked u' u'') : StoreStep u j b u'' := by
  have hstores : u''.storeQueue = u'.storeQueue := by rw [h'.rest]
  refine ⟨h.frame.trans ⟨h'.loads, hstores ▸ .refl _, by rw [h'.rest], by rw [h'.rest]⟩, ?_, fun v hv => ?_, hstores ▸ h.canWB⟩
  · rw [h'.rest, h.rest]
  grind [StoreStep.violator, Checked.violator]

lemma Written.congr (h : Written b storeReq) (canWB committed completed : Bool) :
    Written { b with canWB, committed, completed } storeReq :=
  ⟨h.request_eq, h.effAddrValid, h.effAddr, h.effSize, h.size, h.strictlyOrdered, h.isAllZeros, h.data⟩

lemma StoreKept.setCanWB (b : StoreEntry) : StoreKept b { b with canWB := true } :=
  ⟨rfl, rfl, rfl, rfl, fun _ => rfl, fun h hsize => (h hsize).imp fun _ hw => hw.congr ..⟩

lemma finishStore_sat (hb : u.storeQueue.Has j b) (hhead : u.loadQueue.head ≤ b.lqIt) (hlast : b.lqIt ≤ u.loadQueue.last) :
    Sat E (StoreStep u j b) (u.finishStore j) := by
  rw [finishStore, store_eq hb]
  -- The store with its mark.
  have hmark : StoreStep u j b
      (if (b.isStoreConditional || b.isAtomic) = true then
        { u.setStore j (fun store => { store with canWB := true }) with storesToWB := u.storesToWB + 1 }
      else u) := by
    by_cases hkind : (b.isStoreConditional || b.isAtomic) = true
    · rw [if_pos hkind]
      refine ⟨⟨.refl .., .modify _ .setCanWB, rfl, rfl⟩, rfl, fun v hv => ⟨v, hv, Nat.le_refl _⟩, fun k c c' hc hc' hcan => ?_⟩
      obtain ⟨c'', hc'', rfl⟩ := has_modify.mp hc'
      grind [eq]
    · rw [if_neg hkind]
      exact .refl ..
  refine (checkViolations_sat (by rw [hmark.frame.loads.head_eq]; exact hhead)
    (by rw [hmark.frame.loads.last_eq]; exact hlast)).mono fun w hw => ?_
  exact hmark.checked hw

/-- The store after `write`. -/
def writtenBy (request : StoreRequest) (b : StoreEntry) : StoreEntry :=
  { b with
    effAddr := request.vaddr, effSize := request.size, effAddrValid := true
    strictlyOrdered := request.isStrictlyOrdered
    request := some request
    size := request.size
    isAllZeros := request.storeNoData
    data := if !request.isCacheBlockZero && !request.isCacheMaintenance && !b.isAtomic then request.data else b.data }

lemma Written.writtenBy (storeReq : StoreRequest) (b : StoreEntry) : Written (writtenBy storeReq b) storeReq := by
  refine ⟨rfl, rfl, rfl, rfl, rfl, rfl, rfl, fun hnot hatomic => ?_⟩
  simp only [StoreRequest.storeNoData, Bool.or_eq_false_iff] at hnot
  have hatomic : b.isAtomic = false := hatomic
  simp [LSQUnit.writtenBy, hnot, hatomic]

lemma StoreKept.writtenBy (storeReq : StoreRequest) (b : StoreEntry) : StoreKept b (writtenBy storeReq b) :=
  ⟨rfl, rfl, rfl, rfl, id, fun _ _ => ⟨storeReq, .writtenBy storeReq b⟩⟩

lemma write_eq (hb : u.storeQueue.Has j b) (hsize : storeReq.size ≤ p.dataSize ∨ storeReq.storeNoData = true) :
    (u.setStore j fun store =>
      { store with
        effAddr := storeReq.vaddr, effSize := storeReq.size, effAddrValid := true
        strictlyOrdered := storeReq.isStrictlyOrdered }).write storeReq j = .ok (u.setStore j (writtenBy storeReq)) := by
  rw [write, store_eq (hb.modify_self _)]
  refine (ensure_bind _ _ _).trans ((if_pos (by simpa using hsize)).trans ?_)
  exact congrArg Except.ok (congrArg (fun q => { u with storeQueue := q }) (modify_modify _))

lemma StoreStep.writtenBy (u : LSQUnit p) (j : ℕ) (b : StoreEntry) (storeReq : StoreRequest) :
    StoreStep u j b (u.setStore j (writtenBy storeReq)) := by
  refine ⟨⟨.refl .., .modify _ (.writtenBy storeReq), rfl, rfl⟩, rfl, fun v hv => ⟨v, hv, Nat.le_refl _⟩, ?_⟩
  intro k c c' hc hc' hcan
  obtain ⟨c'', hc'', rfl⟩ := has_modify.mp hc'
  obtain rfl := hc.eq hc''
  refine .inl ?_
  split_ifs at hcan <;> exact hcan

lemma StoreStep.trans {b1 : StoreEntry} (h : StoreStep u j b u') (h' : StoreStep u' j b1 u'')
    (hkind : (b1.isStoreConditional || b1.isAtomic) = (b.isStoreConditional || b.isAtomic)) : StoreStep u j b u'' := by
  refine ⟨h.frame.trans h'.frame, ?_, fun v hv => ?_, fun k c c'' hc hc'' hcan => ?_⟩
  · rw [h'.rest, h.rest]
  · grind [StoreStep.violator]
  · obtain ⟨c', hc', -⟩ := h.frame.stores.kept k c hc
    grind [StoreStep.canWB]

lemma executeStore_access (hb : u.storeQueue.Has j b)
    (hsize : storeReq.size ≤ p.dataSize ∨ storeReq.storeNoData = true) :
    u.executeStore j (.access storeReq) = (u.setStore j (writtenBy storeReq)).finishStore j := by
  have hpos := List.length_pos_of_mem hb.mem
  unfold executeStore
  rw [ensure_bind, if_pos (bne_iff_ne.mpr (by omega)), store_eq hb]
  change ((u.setStore j _).write storeReq j >>= fun u => u.finishStore j) = _
  rw [write_eq hb hsize]
  rfl

lemma executeStore_sat (h : Ok u) (hb : u.storeQueue.Has j b) (hcan : b.canWB = false) (acc : StoreAccess)
    (hsize : ∀ storeReq, acc = .access storeReq → storeReq.size ≤ p.dataSize ∨ storeReq.storeNoData = true)
    (hE : E .storeFault) : Sat E (StoreStep u j b) (u.executeStore j acc) := by
  have hhead := h.head_le_lqIt j b hb hcan
  have hlast := h.lqIt_le j b hb
  have hpos := List.length_pos_of_mem hb.mem
  cases acc with
  | access storeReq =>
    have hb' : (u.setStore j (writtenBy storeReq)).storeQueue.Has j (writtenBy storeReq b) := hb.modify_self _
    rw [executeStore_access hb (hsize storeReq rfl)]
    refine (finishStore_sat hb' hhead hlast).mono fun w hw => ?_
    exact (StoreStep.writtenBy u j b storeReq).trans hw rfl
  | delayed =>
    unfold executeStore
    rw [store_eq hb]
    exact .of_ensure (bne_iff_ne.mpr (by omega)) (StoreStep.refl ..)
  | predicatedOff =>
    unfold executeStore
    rw [store_eq hb]
    exact .of_ensure (bne_iff_ne.mpr (by omega)) (StoreStep.refl ..)
  | notWritten fault =>
    unfold executeStore
    rw [store_eq hb]
    refine .of_ensure (bne_iff_ne.mpr (by omega)) (.ite (fun _ => .refl ..) fun _ => ?_)
    cases fault with
    | true => exact hE
    | false => exact finishStore_sat hb hhead hlast

end LSQUnit

end Gem5.O3
