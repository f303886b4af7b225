import Gem5.Cpu.O3.LSQForwarding

/-!
# The record of a stalled load

`stalled`, `stallingLoadIdx` and `stallingStoreIsn` stand for all loads that wait for a store. They are taken back when
the store is sent or complete and when the load is squashed, but not when the load gets its data in another way: a load
that is replayed may find a younger store that has been executed in the meantime, and leave the queue before the recorded
store is sent (`stall_record_lost`). Nor are they taken back when `writebackStores` passes a store that is a data
prefetch. As long as neither happens, the record means what it says in every run, and no call stops because of it
(**`stall_record_meaningful`**).
-/

namespace Gem5.O3

open Lib CircularQueue

namespace LSQUnit

variable {p : LSQParams} {u u' u'' : LSQUnit p} {i j : ℕ} {a : LoadEntry} {b : StoreEntry} {request : Request}
  {C : ℕ → Prop}

/-! ### The condition -/

/-- The load still has to wait when it is executed: its translation is delayed, or the youngest store with bytes of it
cannot serve it. -/
def StillWaits (u : LSQUnit p) (a : LoadEntry) : LoadAccess → Prop
  | .delayed => True
  | .access request _ => Plain u a request ∧ Expected u a request .reschedule
  | _ => False

/-- The recorded load is executed only while it has to wait, and no store is a data prefetch. -/
def KeepsRecord (u : LSQUnit p) : Call → Prop
  | .insertStore inst => inst.isDataPrefetch = false
  | .executeLoad i acc => u.stalled = true → u.stallingLoadIdx = i → ∀ a, u.loadQueue.Has i a → u.StillWaits a acc
  | _ => True

lemma StillWaits.waits {acc : LoadAccess} (h : u.StillWaits a acc) (hok : Ok u) (ha : u.loadQueue.Has i a)
    (hex : a.executed = false) : u.Waits a acc := by
  cases acc with
  | delayed => trivial
  | stopped => exact h
  | notRequired => exact h
  | access request partialFault =>
    obtain ⟨hp, hexp⟩ := h
    obtain ⟨r, -, hr⟩ := exists_found hok ha hex request
    refine ⟨hp.isStrictlyOrdered, hp.isLocalAccess, ?_⟩
    rw [hp.searchTop] at hr ⊢
    have hres := (hr.expected hok ha hp).unique hok hexp
    match r, hr with
    | none, _ => cases hres
    | some (b, .fullAddrRangeCoverage), _ => cases hres
    | some (b, .partialAddrRangeCoverage), ⟨j, storeReq, hy, hcover⟩ => exact ⟨j, b, storeReq, hy, hcover⟩
    | some (b, .noAddrRangeCoverage), ⟨j, storeReq, hy, hcover⟩ => exact absurd hcover hy.covers

/-! ### The invariant -/

/-- The record means something, and no store is a data prefetch. -/
structure Meaningful (u : LSQUnit p) : Prop where
  ok : Ok u
  record : u.stalled = true → ∃ a j b, Recorded u a j b
  isDataPrefetch : ∀ j b, u.storeQueue.Has j b → b.isDataPrefetch = false

/-- A fault that is not about the record. -/
def Unrelated (e : LSQFault) : Prop := e ≠ .nullInstruction ∧ e ≠ .stillStalled

lemma Meaningful.start : Meaningful ({} : LSQUnit p) := by
  refine ⟨.start, nofun, fun j b hb => ?_⟩
  exact absurd hb not_has_empty

lemma Meaningful.not_null (h : Meaningful u) : ¬ u.NullStalling := by
  rintro ⟨hstalled, hnone⟩
  obtain ⟨a, j, b, hr⟩ := h.record hstalled
  rw [hr.load.slot] at hnone
  cases hnone

lemma StoresKept.isDataPrefetch {n : ℕ} {q q' : CircularQueue StoreEntry n} (h : StoresKept q q')
    (hq : ∀ j b, q.Has j b → b.isDataPrefetch = false) : ∀ j b, q'.Has j b → b.isDataPrefetch = false := by
  grind [StoresKept.of_has, StoreKept.isDataPrefetch]

lemma Recorded.frame (h : Recorded u a j b) (hf : Frame C u u') (hsame : SameRecord u u') (hnot : ¬ C u.stallingLoadIdx) :
    ∃ a' j b', Recorded u' a' j b' := by
  obtain ⟨a', ha', hk⟩ := hf.loads.kept _ a h.load
  obtain ⟨b', hb', hkb⟩ := hf.stores.kept _ b h.store
  obtain ⟨hexec, hresp⟩ := hk.same hnot
  exact ⟨a', j, b',
    { load := by rw [hsame.2.2]; exact ha'
      executed := hexec.trans h.executed
      idle := hresp.trans h.idle
      isDataPrefetch := hk.isDataPrefetch.trans h.isDataPrefetch
      store := hb'
      seqNum := by rw [hkb.seqNum, hsame.2.1]; exact h.seqNum
      older := by rw [hkb.seqNum, hk.seqNum]; exact h.older
      unsent := by rw [hf.storeWBIt]; exact h.unsent }⟩

section

variable (h : Meaningful u)
include h

lemma Meaningful.frame (hok : Ok u') (hf : Frame C u u') (hsame : SameRecord u u')
    (hnot : u.stalled = true → ¬ C u.stallingLoadIdx) : Meaningful u' := by
  refine ⟨hok, fun hstalled => ?_, hf.stores.isDataPrefetch h.isDataPrefetch⟩
  rw [hsame.1] at hstalled
  grind [Meaningful.record, Recorded.frame]

lemma Meaningful.insertLoad {inst : LoadInst} (hlegal : u.Legal (.insertLoad inst)) :
    Sat Unrelated Meaningful (u.insertLoad inst) := by
  unfold LSQUnit.insertLoad
  split
  · exact ⟨nofun, nofun⟩
  · rename_i q hq
    have hok : Ok { u with loadQueue := q } := h.ok.insertLoad hlegal (by rw [LSQUnit.insertLoad, hq])
    refine ⟨hok, fun hstalled => ?_, h.isDataPrefetch⟩
    obtain ⟨a, j, b, hr⟩ := h.record hstalled
    exact ⟨a, j, b, { hr with load := (has_push hq).mpr (.inl hr.load) }⟩

lemma Meaningful.insertStore {inst : StoreInst} (hlegal : u.Legal (.insertStore inst)) :
    Sat Unrelated (fun u' => inst.isDataPrefetch = false → Meaningful u') (u.insertStore inst) := by
  unfold LSQUnit.insertStore
  split
  · exact ⟨nofun, nofun⟩
  · rename_i q hq
    have hok : Ok { u with storeQueue := q } := h.ok.insertStore hlegal (by rw [LSQUnit.insertStore, hq])
    refine fun hinst => ⟨hok, fun hstalled => ?_, fun j b hb => ?_⟩
    · obtain ⟨a, j, b, hr⟩ := h.record hstalled
      exact ⟨a, j, b, { hr with store := (has_push hq).mpr (.inl hr.store) }⟩
    · rcases (has_push hq).mp hb with hb | ⟨rfl, rfl⟩
      · exact h.isDataPrefetch j b hb
      · exact hinst

/-- A load that is executed is recorded, leaves the record alone, or is the recorded one and waits on. -/
lemma Meaningful.executeLoad {acc : LoadAccess} (hok : Ok u') (ha : u.loadQueue.Has i a)
    (hstep : LoadStep u i a acc u') (hcond : u.KeepsRecord (.executeLoad i acc)) : Meaningful u' := by
  have hs : u'.storeQueue = u.storeQueue := by rw [hstep.rest]
  have hwb : u'.storeWBIt = u.storeWBIt := by rw [hstep.rest]
  have hframe : Frame (· = i) u u' := ⟨hstep.loads, hs ▸ .refl _, hwb, by rw [hstep.rest]⟩
  refine ⟨hok, fun hstalled => ?_, by rw [hs]; exact h.isDataPrefetch⟩
  rcases hstep.record with hsame | ⟨-, hrecorded⟩
  · rw [hsame.1] at hstalled
    obtain ⟨c, j, b, hr⟩ := h.record hstalled
    by_cases hidx : u.stallingLoadIdx = i
    · subst hidx
      obtain rfl := ha.eq hr.load
      have hwaits := (hcond hstalled rfl a ha).waits h.ok ha hr.executed
      obtain ⟨a', ha', hexec, hidle⟩ := hstep.waits hr.executed hwaits
      obtain ⟨a'', ha'', hk⟩ := hstep.loads.kept _ a ha
      obtain rfl := ha'.eq ha''
      exact ⟨a', j, b,
        { load := by rw [hsame.2.2]; exact ha'
          executed := hexec
          idle := hidle hr.idle
          isDataPrefetch := hk.isDataPrefetch.trans hr.isDataPrefetch
          store := hs ▸ hr.store
          seqNum := by rw [hsame.2.1]; exact hr.seqNum
          older := by rw [hk.seqNum]; exact hr.older
          unsent := by rw [hwb]; exact hr.unsent }⟩
    · exact hr.frame hframe hsame hidx
  · exact hrecorded

lemma Meaningful.commit {youngest : ℕ} (hlegal : u.Legal (.commit youngest)) :
    Meaningful ((u.commitStores youngest).commitLoads youngest) := by
  have hmark : Meaningful (u.commitStores youngest) :=
    h.frame (h.ok.commitStores hlegal) (commitStores_frame u youngest) ⟨rfl, rfl, rfl⟩ fun _ => id
  refine ⟨h.ok.commit hlegal, fun hstalled => ?_, hmark.isDataPrefetch⟩
  obtain ⟨a, j, b, hr⟩ := hmark.record hstalled
  have hl : LoadsCommitted youngest u.loadQueue ((u.commitStores youngest).commitLoads youngest).loadQueue :=
    .dropFront youngest _
  refine ⟨a, j, b, { hr with load := (hl.has_iff _ a).mpr ⟨hr.load, ?_⟩ }⟩
  by_contra hlt
  have hexec := hlegal a hr.load.mem (hl.committed _ a hr.load (Nat.not_le.mp hlt))
  rw [hr.executed] at hexec
  cases hexec

lemma Meaningful.writeBack (hw : WriteBack u u') : Meaningful u' := by
  refine ⟨hw.ok, fun hstalled => ?_, fun j b' hb' => ?_⟩
  · obtain ⟨hstalled, hisn, hidx, hstore⟩ := hw.record hstalled
    obtain ⟨a, j, b, hr⟩ := h.record hstalled
    obtain ⟨hunsent, b', hb', hinst⟩ := hstore j b hr.store hr.seqNum hr.unsent (h.isDataPrefetch j b hr.store)
    have hseq : b'.seqNum = b.seqNum := by rw [hinst]
    exact ⟨a, j, b',
      { load := by rw [hw.loads, hidx]; exact hr.load
        executed := hr.executed
        idle := hr.idle
        isDataPrefetch := hr.isDataPrefetch
        store := hb'
        seqNum := by rw [hseq, hisn]; exact hr.seqNum
        older := by rw [hseq]; exact hr.older
        unsent := hunsent }⟩
  grind [WriteBack.prefetch, Meaningful.isDataPrefetch]

/-- The record is still there after the loads have been squashed, so its load is not younger than `squashedNum`. -/
lemma Meaningful.loadsSquashed {squashedNum : ℕ} {v : LSQUnit p} (hl : LoadsSquashed squashedNum u v)
    (hstalled : v.stalled = true) : ∃ a j b, Recorded v a j b ∧ b.seqNum ≤ squashedNum := by
  obtain ⟨hstalled, hsame, hkeep⟩ := hl.record hstalled
  obtain ⟨a, j, b, hr⟩ := h.record hstalled
  have hload : v.loadQueue.Has v.stallingLoadIdx a := by
    rw [hsame.2.2]
    exact (hl.queue.has_iff _ a).mpr ⟨hr.load, hkeep hr.load.lt_last⟩
  have hs : v.storeQueue = u.storeQueue := by rw [hl.rest]
  have hwb : v.storeWBIt = u.storeWBIt := by rw [hl.rest]
  have hstays := hl.stays _ a hload
  have holder := hr.older
  refine ⟨a, j, b, ⟨hload, hr.executed, hr.idle, hr.isDataPrefetch, hs ▸ hr.store, ?_, hr.older, hwb ▸ hr.unsent⟩, by omega⟩
  rw [hsame.2.1]
  exact hr.seqNum

lemma Meaningful.squashed {squashedNum : ℕ} {v : LSQUnit p} (hok : Ok u') (hl : LoadsSquashed squashedNum u v)
    (hs : StoresSquashed squashedNum { v with memDepViolator := u'.memDepViolator } u') : Meaningful u' := by
  have hloads : u'.loadQueue = v.loadQueue := by rw [hs.rest]
  have hidx : u'.stallingLoadIdx = v.stallingLoadIdx := by rw [hs.rest]
  have hisn : u'.stallingStoreIsn = v.stallingStoreIsn := by rw [hs.rest]
  have hwb : u'.storeWBIt = v.storeWBIt := by rw [hs.rest]
  refine ⟨hok, fun hstalled => ?_, fun j b hb => ?_⟩
  · rw [hs.rest] at hstalled
    obtain ⟨a, j, b, hr, hle⟩ := h.loadsSquashed hl hstalled
    have hstore : u'.storeQueue.Has j b := by
      refine (hs.queue.has_iff j b).mpr ⟨hr.store, ?_⟩
      by_contra hlt
      have := (hs.squashed j b hr.store (Nat.not_lt.mp hlt)).1
      omega
    exact ⟨a, j, b, by rw [hloads, hidx]; exact hr.load, hr.executed, hr.idle, hr.isDataPrefetch, hstore,
      by rw [hisn]; exact hr.seqNum, hr.older, by rw [hwb]; exact hr.unsent⟩
  · have hb : v.storeQueue.Has j b := ((hs.queue.has_iff j b).mp hb).1
    rw [hl.rest] at hb
    exact h.isDataPrefetch j b hb

end

/-! ### Runs -/

lemma Meaningful.perform (h : Meaningful u) {c : Call} (hlegal : u.Legal c) :
    Sat Unrelated (fun u' => u.KeepsRecord c → Meaningful u') (u.perform c) := by
  have hnull : u.NullStalling → Unrelated .nullInstruction := fun hn => absurd hn h.not_null
  -- The call keeps the invariant of the queues if it returns.
  have hok {Q : LSQUnit p → Prop} (hsat : Sat Unrelated Q (u.perform c)) :
      Sat Unrelated (fun u' => Ok u' ∧ Q u') (u.perform c) := by
    cases hc : u.perform c with
    | ok u' => exact ⟨h.ok.perform hlegal hc, hsat.of_ok hc⟩
    | error e => exact hsat.of_error hc
  cases c with
  | insertLoad inst => exact (h.insertLoad hlegal).mono fun u' hu' _ => hu'
  | insertStore inst => exact h.insertStore hlegal
  | executeLoad i acc =>
    obtain ⟨a, -, ha, -⟩ := hlegal
    exact (hok (executeLoad_sat h.ok ha acc hnull)).mono fun u' hu' hcond => h.executeLoad hu'.1 ha hu'.2 hcond
  | executeStore j acc =>
    obtain ⟨⟨b, -, hb, hcan, -⟩, hsize⟩ := hlegal
    have hsat : Sat Unrelated (StoreStep u j b) (u.executeStore j acc) :=
      executeStore_sat h.ok hb hcan acc (fun storeReq hacc => by rw [hacc] at hsize; exact hsize) ⟨nofun, nofun⟩
    refine (hok hsat).mono fun u' hu' _ => ?_
    exact h.frame hu'.1 hu'.2.frame (by rw [hu'.2.rest]; exact ⟨rfl, rfl, rfl⟩) fun _ => id
  | writeback i =>
    have hframe : Frame (· = i) u (u.writeback i) := ⟨.modify _ (.writeback _ rfl), .refl _, rfl, rfl⟩
    refine fun _ => h.frame (h.ok.perform hlegal rfl) hframe ⟨rfl, rfl, rfl⟩ fun hstalled hidx => ?_
    -- Nothing is under way for the recorded load.
    obtain ⟨a, -, ha, hresponse⟩ := hlegal
    obtain ⟨c, j, b, hr⟩ := h.record hstalled
    have hload := hr.load
    rw [hidx] at hload
    exact hresponse (ha.eq hload ▸ hr.idle)
  | setAtCommit i =>
    have hframe : Frame (fun _ => False) u (u.setAtCommit i) :=
      ⟨.modify _ fun a => ⟨rfl, rfl, rfl, id, fun _ => ⟨rfl, rfl⟩⟩, .refl _, rfl, rfl⟩
    exact fun _ => h.frame (h.ok.perform hlegal rfl) hframe ⟨rfl, rfl, rfl⟩ fun _ => id
  | checkSnoop hit =>
    have hframe : Frame (fun _ => False) u (u.checkSnoop hit) := ⟨checkSnoop_loads hit u, .refl _, rfl, rfl⟩
    exact fun _ => h.frame (h.ok.perform hlegal rfl) hframe ⟨rfl, rfl, rfl⟩ fun _ => id
  | commit youngest => exact fun _ => h.commit hlegal
  | writebackStore success sent =>
    exact (writebackStore_sat h.ok success sent hnull ⟨nofun, nofun⟩ ⟨nofun, nofun⟩).mono fun u' hu' _ => h.writeBack hu'
  | writebackBlockedStore sent =>
    exact (writebackBlockedStore_sat h.ok hlegal sent hnull).mono fun u' hu' _ => h.writeBack hu'
  | completeStore i =>
    obtain ⟨hlt, b, -, hb, -⟩ := hlegal
    exact (completeStore_writeBack h.ok hb hlt hnull).mono fun u' hu' _ => h.writeBack hu'
  | squash squashedNum =>
    refine (squash_sat h.ok hlegal fun v hl hstalled hstore => ?_).mono fun u' hu' _ => ?_
    · -- The store of the record is older than its load, which has not been squashed.
      grind [Meaningful.loadsSquashed, Recorded.seqNum]
    grind [Meaningful.squashed]
  | getMemDepViolator =>
    have hframe : Frame (fun _ => False) u u.getMemDepViolator := ⟨.refl .., .refl _, rfl, rfl⟩
    exact fun _ => h.frame (h.ok.perform hlegal rfl) hframe ⟨rfl, rfl, rfl⟩ fun _ => id

lemma Reachable.meaningful (h : Reachable p KeepsRecord u) : Meaningful u := by
  induction h with
  | start => exact .start
  | step _ hlegal hcond hcall ih => exact (ih.perform hlegal).of_ok hcall hcond

/-- **The record of a stalled load means something.** In every run in which the recorded load is executed only while it
has to wait, and no store is a data prefetch: if the unit is stalled, the load of the record is in the queue and has not
been executed, and its store is older, in the queue, and has not been sent. So no call uses the instruction of a
cleared entry, and `squash` does not find the record of a store that it squashes. -/
theorem stall_record_meaningful (h : Reachable p KeepsRecord u) :
    (u.stalled = true → ∃ a j b, Recorded u a j b ∧ u.loadQueue.slot u.stallingLoadIdx = some a) ∧
      ∀ c, u.Legal c → u.perform c ≠ .error .nullInstruction ∧ u.perform c ≠ .error .stillStalled := by
  have hm := h.meaningful
  refine ⟨fun hstalled => ?_, fun c hlegal => ⟨fun hc => ?_, fun hc => ?_⟩⟩
  · obtain ⟨a, j, b, hr⟩ := hm.record hstalled
    exact ⟨a, j, b, hr, hr.load.slot⟩
  · exact ((hm.perform hlegal).of_error hc).1 rfl
  · exact ((hm.perform hlegal).of_error hc).2 rfl

/-- The load of `leaveRecord` when it is first executed: the record means something. -/
theorem stall_record_meaningful_first :
    ∃ u : LSQUnit smallQueues, Reachable smallQueues KeepsRecord u ∧ u.stalled = true ∧
      ∃ a j b, Recorded u a j b ∧ u.loadQueue.slot u.stallingLoadIdx = some a := by
  have h₀ : Reachable smallQueues KeepsRecord {} := .start
  have h₁ := h₀.step (c := .insertStore { seqNum := 1 }) (by decide) rfl rfl
  have h₂ := h₁.step (c := .insertStore { seqNum := 2 }) (by decide) rfl rfl
  have h₃ := h₂.step (c := .insertLoad { seqNum := 3 }) (by decide) trivial rfl
  have h₄ := h₃.step (c := .executeStore 1 (.access (storeOf 0 4 (by decide)))) (by decide) trivial rfl
  have h₅ := h₄.step (c := .executeLoad 1 (.access (loadOf 0 8 (by decide)) false)) (by decide) nofun rfl
  exact ⟨_, h₅, rfl, (stall_record_meaningful h₅).1 rfl⟩

/-- The load of the record has been committed when its store is sent. -/
theorem stall_record_lost : ∃ u : LSQUnit smallQueues, Reachable smallQueues (fun _ _ => True) u ∧ u.stalled = true ∧
      (¬ ∃ a j b, Recorded u a j b) ∧ ∃ c, u.Legal c ∧ u.perform c = .error .nullInstruction := by
  refine ⟨leftBehind, reachable_leftBehind, rfl, fun ⟨a, j, b, hr⟩ => ?_, .writebackStore true true, trivial, rfl⟩
  exact absurd hr.load.1 (by decide)

end LSQUnit

end Gem5.O3
