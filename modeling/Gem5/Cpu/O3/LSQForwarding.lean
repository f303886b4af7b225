import Gem5.Cpu.O3.LSQUnitRetire

/-!
# Store-to-load forwarding

Which store serves a load, in terms of the bytes they access: of the older stores that have not been sent, the
youngest one with bytes of the load. The eight comparisons of `read` decide just that, as long as no address
wraps around (`coverage_eq_none_iff`, `coverage_eq_full_iff`). In every run, a load is served as it should be, except that
it may find the record of a stalled load whose entry has been cleared (**`read_exact_iff`**).
-/

namespace Gem5.O3

open Lib

/-- The byte that a store writes to an address. -/
def StoreRequest.byteAt (request : StoreRequest) (x : ℕ) : BitVec 8 :=
  if request.isCacheBlockZero then 0 else request.data.getD (x - request.vaddr) 0

namespace LSQUnit

variable {p : LSQParams} {u u' : LSQUnit p} {i j : ℕ} {a : LoadEntry} {b : StoreEntry} {request : Request}
  {storeReq : StoreRequest} {result : ReadResult} {Q : LSQUnit p → Call → Prop}

/-! ### Bytes -/

/-- The store has a byte of the load. -/
def Overlaps (request : Request) (b : StoreEntry) : Prop :=
  ∃ x, request.vaddr ≤ x ∧ x < request.vaddr + request.size ∧ b.effAddr ≤ x ∧ x < b.effAddr + b.size

/-- The store has all bytes of the load, and can give them to it. -/
structure Serves (request : Request) (b : StoreEntry) (storeReq : StoreRequest) : Prop where
  lower : b.effAddr ≤ request.vaddr
  upper : request.vaddr + request.size ≤ b.effAddr + b.size
  isAtomic : b.isAtomic = false
  isMasked : storeReq.isMasked = false
  isLLSC : request.isLLSC = false

lemma overlaps_iff (hsize : b.size ≠ 0) :
    Overlaps request b ↔ request.vaddr < b.effAddr + b.size ∧ b.effAddr < request.vaddr + request.size := by
  have hpos := request.size_pos
  constructor
  · rintro ⟨x, h⟩
    omega
  · intro h
    by_cases hle : b.effAddr ≤ request.vaddr
    · exact ⟨request.vaddr, by omega⟩
    · exact ⟨b.effAddr, by omega⟩

section

variable (hr : request.vaddr + request.size < 2 ^ 64) (hb : b.effAddr + b.size < 2 ^ 64)
include hr hb

lemma coverage_eq_none_iff (hsize : b.size ≠ 0) :
    coverage request b storeReq = .noAddrRangeCoverage ↔ ¬ Overlaps request b := by
  have hpos := request.size_pos
  rw [overlaps_iff hsize]
  unfold coverage
  simp only [Nat.mod_eq_of_lt hr, Nat.mod_eq_of_lt hb]
  split_ifs with hfull hmasked hpart
  · grind
  · grind
  · grind
  · grind

lemma coverage_eq_full_iff : coverage request b storeReq = .fullAddrRangeCoverage ↔ Serves request b storeReq := by
  unfold coverage
  simp only [Nat.mod_eq_of_lt hr, Nat.mod_eq_of_lt hb]
  constructor
  · intro h
    split_ifs at h with hfull hmasked hpart
    simp only [Bool.and_eq_true, decide_eq_true_eq, Bool.not_eq_true'] at hfull
    exact ⟨hfull.1.1.2, hfull.1.2, hfull.1.1.1, by simpa using hmasked, hfull.2⟩
  · intro h
    rw [if_pos (by simp [h.isAtomic, h.lower, h.upper, h.isLLSC]), if_neg (by simp [h.isMasked])]

end

lemma forwarded_eq (h : Serves request b storeReq) (hw : Written b storeReq) (hmaint : storeReq.isCacheMaintenance = false) :
    forwarded request b = (List.range request.size).map fun k => storeReq.byteAt (request.vaddr + k) := by
  have hzero : b.isAllZeros = storeReq.isCacheBlockZero := by
    rw [hw.isAllZeros, StoreRequest.storeNoData, hmaint, Bool.or_false]
  unfold forwarded
  cases hblock : storeReq.isCacheBlockZero with
  | true =>
    rw [if_pos (hzero.trans hblock)]
    simp [StoreRequest.byteAt, hblock]
  | false =>
    rw [if_neg (by simp [hzero, hblock])]
    have hdata : b.data = storeReq.data :=
      hw.data (by simp [StoreRequest.storeNoData, hblock, hmaint]) h.isAtomic
    have hlength := storeReq.length_data
    have hlower := h.lower
    have hupper := h.upper
    rw [hw.effAddr] at hlower
    rw [hw.effAddr, hw.size] at hupper
    refine List.ext_getElem ?_ fun k hk hk' => ?_
    · grind [Written.effAddr]
    · simp only [List.length_map, List.length_range] at hk'
      have hbyte : storeReq.byteAt (request.vaddr + k) = storeReq.data.getD (request.vaddr - b.effAddr + k) 0 := by
        grind [StoreRequest.byteAt, Written.effAddr]
      grind

/-! ### What a load should get -/

/-- A store that the load has to look at: it is older, has not been sent, and has data for loads. -/
structure Candidate (u : LSQUnit p) (a : LoadEntry) (j : ℕ) (b : StoreEntry) (storeReq : StoreRequest) : Prop where
  has : u.storeQueue.Has j b
  unsent : u.storeWBIt ≤ j
  older : b.seqNum < a.seqNum
  considered : Considered b storeReq

/-- The youngest of them with bytes of the load. -/
structure YoungestOverlap (u : LSQUnit p) (a : LoadEntry) (request : Request) (j : ℕ) (b : StoreEntry)
    (storeReq : StoreRequest) : Prop where
  candidate : Candidate u a j b storeReq
  overlaps : Overlaps request b
  youngest : ∀ j' b' req', Candidate u a j' b' req' → Overlaps request b' → b'.seqNum ≤ b.seqNum

inductive Expected (u : LSQUnit p) (a : LoadEntry) (request : Request) : ReadResult → Prop
  /-- No store has bytes of it. -/
  | memory (h : ∀ j b storeReq, Candidate u a j b storeReq → ¬ Overlaps request b) : Expected u a request .memory
  /-- The youngest store with bytes of it serves it. -/
  | forward {j : ℕ} {b : StoreEntry} {storeReq : StoreRequest} (hy : YoungestOverlap u a request j b storeReq)
      (hs : Serves request b storeReq) :
      Expected u a request (.forward ((List.range request.size).map fun k => storeReq.byteAt (request.vaddr + k)))
  /-- The youngest store with bytes of it cannot serve it. -/
  | reschedule {j : ℕ} {b : StoreEntry} {storeReq : StoreRequest} (hy : YoungestOverlap u a request j b storeReq)
      (hs : ¬ Serves request b storeReq) : Expected u a request .reschedule

/-- An access by the load that is not special, with no address that wraps around. -/
structure Plain (u : LSQUnit p) (a : LoadEntry) (request : Request) : Prop where
  isDataPrefetch : a.isDataPrefetch = false
  isStrictlyOrdered : request.isStrictlyOrdered = false
  isLocalAccess : request.isLocalAccess = false
  load : request.vaddr + request.size < 2 ^ 64
  stores : ∀ j b, u.storeQueue.Has j b → b.effAddr + b.size < 2 ^ 64

lemma YoungestOverlap.unique {j' : ℕ} {b' : StoreEntry} {req' : StoreRequest} (h : Ok u)
    (hy : YoungestOverlap u a request j b storeReq) (hy' : YoungestOverlap u a request j' b' req') :
    b = b' ∧ storeReq = req' := by
  have hle := hy.youngest j' b' req' hy'.candidate hy'.overlaps
  have hle' := hy'.youngest j b storeReq hy.candidate hy.overlaps
  obtain rfl : j = j' := by
    rcases Nat.lt_trichotomy j j' with hlt | heq | hlt
    · have := h.stores_sorted j b j' b' hy.candidate.has hy'.candidate.has hlt
      omega
    · exact heq
    · have := h.stores_sorted j' b' j b hy'.candidate.has hy.candidate.has hlt
      omega
  obtain rfl := hy.candidate.has.eq hy'.candidate.has
  exact ⟨rfl, Option.some.inj (hy.candidate.considered.request.symm.trans hy'.candidate.considered.request)⟩

lemma Expected.unique {result' : ReadResult} (hok : Ok u) (h : Expected u a request result)
    (h' : Expected u a request result') : result = result' := by
  cases h with
  | memory hnone =>
    cases h' with
    | memory => rfl
    | forward hy => exact absurd hy.overlaps (hnone _ _ _ hy.candidate)
    | reschedule hy => exact absurd hy.overlaps (hnone _ _ _ hy.candidate)
  | forward hy hs =>
    cases h' with
    | memory hnone => exact absurd hy.overlaps (hnone _ _ _ hy.candidate)
    | forward hy' =>
      obtain ⟨-, rfl⟩ := hy.unique hok hy'
      rfl
    | reschedule hy' hs' => grind [YoungestOverlap.unique]
  | reschedule hy hs =>
    cases h' with
    | memory hnone => exact absurd hy.overlaps (hnone _ _ _ hy.candidate)
    | forward hy' hs' => grind [YoungestOverlap.unique]
    | reschedule => rfl

/-! ### What it gets -/

/-- The stores from `storeWBIt` to `sqIt` are the older ones that have not been sent. -/
lemma Ok.lt_sqIt_iff (h : Ok u) (ha : u.loadQueue.Has i a) (hb : u.storeQueue.Has j b) :
    j < a.sqIt ↔ b.seqNum < a.seqNum := by
  refine ⟨h.older_store i a j b ha hb, fun hlt => ?_⟩
  by_contra hle
  have := h.younger_store i a j b ha hb (Nat.not_lt.mp hle)
  omega

lemma Candidate.considered_iff (h : Ok u) (ha : u.loadQueue.Has i a) :
    Candidate u a j b storeReq ↔ u.storeQueue.Has j b ∧ u.storeWBIt ≤ j ∧ j < a.sqIt ∧ Considered b storeReq := by
  constructor
  · intro hc
    exact ⟨hc.has, hc.unsent, (h.lt_sqIt_iff ha hc.has).mpr hc.older, hc.considered⟩
  · rintro ⟨hb, hle, hlt, hcon⟩
    exact ⟨hb, hle, (h.lt_sqIt_iff ha hb).mp hlt, hcon⟩

lemma Plain.searchTop (h : Plain u a request) : u.searchTop a = a.sqIt := by
  rw [LSQUnit.searchTop, h.isDataPrefetch]
  rfl

lemma Youngest.overlap (h : Ok u) (ha : u.loadQueue.Has i a) (hp : Plain u a request)
    (hy : Youngest u request a.sqIt j b storeReq) : YoungestOverlap u a request j b storeReq := by
  have hsize {j' : ℕ} {b' : StoreEntry} {req' : StoreRequest} (hc : Candidate u a j' b' req') :
      coverage request b' req' = .noAddrRangeCoverage ↔ ¬ Overlaps request b' :=
    coverage_eq_none_iff hp.load (hp.stores j' b' hc.has) hc.considered.size
  have hc : Candidate u a j b storeReq := (Candidate.considered_iff h ha).mpr ⟨hy.has, hy.unsent, hy.lt_top, hy.considered⟩
  refine ⟨hc, Classical.not_not.mp ((hsize hc).not.mp hy.covers), fun j' b' req' hc' hover => ?_⟩
  by_contra hlt
  -- A younger one would have been found first.
  have hjj' : j < j' := by
    rcases Nat.lt_trichotomy j j' with hjj' | rfl | hjj'
    · exact hjj'
    · exact absurd (Nat.le_of_eq (congrArg (·.seqNum) (hc'.has.eq hy.has))) hlt
    · have := h.stores_sorted j' b' j b hc'.has hy.has hjj'
      omega
  exact (hsize hc').mp (hy.youngest j' b' req' hc'.has hjj' ((h.lt_sqIt_iff ha hc'.has).mpr hc'.older) hc'.considered) hover

/-- What `read` makes of what it has found is what the load should get. -/
lemma Found.expected {r : Option (StoreEntry × AddrRangeCoverage)} (h : Ok u) (ha : u.loadQueue.Has i a)
    (hp : Plain u a request) (hr : Found u request a.sqIt r) : Expected u a request (resultOf request r) := by
  match r, hr with
  | none, hr =>
    refine .memory fun j b storeReq hc => ?_
    obtain ⟨hb, hle, hlt, hcon⟩ := (Candidate.considered_iff h ha).mp hc
    exact (coverage_eq_none_iff hp.load (hp.stores j b hb) hcon.size).mp (hr j b storeReq hb hle hlt hcon)
  | some (b, cover), ⟨j, storeReq, hy, hcover⟩ =>
    have hfull : coverage request b storeReq = .fullAddrRangeCoverage ↔ Serves request b storeReq :=
      coverage_eq_full_iff hp.load (hp.stores j b hy.has)
    rw [hcover] at hfull
    cases cover with
    | fullAddrRangeCoverage =>
      have hs := hfull.mp rfl
      obtain ⟨req, hw⟩ := h.written j b hy.has hy.considered.size
      obtain rfl : req = storeReq := Option.some.inj (hw.request_eq.symm.trans hy.considered.request)
      rw [resultOf, forwarded_eq hs hw hy.considered.isCacheMaintenance]
      exact .forward (hy.overlap h ha hp) hs
    | partialAddrRangeCoverage => exact .reschedule (hy.overlap h ha hp) fun hs => nomatch hfull.mpr hs
    | noAddrRangeCoverage => exact absurd hcover hy.covers

/-- **Store-to-load forwarding is exact**, with one exception. A load that has not been executed looks at the older
stores that have not been sent; it gets what it should, and only a load that goes to memory has packets under way. The
exception is a load that has to be rescheduled when the record of a stalled load is that of a cleared entry: then
`read` uses the instruction of that entry. -/
theorem read_exact_iff (h : Reachable p Q u) (ha : u.loadQueue.Has i a) (hex : a.executed = false) (hp : Plain u a request) :
    (u.storeWBIt ≤ a.sqIt ∧ a.sqIt ≤ u.storeQueue.last ∧
      ∀ j b, u.storeQueue.Has j b → (j < a.sqIt ↔ b.seqNum < a.seqNum)) ∧
    ∃ result, Expected u a request result ∧ (∀ result', Expected u a request result' → result' = result) ∧
      ((∃ u' a', u.read request i = .ok (result, u') ∧ u'.loadQueue.Has i a' ∧ a'.response = responseOf result) ↔
        (result = .reschedule → ¬ u.NullStalling)) := by
  have hok := h.ok
  refine ⟨⟨hok.storeWBIt_le i a ha hex, hok.sqIt_le i a ha, fun j b hb => hok.lt_sqIt_iff ha hb⟩, ?_⟩
  obtain ⟨r, -, hr⟩ := exists_found hok ha hex request
  rw [hp.searchTop] at hr
  have hexp := hr.expected hok ha hp
  refine ⟨_, hexp, fun result' h' => h'.unique hok hexp, fun ⟨u', a', hread, _⟩ hres => ?_, fun hcond => ?_⟩
  · have hstep := (read_sat (E := fun _ => True) hok ha hex fun _ _ => trivial).of_ok hread
    obtain ⟨j, b, storeReq, -, ⟨-, -, c, hslot, -⟩ | ⟨-, hnot⟩⟩ := hstep.stalls hres
    · rintro ⟨-, hnone⟩
      rw [hslot] at hnone
      cases hnone
    · exact hnot
  · have hsat : Sat (fun _ => False) (fun r => ReadStep u i a request r.1 r.2) (u.read request i) := by
      refine read_sat hok ha hex fun hfound hnull => ?_
      obtain ⟨r', hr', hres'⟩ := hfound
      rw [hp.searchTop] at hr'
      rw [← (hr'.expected hok ha hp).unique hok hexp] at hcond
      exact hcond hres' hnull
    obtain ⟨⟨result, u'⟩, hread, hstep⟩ := hsat.exists_ok
    obtain ⟨r', hr', hres'⟩ := hstep.found hp.isStrictlyOrdered hp.isLocalAccess
    rw [hp.searchTop] at hr'
    obtain ⟨a', ha', -, hresponse, -⟩ := hstep.entry
    have heq : result = resultOf request r := hres'.trans ((hr'.expected hok ha hp).unique hok hexp)
    exact ⟨u', a', heq ▸ hread, ha', heq ▸ hresponse⟩

/-! ### A record that is left behind -/

def smallQueues : LSQParams where
  lqEntries := 4
  sqEntries := 4
  depCheckShift := 4
  checkLoads := false
  needsTSO := false
  dataSize := 8

/-- A load of `size` bytes. -/
def loadOf (vaddr size : ℕ) (h : 0 < size) : Request where
  vaddr := vaddr
  size := size
  size_pos := h

/-- A store of `size` bytes. -/
def storeOf (vaddr size : ℕ) (h : 0 < size) : StoreRequest where
  vaddr := vaddr
  size := size
  size_pos := h
  data := List.replicate size 0
  length_data := by simp

/-- The first store has a part of the load, which is stalled. The second one, which is executed later, has all of it, and
serves the load when it is replayed. The load is committed before the first store is sent. -/
def leaveRecord : List Call :=
  [.insertStore { seqNum := 1 }, .insertStore { seqNum := 2 }, .insertLoad { seqNum := 3 },
    .executeStore 1 (.access (storeOf 0 4 (by decide))), .executeLoad 1 (.access (loadOf 0 8 (by decide)) false),
    .executeStore 2 (.access (storeOf 0 8 (by decide))), .executeLoad 1 (.access (loadOf 0 8 (by decide)) false),
    .writeback 1, .commit 3]

/-- Another load, which the second store has a part of. -/
def nextLoad : LoadEntry := { seqNum := 4, sqIt := 3 }

/-- The store of `request` after it has been committed. -/
def committedStore (seqNum : ℕ) (request : StoreRequest) : StoreEntry :=
  { writtenBy request { seqNum, lqIt := 1 } with canWB := true }

/-- The unit with the record that is left, and another load. -/
def leftBehind : LSQUnit smallQueues where
  loadQueue := { head := 2, entries := [nextLoad], length_le := by decide }
  storeQueue :=
    { entries := [committedStore 1 (storeOf 0 4 (by decide)), committedStore 2 (storeOf 0 8 (by decide))], length_le := by decide }
  storesToWB := 2
  stalled := true
  stallingStoreIsn := 1
  stallingLoadIdx := 1

lemma reachable_leftBehind : Reachable smallQueues (fun _ _ => True) leftBehind :=
  Reachable.start.run (leaveRecord ++ [.insertLoad { seqNum := 4 }]) rfl

lemma has_nextLoad : leftBehind.loadQueue.Has 2 nextLoad := ⟨Nat.le_refl _, rfl⟩

lemma plain_nextLoad : Plain leftBehind nextLoad (loadOf 4 8 (by decide)) where
  isDataPrefetch := rfl
  isStrictlyOrdered := rfl
  isLocalAccess := rfl
  load := by decide
  stores j b hb := by
    rcases List.mem_pair.mp hb.mem with rfl | rfl <;> decide

lemma expected_nextLoad : Expected leftBehind nextLoad (loadOf 4 8 (by decide)) .reschedule := by
  have hcand : Candidate leftBehind nextLoad 2 (committedStore 2 (storeOf 0 8 (by decide))) (storeOf 0 8 (by decide)) :=
    ⟨⟨by decide, rfl⟩, by decide, by decide, ⟨by decide, rfl, rfl, rfl⟩⟩
  refine .reschedule ⟨hcand, ⟨4, by decide⟩, fun j b req hc _ => ?_⟩ fun hs => ?_
  · rcases List.mem_pair.mp hc.has.mem with rfl | rfl <;> decide
  · exact absurd hs.upper (by decide)

/-- The load is not rescheduled: `read` uses the entry of the load that has been committed. -/
theorem read_null : ∃ (u : LSQUnit smallQueues) (a : LoadEntry) (request : Request),
      Reachable smallQueues (fun _ _ => True) u ∧ u.loadQueue.Has 2 a ∧ a.executed = false ∧ Plain u a request ∧
        Expected u a request .reschedule ∧ u.read request 2 = .error .nullInstruction :=
  ⟨_, _, _, reachable_leftBehind, has_nextLoad, rfl, plain_nextLoad, expected_nextLoad, rfl⟩

/-- The same load, which goes by the exception. -/
theorem read_exact_iff_nextLoad : ∃ result, Expected leftBehind nextLoad (loadOf 4 8 (by decide)) result ∧
      ((∃ u' a', leftBehind.read (loadOf 4 8 (by decide)) 2 = .ok (result, u') ∧ u'.loadQueue.Has 2 a' ∧
        a'.response = responseOf result) ↔ (result = .reschedule → ¬ leftBehind.NullStalling)) := by
  obtain ⟨-, result, hexp, -, hiff⟩ := read_exact_iff reachable_leftBehind has_nextLoad rfl plain_nextLoad
  exact ⟨result, hexp, hiff⟩

/-! ### The order of stores -/

/-- **Stores are sent in program order, and after the loads before them.** In every state of a run, a store that has been
sent is older than one that has not; and while a load has not been executed, no younger store can be written back, so
that none has been sent or is complete. -/
theorem stores_sent_in_order (h : Reachable p Q u) : (∀ j b j' b', u.storeQueue.Has j b → u.storeQueue.Has j' b' →
      j < u.storeWBIt → u.storeWBIt ≤ j' → b.seqNum < b'.seqNum) ∧
    ∀ i a j b, u.loadQueue.Has i a → u.storeQueue.Has j b → a.seqNum < b.seqNum → a.executed = false →
      b.canWB = false ∧ u.storeWBIt ≤ j ∧ b.completed = false := by
  have hok := h.ok
  refine ⟨fun j b j' b' hb hb' hj hj' => hok.stores_sorted j b j' b' hb hb' (hj.trans_le hj'),
    fun i a j b ha hb hlt hex => ?_⟩
  have hcan : b.canWB = false := by
    by_contra hcan
    rw [Bool.not_eq_false] at hcan
    exact absurd (hok.executed i a j b ha hb hcan hlt) (by simp [hex])
  have hle : u.storeWBIt ≤ j := by
    by_contra hj
    exact absurd (hok.canWB_of_lt j b hb (not_le.mp hj)) (by simp [hcan])
  exact ⟨hcan, hle, hok.completed_of_le j b hb hle⟩

/-- A load, and a store after it. -/
theorem stores_sent_in_order_two : ∃ u : LSQUnit smallQueues, Reachable smallQueues (fun _ _ => True) u ∧ u.storeWBIt ≤ 1 := by
  have hreach := Reachable.start.run (p := smallQueues) [.insertLoad { seqNum := 1 }, .insertStore { seqNum := 2 }] rfl
  exact ⟨_, hreach, ((stores_sent_in_order hreach).2 1 _ 1 _ ⟨le_rfl, rfl⟩ ⟨le_rfl, rfl⟩ (by decide) rfl).2.1⟩

end LSQUnit

end Gem5.O3
