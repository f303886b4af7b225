import Gem5.Lib.CircularQueue
import Gem5.Lib.Except

/-!
# The load/store queue

`cpu/o3/lsq_unit.cc`: the loads and the stores of a thread, each in a circular queue. A load is executed when its
address is known; it looks for its data in the older stores that have not been sent to memory, waits for such
a store if it cannot be served by it (`stalled`), or goes to memory. A store is executed when its address
is known, and looks for younger loads that have gone ahead of it (`memDepViolator`). Loads leave the queue when
they are committed, stores when they have been written back.

What the pipeline, the translation and the memory system do is an argument of the call that meets it
(`LoadAccess`, `StoreAccess`, the answers of `writebackStore`). The entries hold what the unit reads of their
instruction and their request. The bytes that an earlier store has left in the array are not kept: nothing
reads them. Hardware transactions, statistics and the local accessors are left out.
-/

namespace Gem5.O3

open Lib

/-- What `read` and `write` see of `mainReq()`. -/
structure Request where
  /-- `getVaddr()`. -/
  vaddr : ℕ
  /-- `getSize()`, which is `_size` of the request as well. -/
  size : ℕ
  size_pos : 0 < size
  isLLSC : Bool := false
  isStrictlyOrdered : Bool := false
  isLocalAccess : Bool := false
  deriving DecidableEq, Repr

structure StoreRequest extends Request where
  isRelease : Bool := false
  isMasked : Bool := false
  isCacheMaintenance : Bool := false
  /-- The flag `CACHE_BLOCK_ZERO`. -/
  isCacheBlockZero : Bool := false
  /-- The data given to `write`. -/
  data : List (BitVec 8)
  length_data : data.length = size
  deriving DecidableEq, Repr

/-- One of the flags of `STORE_NO_DATA`. -/
def StoreRequest.storeNoData (request : StoreRequest) : Bool := request.isCacheBlockZero || request.isCacheMaintenance

structure LoadInst where
  seqNum : ℕ
  isDataPrefetch : Bool := false
  deriving DecidableEq, Repr

/-- What is under way for a load that has accessed memory or a store. -/
inductive Response where
  | idle
  /-- Packets have been sent, or will be sent when the cache accepts them. -/
  | inFlight
  /-- A `WritebackEvent` has been scheduled. -/
  | scheduled
  deriving DecidableEq, Repr

/-- `LQEntry`, with its instruction. -/
structure LoadEntry extends LoadInst where
  sqIt : ℕ
  executed : Bool := false
  effAddrValid : Bool := false
  effAddr : ℕ := 0
  effSize : ℕ := 0
  strictlyOrdered : Bool := false
  hitExternalSnoop : Bool := false
  possibleLoadViolation : Bool := false
  atCommit : Bool := false
  hasRequest : Bool := false
  response : Response := .idle
  deriving DecidableEq, Repr

structure StoreInst where
  seqNum : ℕ
  isAtomic : Bool := false
  isStoreConditional : Bool := false
  isDataPrefetch : Bool := false
  deriving DecidableEq, Repr

/-- `SQEntry`, with its instruction. -/
structure StoreEntry extends StoreInst where
  lqIt : ℕ
  effAddrValid : Bool := false
  effAddr : ℕ := 0
  effSize : ℕ := 0
  strictlyOrdered : Bool := false
  request : Option StoreRequest := none
  size : ℕ := 0
  data : List (BitVec 8) := []
  canWB : Bool := false
  committed : Bool := false
  completed : Bool := false
  isAllZeros : Bool := false
  deriving DecidableEq, Repr

inductive LSQFault where
  /-- `assert(!loadQueue.full())`. -/
  | queueFull
  /-- The instruction of a cleared entry is used. -/
  | nullInstruction
  /-- `assert(!load_inst->isExecuted())`. -/
  | executed
  /-- `assert(store_it >= storeWBIt)`, or a loop over the queue that starts behind its end. -/
  | badIterator
  /-- `assert(store_it->instruction()->seqNum < load_inst->seqNum)`. -/
  | youngerStore
  /-- `assert(store_it->instruction()->effAddrValid())`. -/
  | noAddress
  /-- The request of an entry without one is used. -/
  | noRequest
  /-- `panic("Should not check one of these")`. -/
  | completedStore
  /-- `assert(storeQueue.size() != 0)`. -/
  | noStores
  /-- `assert(store_fault == NoFault)`. -/
  | storeFault
  /-- `assert(size <= SQEntry::DataSize || store_no_data)`. -/
  | dataTooLong
  /-- `assert(!storeWBIt->committed())`. -/
  | committed
  /-- `assert(!inst->isStoreConditional())` of a local access. -/
  | localStoreConditional
  /-- `assert(isStoreBlocked)`. -/
  | notBlocked
  /-- `panic("Is stalled should have been cleared by stalling load!")`. -/
  | stillStalled
  deriving DecidableEq, Repr

structure LSQParams where
  lqEntries : ℕ
  sqEntries : ℕ
  depCheckShift : ℕ
  checkLoads : Bool
  needsTSO : Bool
  /-- `SQEntry::DataSize`. -/
  dataSize : ℕ

/-- `LSQUnit`. -/
structure LSQUnit (p : LSQParams) where
  loadQueue : CircularQueue LoadEntry p.lqEntries := {}
  storeQueue : CircularQueue StoreEntry p.sqEntries := {}
  storeWBIt : ℕ := 1
  storesToWB : ℤ := 0
  isStoreBlocked : Bool := false
  storeInFlight : Bool := false
  stalled : Bool := false
  stallingStoreIsn : ℕ := 0
  stallingLoadIdx : ℕ := 0
  memDepViolator : Option LoadEntry := none

/-- What a load gets from `read`. -/
inductive ReadResult where
  /-- It is rescheduled because it is strictly ordered and not at commit. -/
  | strictlyOrdered
  | localAccess
  /-- It gets the data of a store. -/
  | forward (data : List (BitVec 8))
  /-- It is rescheduled because of a store that cannot serve it. -/
  | reschedule
  | memory
  deriving DecidableEq, Repr

/-- `AddrRangeCoverage`. -/
inductive AddrRangeCoverage where
  | partialAddrRangeCoverage
  | fullAddrRangeCoverage
  | noAddrRangeCoverage
  deriving DecidableEq, Repr

namespace LSQUnit

variable {p : LSQParams}

def setLoad (i : ℕ) (f : LoadEntry → LoadEntry) (u : LSQUnit p) : LSQUnit p :=
  { u with loadQueue := u.loadQueue.modify i f }

def setStore (i : ℕ) (f : StoreEntry → StoreEntry) (u : LSQUnit p) : LSQUnit p :=
  { u with storeQueue := u.storeQueue.modify i f }

/-- `loadQueue[idx]`, whose instruction is used. -/
def load (u : LSQUnit p) (i : ℕ) : Except LSQFault LoadEntry :=
  match u.loadQueue.slot i with
  | none => .error .nullInstruction
  | some load => .ok load

/-- `storeQueue[idx]`, whose instruction is used. -/
def store (u : LSQUnit p) (i : ℕ) : Except LSQFault StoreEntry :=
  match u.storeQueue.slot i with
  | none => .error .nullInstruction
  | some store => .ok store

/-! ### Insertion -/

/-- `insertLoad(load_inst)`. -/
def insertLoad (inst : LoadInst) (u : LSQUnit p) : Except LSQFault (LSQUnit p) :=
  match u.loadQueue.push { inst with sqIt := u.storeQueue.last } with
  | none => .error .queueFull
  | some loadQueue => .ok { u with loadQueue }

/-- `insertStore(store_inst)`. -/
def insertStore (inst : StoreInst) (u : LSQUnit p) : Except LSQFault (LSQUnit p) :=
  match u.storeQueue.push { inst with lqIt := u.loadQueue.last } with
  | none => .error .queueFull
  | some storeQueue => .ok { u with storeQueue }

/-! ### Violations -/

/-- The granules of the first and of the last byte of an access, `effAddr >> depCheckShift` and
`(effAddr + effSize - 1) >> depCheckShift`. -/
def granules (p : LSQParams) (effAddr effSize : ℕ) : ℕ × ℕ :=
  (effAddr >>> p.depCheckShift, ((effAddr + effSize - 1) % 2 ^ 64) >>> p.depCheckShift)

/-- The test of `checkViolations` that two accesses meet. -/
def meets (g g' : ℕ × ℕ) : Bool := decide (g'.1 ≤ g.2) && decide (g.1 ≤ g'.2)

/-- `checkViolations(loadIt, inst)` for `n` loads from `loadIt` on, of a load or a store with the granules `g`. -/
def checkViolationsLoop (isLoad : Bool) (g : ℕ × ℕ) : ℕ → ℕ → LSQUnit p → Except LSQFault (LSQUnit p)
  | 0, _, u => .ok u
  | n + 1, loadIt, u => do
    let ld ← u.load loadIt
    if !ld.effAddrValid || ld.strictlyOrdered then checkViolationsLoop isLoad g n (loadIt + 1) u
    else if meets g (granules p ld.effAddr ld.effSize) then
      if isLoad then
        if ld.hitExternalSnoop && u.memDepViolator.all (fun v => decide (ld.seqNum < v.seqNum)) then
          pure { u with memDepViolator := some ld }
        else
          checkViolationsLoop isLoad g n (loadIt + 1) (u.setLoad loadIt fun ld => { ld with possibleLoadViolation := true })
      else if u.memDepViolator.any (fun v => decide (v.seqNum < ld.seqNum)) then pure u
      else pure { u with memDepViolator := some ld }
    else checkViolationsLoop isLoad g n (loadIt + 1) u

/-- `checkViolations(loadIt, inst)`: the loads from `loadIt` to the end of the queue. -/
def checkViolations (isLoad : Bool) (g : ℕ × ℕ) (loadIt : ℕ) (u : LSQUnit p) : Except LSQFault (LSQUnit p) := do
  ensure (decide (loadIt ≤ u.loadQueue.last)) .badIterator
  checkViolationsLoop isLoad g (u.loadQueue.last - loadIt) loadIt u

/-- `getMemDepViolator()`. -/
def getMemDepViolator (u : LSQUnit p) : LSQUnit p := { u with memDepViolator := none }

/-- The loop of `checkSnoop` over the loads behind the first, where `hit` says which of them the snoop hits. A
load that is marked for re-execution keeps its entry. -/
def snoopLoop (needsTSO : Bool) (hit : LoadEntry → Bool) : Bool → List LoadEntry → List LoadEntry
  | _, [] => []
  | forceSquash, ld :: rest =>
    if !ld.effAddrValid || ld.strictlyOrdered || !ld.hasRequest then ld :: snoopLoop needsTSO hit forceSquash rest
    else if forceSquash || hit ld then
      let forceSquash := forceSquash || needsTSO
      (if ld.possibleLoadViolation || forceSquash then ld else { ld with hitExternalSnoop := true }) ::
        snoopLoop needsTSO hit forceSquash rest
    else ld :: snoopLoop needsTSO hit forceSquash rest

lemma length_snoopLoop (needsTSO : Bool) (hit : LoadEntry → Bool) (force : Bool) (l : List LoadEntry) :
    (snoopLoop needsTSO hit force l).length = l.length := by
  induction l generalizing force with
  | nil => rfl
  | cons ld rest ih =>
    rw [snoopLoop]
    split_ifs <;> simp [ih]

/-- `checkSnoop(pkt)`. -/
def checkSnoop (hit : LoadEntry → Bool) (u : LSQUnit p) : LSQUnit p :=
  { u with
    loadQueue :=
      { head := u.loadQueue.head
        entries := u.loadQueue.entries.take 1 ++ snoopLoop p.needsTSO hit false (u.loadQueue.entries.drop 1)
        length_le := by grind [CircularQueue.length_le, length_snoopLoop] } }

/-! ### Loads -/

/-- How a store covers the bytes of a load. -/
def coverage (request : Request) (store : StoreEntry) (storeReq : StoreRequest) : AddrRangeCoverage :=
  let reqS := request.vaddr
  let reqE := (reqS + request.size) % 2 ^ 64
  let stS := store.effAddr
  let stE := (stS + store.size) % 2 ^ 64
  let storeHasLowerLimit := decide (stS ≤ reqS)
  let storeHasUpperLimit := decide (reqE ≤ stE)
  let lowerLoadHasStorePart := decide (reqS < stE)
  let upperLoadHasStorePart := decide (stS < reqE)
  if !store.isAtomic && storeHasLowerLimit && storeHasUpperLimit && !request.isLLSC then
    if storeReq.isMasked then .partialAddrRangeCoverage else .fullAddrRangeCoverage
  else if
      (!request.isLLSC &&
        ((storeHasLowerLimit && lowerLoadHasStorePart) || (storeHasUpperLimit && upperLoadHasStorePart) ||
          (lowerLoadHasStorePart && upperLoadHasStorePart))) ||
      (request.isLLSC &&
        ((storeHasLowerLimit || upperLoadHasStorePart) && (storeHasUpperLimit || lowerLoadHasStorePart))) ||
      (store.isAtomic &&
        ((storeHasLowerLimit || upperLoadHasStorePart) && (storeHasUpperLimit || lowerLoadHasStorePart))) then
    .partialAddrRangeCoverage
  else .noAddrRangeCoverage

/-- The loop of `read` over the stores, for the `n` stores from `storeWBIt` on that are left: the youngest of them
that covers bytes of the load. -/
def findStore (request : Request) (load : LoadEntry) (u : LSQUnit p) :
    ℕ → Except LSQFault (Option (StoreEntry × AddrRangeCoverage))
  | 0 => .ok none
  | n + 1 => do
    let store ← u.store (u.storeWBIt + n)
    ensure (decide (store.seqNum < load.seqNum)) .youngerStore
    if store.size != 0 && !store.strictlyOrdered then
      match store.request with
      | none => .error .noRequest
      | some storeReq =>
        if storeReq.isCacheMaintenance then findStore request load u n
        else do
          ensure store.effAddrValid .noAddress
          match coverage request store storeReq with
          | .noAddrRangeCoverage => findStore request load u n
          | cover => pure (some (store, cover))
    else findStore request load u n

/-- The data of a store that covers the load. -/
def forwarded (request : Request) (store : StoreEntry) : List (BitVec 8) :=
  if store.isAllZeros then List.replicate request.size 0
  else (store.data.drop (request.vaddr - store.effAddr)).take request.size

/-- The load has to wait for the store, and is recorded unless an older load is. -/
def stall (load : LoadEntry) (loadIdx : ℕ) (store : StoreEntry) (u : LSQUnit p) : Except LSQFault (LSQUnit p) := do
  let u' := { u with stalled := true, stallingStoreIsn := store.seqNum, stallingLoadIdx := loadIdx }
  if u.stalled then do
    let stalling ← u.load u.stallingLoadIdx
    pure (if load.seqNum < stalling.seqNum then u' else u)
  else pure u'

/-- The load is rescheduled, and its request discarded. -/
def reschedule (loadIdx : ℕ) (u : LSQUnit p) : LSQUnit p :=
  u.setLoad loadIdx fun load => { load with effAddrValid := false, hasRequest := false, response := .idle }

/-- `read(request, load_idx)`. -/
def read (request : Request) (loadIdx : ℕ) (u : LSQUnit p) : Except LSQFault (ReadResult × LSQUnit p) := do
  let load ← u.load loadIdx
  ensure (!load.executed) .executed
  if request.isStrictlyOrdered && (loadIdx != u.loadQueue.head || !load.atCommit) then
    pure (.strictlyOrdered, u.reschedule loadIdx)
  else if request.isLocalAccess then
    pure (.localAccess, u.setLoad loadIdx fun load => { load with hasRequest := true, response := .scheduled })
  else do
    ensure (decide (u.storeWBIt ≤ load.sqIt)) .badIterator
    match ← findStore request load u (if load.isDataPrefetch then 0 else load.sqIt - u.storeWBIt) with
    | some (store, .fullAddrRangeCoverage) =>
      -- The packets of an earlier execution are discarded with the request.
      pure (.forward (forwarded request store), u.setLoad loadIdx fun load =>
        { load with hasRequest := load.response != .inFlight, response := .scheduled })
    | some (store, _) => do
      ensure (!store.completed) .completedStore
      let u ← u.stall load loadIdx store
      pure (.reschedule, u.reschedule loadIdx)
    | none =>
      pure (.memory, u.setLoad loadIdx fun load => { load with hasRequest := true, response := .inFlight })

/-- How `initiateAcc()` of a load ends. -/
inductive LoadAccess where
  /-- The translation is delayed, and the load will be executed again. -/
  | delayed
  /-- The load faults or is predicated off, after a translation that has found it strictly ordered or not. -/
  | stopped (strictlyOrdered : Bool)
  /-- No access is required, `readMemAccPredicate()` is false. -/
  | notRequired
  /-- `read` is called; the translation of a part of it may have failed. -/
  | access (request : Request) (partialFault : Bool)

/-- The load goes to commit. A strictly ordered load is executed only there. -/
def stopLoad (i : ℕ) (u : LSQUnit p) : LSQUnit p :=
  u.setLoad i fun load => { load with executed := load.executed || !load.strictlyOrdered || load.atCommit }

/-- `executeLoad(inst)`. -/
def executeLoad (i : ℕ) (acc : LoadAccess) (u : LSQUnit p) : Except LSQFault (LSQUnit p) := do
  let load ← u.load i
  if load.executed then pure u
  else
    match acc with
    | .delayed => pure u
    | .stopped strictlyOrdered => pure ((u.setLoad i fun load => { load with strictlyOrdered }).stopLoad i)
    | .notRequired => pure (u.setLoad i fun load => { load with executed := true })
    | .access request partialFault => do
      let (result, u) ← (u.setLoad i fun load =>
        { load with
          effAddr := request.vaddr, effSize := request.size, effAddrValid := true
          strictlyOrdered := request.isStrictlyOrdered }).read request i
      if partialFault then pure u
      else if result = .strictlyOrdered then pure (u.stopLoad i)
      else do
        let load ← u.load i
        if load.effAddrValid && p.checkLoads then
          u.checkViolations true (granules p load.effAddr load.effSize) (i + 1)
        else pure u

/-- `writeback(inst, pkt)` of a load. -/
def writeback (i : ℕ) (u : LSQUnit p) : LSQUnit p :=
  u.setLoad i fun load => { load with executed := true, response := .idle }

/-- `setAtCommit()` of a strictly ordered load at the head of the reorder buffer. -/
def setAtCommit (i : ℕ) (u : LSQUnit p) : LSQUnit p := u.setLoad i fun load => { load with atCommit := true }

/-- `commitLoads(youngest_inst)`. -/
def commitLoads (youngestInst : ℕ) (u : LSQUnit p) : LSQUnit p :=
  { u with
    loadQueue := u.loadQueue.dropFront
      (u.loadQueue.entries.takeWhile fun load => decide (load.seqNum ≤ youngestInst)).length }

/-! ### Stores -/

/-- How `initiateAcc()` of a store ends. -/
inductive StoreAccess where
  /-- The translation is delayed, and the store will be executed again. -/
  | delayed
  | predicatedOff
  /-- The store faults, or no access is required. -/
  | notWritten (fault : Bool)
  /-- `write` is called. -/
  | access (request : StoreRequest)

/-- `write(request, data, store_idx)`. -/
def write (request : StoreRequest) (i : ℕ) (u : LSQUnit p) : Except LSQFault (LSQUnit p) := do
  let _ ← u.store i
  ensure (decide (request.size ≤ p.dataSize) || request.storeNoData) .dataTooLong
  pure (u.setStore i fun store =>
    { store with
      request := some request
      size := request.size
      isAllZeros := request.storeNoData
      data :=
        if !request.isCacheBlockZero && !request.isCacheMaintenance && !store.isAtomic then request.data
        else store.data })

/-- What is left of `executeStore` when the store has its data. -/
def finishStore (i : ℕ) (u : LSQUnit p) : Except LSQFault (LSQUnit p) := do
  let store ← u.store i
  let u :=
    if store.isStoreConditional || store.isAtomic then
      { u.setStore i (fun store => { store with canWB := true }) with storesToWB := u.storesToWB + 1 }
    else u
  u.checkViolations false (granules p store.effAddr store.effSize) store.lqIt

/-- `executeStore(store_inst)`. -/
def executeStore (i : ℕ) (acc : StoreAccess) (u : LSQUnit p) : Except LSQFault (LSQUnit p) := do
  ensure (u.storeQueue.entries.length != 0) .noStores
  let store ← u.store i
  match acc with
  | .delayed => pure u
  | .predicatedOff => pure u
  | .notWritten fault =>
    if store.size = 0 then pure u
    else do
      ensure (!fault) .storeFault
      u.finishStore i
  | .access request => do
    let u ← (u.setStore i fun store =>
      { store with
        effAddr := request.vaddr, effSize := request.size, effAddrValid := true
        strictlyOrdered := request.isStrictlyOrdered }).write request i
    u.finishStore i

/-- The loop of `commitStores` over the stores, and how many have been marked. -/
def commitStoresLoop (youngestInst : ℕ) : List StoreEntry → List StoreEntry × ℕ
  | [] => ([], 0)
  | x :: rest =>
    if x.canWB then
      let (rest, n) := commitStoresLoop youngestInst rest
      (x :: rest, n)
    else if youngestInst < x.seqNum then (x :: rest, 0)
    else
      let (rest, n) := commitStoresLoop youngestInst rest
      ({ x with canWB := true } :: rest, n + 1)

lemma length_commitStoresLoop (youngestInst : ℕ) (l : List StoreEntry) :
    (commitStoresLoop youngestInst l).1.length = l.length := by
  induction l with
  | nil => rfl
  | cons x rest ih =>
    rw [commitStoresLoop]
    split_ifs <;> simp [ih]

/-- `commitStores(youngest_inst)`. -/
def commitStores (youngestInst : ℕ) (u : LSQUnit p) : LSQUnit p :=
  { u with
    storeQueue :=
      { head := u.storeQueue.head
        entries := (commitStoresLoop youngestInst u.storeQueue.entries).1
        length_le := by rw [length_commitStoresLoop]; exact u.storeQueue.length_le }
    storesToWB := u.storesToWB + (commitStoresLoop youngestInst u.storeQueue.entries).2 }

/-- The record of a stalled load is taken back when its store is done, and the waiting loads are replayed. -/
def unstall (seqNum : ℕ) (u : LSQUnit p) : Except LSQFault (LSQUnit p) :=
  if u.stalled && seqNum == u.stallingStoreIsn then do
    -- `replayMemInst` is given the instruction of this entry.
    let _ ← u.load u.stallingLoadIdx
    pure { u with stalled := false, stallingStoreIsn := 0 }
  else pure u

/-- `storePostSend()`. -/
def storePostSend (u : LSQUnit p) : Except LSQFault (LSQUnit p) := do
  let store ← u.store u.storeWBIt
  let u ← u.unstall store.seqNum
  pure { u with storeInFlight := u.storeInFlight || p.needsTSO, storeWBIt := u.storeWBIt + 1 }

/-- The first store leaves the queue if it is the one with the number `i`, which is complete, and those behind it as
far as they are complete. -/
def retireFront {n : ℕ} (i : ℕ) (q : CircularQueue StoreEntry n) : CircularQueue StoreEntry n :=
  if i = q.head then q.dropFront (1 + (q.entries.tail.takeWhile (·.completed)).length) else q

/-- `completeStore(store_idx)`. -/
def completeStore (i : ℕ) (u : LSQUnit p) : Except LSQFault (LSQUnit p) := do
  let store ← u.store i
  let storeQueue := retireFront i (u.storeQueue.modify i fun store => { store with completed := true })
  let u ← { u with storeQueue, storesToWB := u.storesToWB - 1 }.unstall store.seqNum
  pure { u with storeInFlight := u.storeInFlight && !p.needsTSO }

/-- The store at `storeWBIt` is given to the cache, which accepts all its packets or not. -/
def sendStore (sent : Bool) (u : LSQUnit p) : Except LSQFault (LSQUnit p) :=
  if sent then { u with isStoreBlocked := false }.storePostSend else pure { u with isStoreBlocked := true }

/-- `writebackBlockedStore()`. -/
def writebackBlockedStore (sent : Bool) (u : LSQUnit p) : Except LSQFault (LSQUnit p) := do
  ensure u.isStoreBlocked .notBlocked
  u.sendStore sent

/-- The store at `storeWBIt` is complete, and the next one is written back after it. `completeStore` does not look
at `storeWBIt`, which is advanced before the call or after it. -/
def completeNext (u : LSQUnit p) : Except LSQFault (LSQUnit p) :=
  { u with storeWBIt := u.storeWBIt + 1 }.completeStore u.storeWBIt

/-- One turn of the loop of `writebackStores()`: `success` is the answer of `handleLockedWrite` to a store
conditional. -/
def writebackStore (success sent : Bool) (u : LSQUnit p) : Except LSQFault (LSQUnit p) :=
  if 0 < u.storesToWB ∧ u.storeQueue.head ≤ u.storeWBIt ∧ u.storeWBIt < u.storeQueue.last then do
    let store ← u.store u.storeWBIt
    if store.canWB && (!p.needsTSO || !u.storeInFlight) && !u.isStoreBlocked then
      if store.size = 0 then u.completeNext
      else if store.isDataPrefetch then pure { u with storeWBIt := u.storeWBIt + 1 }
      else
        match store.request with
        | none => .error .noRequest
        | some request => do
          ensure (!store.committed) .committed
          if (request.isLLSC || request.isRelease) && u.storeWBIt != u.storeQueue.head then pure u
          else
            let u := u.setStore u.storeWBIt fun store => { store with committed := true }
            if store.isStoreConditional && !success then u.completeNext
            else if request.isLocalAccess then do
              ensure (!store.isStoreConditional) .localStoreConditional
              u.completeNext
            else u.sendStore sent
    else pure u
  else pure u

/-! ### Squashing -/

/-- The loop of `squash` over the loads, for at most `n` of them. -/
def squashLoads (squashedNum : ℕ) : ℕ → LSQUnit p → LSQUnit p
  | 0, u => u
  | n + 1, u =>
    match u.loadQueue.entries.getLast? with
    | none => u
    | some load =>
      if squashedNum < load.seqNum then
        let u :=
          if u.stalled && u.loadQueue.last == u.stallingLoadIdx + 1 then
            { u with stalled := false, stallingStoreIsn := 0, stallingLoadIdx := 0 }
          else u
        squashLoads squashedNum n { u with loadQueue := u.loadQueue.popBack }
      else u

/-- The loop of `squash` over the stores, for at most `n` of them. -/
def squashStores (squashedNum : ℕ) : ℕ → LSQUnit p → Except LSQFault (LSQUnit p)
  | 0, u => .ok u
  | n + 1, u =>
    match u.storeQueue.entries.getLast? with
    | none => .ok u
    | some store =>
      if squashedNum < store.seqNum ∧ store.canWB = false then do
        ensure (!(u.stalled && store.seqNum == u.stallingStoreIsn)) .stillStalled
        squashStores squashedNum n { u with storeQueue := u.storeQueue.popBack }
      else .ok u

/-- `squash(squashed_num)`. -/
def squash (squashedNum : ℕ) (u : LSQUnit p) : Except LSQFault (LSQUnit p) :=
  let u := u.squashLoads squashedNum u.loadQueue.entries.length
  let u :=
    if u.memDepViolator.any fun v => decide (squashedNum < v.seqNum) then { u with memDepViolator := none } else u
  u.squashStores squashedNum u.storeQueue.entries.length

/-! ### Runs -/

inductive Call where
  | insertLoad (inst : LoadInst)
  | insertStore (inst : StoreInst)
  | executeLoad (i : ℕ) (acc : LoadAccess)
  | executeStore (i : ℕ) (acc : StoreAccess)
  /-- The data of a load arrives, from memory or from a store. -/
  | writeback (i : ℕ)
  | setAtCommit (i : ℕ)
  | checkSnoop (hit : LoadEntry → Bool)
  /-- `commitStores` and `commitLoads`, which are called together. -/
  | commit (youngestInst : ℕ)
  | writebackStore (success sent : Bool)
  | writebackBlockedStore (sent : Bool)
  /-- The answer to a store that has been sent. -/
  | completeStore (i : ℕ)
  | squash (squashedNum : ℕ)
  | getMemDepViolator

def perform (u : LSQUnit p) : Call → Except LSQFault (LSQUnit p)
  | .insertLoad inst => u.insertLoad inst
  | .insertStore inst => u.insertStore inst
  | .executeLoad i acc => u.executeLoad i acc
  | .executeStore i acc => u.executeStore i acc
  | .writeback i => .ok (u.writeback i)
  | .setAtCommit i => .ok (u.setAtCommit i)
  | .checkSnoop hit => .ok (u.checkSnoop hit)
  | .commit youngestInst => .ok ((u.commitStores youngestInst).commitLoads youngestInst)
  | .writebackStore success sent => u.writebackStore success sent
  | .writebackBlockedStore sent => u.writebackBlockedStore sent
  | .completeStore i => u.completeStore i
  | .squash squashedNum => u.squash squashedNum
  | .getMemDepViolator => .ok u.getMemDepViolator

/-- What the pipeline keeps to. Instructions come in program order, while there is room. An instruction is executed
while it is in its queue, a store conditional or an atomic only at the head of the reorder buffer. A
load is committed after it has been executed, and a squash does not reach instructions older than a store that is
about to be written back. -/
def Legal (u : LSQUnit p) : Call → Prop
  | .insertLoad inst =>
    u.loadQueue.entries.length < p.lqEntries ∧ (∀ load ∈ u.loadQueue.entries, load.seqNum < inst.seqNum) ∧
      ∀ store ∈ u.storeQueue.entries, store.seqNum < inst.seqNum
  | .insertStore inst =>
    u.storeQueue.entries.length < p.sqEntries ∧ (∀ load ∈ u.loadQueue.entries, load.seqNum < inst.seqNum) ∧
      ∀ store ∈ u.storeQueue.entries, store.seqNum < inst.seqNum
  | .executeLoad i _ => ∃ load ∈ u.loadQueue.entries, u.loadQueue.Has i load ∧ load.response ≠ .scheduled
  | .executeStore i acc =>
    (∃ store ∈ u.storeQueue.entries, u.storeQueue.Has i store ∧ store.canWB = false ∧
      ((store.isStoreConditional || store.isAtomic) = true →
        ∀ load ∈ u.loadQueue.entries, load.seqNum < store.seqNum → load.executed = true)) ∧
      match acc with
      | .access request => request.size ≤ p.dataSize ∨ request.storeNoData = true
      | _ => True
  | .writeback i => ∃ load ∈ u.loadQueue.entries, u.loadQueue.Has i load ∧ load.response ≠ .idle
  | .setAtCommit i => ∃ load ∈ u.loadQueue.entries, u.loadQueue.Has i load
  | .checkSnoop _ => True
  | .commit youngestInst => ∀ load ∈ u.loadQueue.entries, load.seqNum ≤ youngestInst → load.executed = true
  | .writebackStore _ _ => True
  | .writebackBlockedStore _ => u.isStoreBlocked = true
  | .completeStore i =>
    i < u.storeWBIt ∧ ∃ store ∈ u.storeQueue.entries, u.storeQueue.Has i store ∧ store.completed = false
  | .squash squashedNum =>
    ∀ store ∈ u.storeQueue.entries, store.canWB = true →
      ∀ load ∈ u.loadQueue.entries, load.seqNum < store.seqNum → load.seqNum ≤ squashedNum
  | .getMemDepViolator => True

instance (u : LSQUnit p) (c : Call) : Decidable (u.Legal c) :=
  match c with
  | .insertLoad _ => inferInstanceAs (Decidable (_ ∧ _))
  | .insertStore _ => inferInstanceAs (Decidable (_ ∧ _))
  | .executeLoad i _ => inferInstanceAs (Decidable (∃ load ∈ u.loadQueue.entries, u.loadQueue.Has i load ∧ _))
  | .executeStore i (.access _) =>
    inferInstanceAs (Decidable ((∃ store ∈ u.storeQueue.entries, u.storeQueue.Has i store ∧ _) ∧ (_ ∨ _)))
  | .executeStore i .delayed =>
    inferInstanceAs (Decidable ((∃ store ∈ u.storeQueue.entries, u.storeQueue.Has i store ∧ _) ∧ True))
  | .executeStore i .predicatedOff =>
    inferInstanceAs (Decidable ((∃ store ∈ u.storeQueue.entries, u.storeQueue.Has i store ∧ _) ∧ True))
  | .executeStore i (.notWritten _) =>
    inferInstanceAs (Decidable ((∃ store ∈ u.storeQueue.entries, u.storeQueue.Has i store ∧ _) ∧ True))
  | .writeback i => inferInstanceAs (Decidable (∃ load ∈ u.loadQueue.entries, u.loadQueue.Has i load ∧ _))
  | .setAtCommit i => inferInstanceAs (Decidable (∃ load ∈ u.loadQueue.entries, u.loadQueue.Has i load))
  | .checkSnoop _ => inferInstanceAs (Decidable True)
  | .commit _ => inferInstanceAs (Decidable (∀ load ∈ u.loadQueue.entries, _))
  | .writebackStore _ _ => inferInstanceAs (Decidable True)
  | .writebackBlockedStore _ => inferInstanceAs (Decidable (u.isStoreBlocked = true))
  | .completeStore i =>
    inferInstanceAs (Decidable (_ ∧ ∃ store ∈ u.storeQueue.entries, u.storeQueue.Has i store ∧ _))
  | .squash _ => inferInstanceAs (Decidable (∀ store ∈ u.storeQueue.entries, _))
  | .getMemDepViolator => inferInstanceAs (Decidable True)

/-- A run of calls as the pipeline makes them. -/
def run (u : LSQUnit p) : List Call → Option (LSQUnit p)
  | [] => some u
  | c :: calls =>
    if u.Legal c then
      match u.perform c with
      | .ok u' => u'.run calls
      | .error _ => none
    else none

/-- The states of runs whose calls are as the pipeline makes them and satisfy `Q`. -/
inductive Reachable (p : LSQParams) (Q : LSQUnit p → Call → Prop) : LSQUnit p → Prop where
  | start : Reachable p Q {}
  | step {u u' : LSQUnit p} {c : Call} (before : Reachable p Q u) (legal : u.Legal c) (cond : Q u c)
      (call : u.perform c = .ok u') : Reachable p Q u'

lemma Reachable.run {u u' : LSQUnit p} (h : Reachable p (fun _ _ => True) u) (calls : List Call)
    (hrun : u.run calls = some u') : Reachable p (fun _ _ => True) u' := by
  induction calls generalizing u with
  | nil => exact Option.some.inj hrun ▸ h
  | cons c calls ih =>
    rw [LSQUnit.run] at hrun
    split_ifs at hrun with hlegal
    split at hrun
    · rename_i w hw
      exact ih (h.step hlegal trivial hw) hrun
    · cases hrun

end LSQUnit

end Gem5.O3
