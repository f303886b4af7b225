import Gem5.Cpu.O3.StoreSet

/-!
# The memory dependence unit

`cpu/o3/mem_dep_unit.cc` holds the memory instructions and barriers of a thread until what they depend
on has completed. An instruction gets its producers when it is inserted: the outstanding barriers, or
the store the store sets predict. Its entry counts them in `memDeps`, and each producer lists its
dependents.

The entries are shared pointers, and an entry that has left `memDepHash` can still be on the list of a
producer: they are kept in a heap, `entries`, under the sequence number of the instruction. The order in
which an `unordered_set` is walked is not fixed, and nothing depends on it: the sets of sequence numbers
are finite sets. The instruction queue has one unit for each thread, so there is one `instList`.
-/

namespace Gem5.O3

open Lib

/-- What the unit reads of a `DynInst`. -/
structure DynInst where
  seqNum : ℕ := 0
  /-- `pcState().instAddr()`. -/
  instAddr : ℕ := 0
  isLoad : Bool := false
  isStore : Bool := false
  isAtomic : Bool := false
  isReadBarrier : Bool := false
  isWriteBarrier : Bool := false
  isHtmCmd : Bool := false
  /-- `readyToIssue()` when it is inserted. -/
  readyToIssue : Bool := false
  deriving DecidableEq, Repr

/-- `MemDepEntry`. -/
structure MemDepEntry where
  inst : DynInst := {}
  dependInsts : List ℕ := []
  regsReady : Bool := false
  memDeps : ℕ := 0
  squashed : Bool := false
  deriving DecidableEq, Repr

inductive MemDepFault where
  /-- `assert(hash_it != memDepHash.end())`. -/
  | notInHash
  /-- `assert(inst_entry->memDeps == 0)`. -/
  | hasDeps
  /-- `assert(woken_inst->memDeps > 0)`. -/
  | noDeps
  /-- `assert(!woken_inst_entry->squashed)`. -/
  | squashed
  /-- `assert(hasStoreBarrier())`. -/
  | noStoreBarrier
  /-- `assert(hasLoadBarrier())`. -/
  | noLoadBarrier
  /-- `panic("Unknown type! (most likely a barrier).")`. -/
  | unknownType
  | depPred (fault : StoreSetFault)
  deriving DecidableEq, Repr

/-- `MemDepUnit`. -/
@[ext]
structure MemDepUnit where
  entries : ℕ → MemDepEntry := fun _ => {}
  memDepHash : Finset ℕ := ∅
  instList : List ℕ := []
  loadBarrierSNs : Finset ℕ := ∅
  storeBarrierSNs : Finset ℕ := ∅
  depPred : StoreSet := {}
  /-- What `addReadyMemInst` of the instruction queue has been given, the last one first. -/
  readyInsts : List ℕ := []

namespace DynInst

/-- `isReadBarrier() || isHtmCmd()`. -/
def blocksLoads (inst : DynInst) : Bool := inst.isReadBarrier || inst.isHtmCmd

/-- `isWriteBarrier() || isHtmCmd()`. -/
def blocksStores (inst : DynInst) : Bool := inst.isWriteBarrier || inst.isHtmCmd

/-- Only stores, atomics and barriers have dependents. -/
def hasDependents (inst : DynInst) : Bool :=
  inst.isStore || inst.isAtomic || inst.isReadBarrier || inst.isWriteBarrier || inst.isHtmCmd

end DynInst

namespace MemDepUnit

variable (p : StoreSetParams)

/-- The entry of an instruction is changed. -/
def setEntry (sn : ℕ) (f : MemDepEntry → MemDepEntry) (u : MemDepUnit) : MemDepUnit :=
  { u with entries := Function.update u.entries sn (f (u.entries sn)) }

/-- `findInHash(inst)`. -/
def findInHash (sn : ℕ) (u : MemDepUnit) : Except MemDepFault MemDepEntry := do
  ensure (decide (sn ∈ u.memDepHash)) .notInHash
  pure (u.entries sn)

/-- `moveToReady(woken_inst_entry)`. -/
def moveToReady (sn : ℕ) (u : MemDepUnit) : Except MemDepFault MemDepUnit := do
  ensure (!(u.entries sn).squashed) .squashed
  pure { u with readyInsts := sn :: u.readyInsts }

/-! ### Insertion -/

/-- `insertBarrierSN(barr_inst)`. -/
def insertBarrierSN (inst : DynInst) (u : MemDepUnit) : MemDepUnit :=
  { u with
    loadBarrierSNs := if inst.blocksLoads then Insert.insert inst.seqNum u.loadBarrierSNs else u.loadBarrierSNs
    storeBarrierSNs := if inst.blocksStores then Insert.insert inst.seqNum u.storeBarrierSNs else u.storeBarrierSNs }

/-- A new entry goes into the hash and to the end of the list. -/
def addEntry (inst : DynInst) (u : MemDepUnit) : MemDepUnit :=
  { u with
    entries := Function.update u.entries inst.seqNum { inst }
    memDepHash := Insert.insert inst.seqNum u.memDepHash
    instList := u.instList ++ [inst.seqNum] }

/-- `producing_stores`. An instruction that is a load and a store takes the load barriers if there are any. -/
def producingStores (inst : DynInst) (u : MemDepUnit) : Except MemDepFault (Finset ℕ) :=
  if (inst.isLoad || inst.isAtomic) && decide (u.loadBarrierSNs ≠ ∅) then .ok u.loadBarrierSNs
  else if (inst.isStore || inst.isAtomic) && decide (u.storeBarrierSNs ≠ ∅) then .ok u.storeBarrierSNs
  else do
    let dep ← (u.depPred.checkInst p inst.instAddr).mapError .depPred
    pure (if dep = 0 then ∅ else {dep})

/-- `store_entries`: the producers that are in the hash. -/
def storeEntries (inst : DynInst) (u : MemDepUnit) : Except MemDepFault (Finset ℕ) := do
  let producing ← u.producingStores p inst
  pure (producing ∩ u.memDepHash)

/-- The instruction is made dependent on its producers. If there are none, it may be ready at once. -/
def addDependences (inst : DynInst) (stores : Finset ℕ) (u : MemDepUnit) : Except MemDepFault MemDepUnit :=
  if stores = ∅ then do
    ensure ((u.entries inst.seqNum).memDeps == 0) .hasDeps
    if inst.readyToIssue then (u.setEntry inst.seqNum fun e => { e with regsReady := true }).moveToReady inst.seqNum
    else pure u
  else
    let u := u.setEntry inst.seqNum fun e => { e with regsReady := e.regsReady || inst.readyToIssue }
    let u := { u with
      entries := fun sn =>
        if sn ∈ stores then { u.entries sn with dependInsts := (u.entries sn).dependInsts ++ [inst.seqNum] }
        else u.entries sn }
    .ok (u.setEntry inst.seqNum fun e => { e with memDeps := stores.card })

/-- The store sets are told of a store or an atomic. -/
def insertPred (inst : DynInst) (u : MemDepUnit) : Except MemDepFault MemDepUnit :=
  if inst.isStore || inst.isAtomic then do
    let depPred ← (u.depPred.insertStore p inst.instAddr inst.seqNum).mapError .depPred
    pure { u with depPred }
  else if inst.isLoad then .ok u
  else .error .unknownType

/-- `insert(inst)`. -/
def insert (inst : DynInst) (u : MemDepUnit) : Except MemDepFault MemDepUnit := do
  let stores ← (u.addEntry inst).storeEntries p inst
  let u ← (u.addEntry inst).addDependences inst stores
  (u.insertBarrierSN inst).insertPred p inst

/-- `insertBarrier(barr_inst)`. -/
def insertBarrier (inst : DynInst) (u : MemDepUnit) : MemDepUnit := (u.addEntry inst).insertBarrierSN inst

/-! ### Release -/

/-- `regsReady(inst)`. -/
def regsReady (sn : ℕ) (u : MemDepUnit) : Except MemDepFault MemDepUnit := do
  let entry ← u.findInHash sn
  let u := u.setEntry sn fun e => { e with regsReady := true }
  if entry.memDeps = 0 then u.moveToReady sn else pure u

/-- One dependent of a producer that completes. A dependent that was squashed is still counted down. -/
def wakeDependent (u : MemDepUnit) (sn : ℕ) : Except MemDepFault MemDepUnit := do
  ensure (decide (0 < (u.entries sn).memDeps)) .noDeps
  let u := u.setEntry sn fun e => { e with memDeps := e.memDeps - 1 }
  if (u.entries sn).memDeps == 0 && (u.entries sn).regsReady && !(u.entries sn).squashed then u.moveToReady sn
  else pure u

/-- `wakeDependents(inst)`. -/
def wakeDependents (inst : DynInst) (u : MemDepUnit) : Except MemDepFault MemDepUnit :=
  if inst.hasDependents then do
    let entry ← u.findInHash inst.seqNum
    let u ← entry.dependInsts.foldlM wakeDependent u
    pure (u.setEntry inst.seqNum fun e => { e with dependInsts := [] })
  else .ok u

/-- `completed(inst)`. -/
def completed (sn : ℕ) (u : MemDepUnit) : Except MemDepFault MemDepUnit := do
  ensure (decide (sn ∈ u.memDepHash)) .notInHash
  pure { u with instList := u.instList.erase sn, memDepHash := u.memDepHash.erase sn }

def eraseStoreBarrier (inst : DynInst) (u : MemDepUnit) : Except MemDepFault MemDepUnit :=
  if inst.blocksStores then do
    ensure (decide (u.storeBarrierSNs ≠ ∅)) .noStoreBarrier
    pure { u with storeBarrierSNs := u.storeBarrierSNs.erase inst.seqNum }
  else .ok u

def eraseLoadBarrier (inst : DynInst) (u : MemDepUnit) : Except MemDepFault MemDepUnit :=
  if inst.blocksLoads then do
    ensure (decide (u.loadBarrierSNs ≠ ∅)) .noLoadBarrier
    pure { u with loadBarrierSNs := u.loadBarrierSNs.erase inst.seqNum }
  else .ok u

/-- `completeInst(inst)`. -/
def completeInst (inst : DynInst) (u : MemDepUnit) : Except MemDepFault MemDepUnit := do
  let u ← u.wakeDependents inst
  let u ← u.completed inst.seqNum
  let u ← u.eraseStoreBarrier inst
  u.eraseLoadBarrier inst

/-! ### Squashes and the store sets -/

/-- The loop of `squash`, from the end of `instList`, which is given youngest first. -/
def squashList (squashedNum : ℕ) : List ℕ → MemDepUnit → Except MemDepFault MemDepUnit
  | [], u => .ok { u with instList := [] }
  | sn :: older, u =>
    if squashedNum < sn then do
      ensure (decide (sn ∈ u.memDepHash)) .notInHash
      squashList squashedNum older { u.setEntry sn fun e => { e with squashed := true } with
        loadBarrierSNs := u.loadBarrierSNs.erase sn
        storeBarrierSNs := u.storeBarrierSNs.erase sn
        memDepHash := u.memDepHash.erase sn }
    else .ok { u with instList := (sn :: older).reverse }

/-- `squash(squashed_num, tid)`. -/
def squash (squashedNum : ℕ) (u : MemDepUnit) : Except MemDepFault MemDepUnit := do
  let u ← squashList squashedNum u.instList.reverse u
  let depPred ← (u.depPred.squash squashedNum).mapError .depPred
  pure { u with depPred }

/-- `violation(store_inst, violating_load)`. -/
def violation (storePC loadPC ldVictim stVictim : ℕ) (u : MemDepUnit) : Except MemDepFault MemDepUnit := do
  let depPred ← (u.depPred.violation p storePC loadPC ldVictim stVictim).mapError .depPred
  pure { u with depPred }

/-- `issue(inst)`. -/
def issue (inst : DynInst) (u : MemDepUnit) : Except MemDepFault MemDepUnit := do
  let depPred ← (u.depPred.issued p inst.instAddr inst.seqNum inst.isStore).mapError .depPred
  pure { u with depPred }

end MemDepUnit

end Gem5.O3
