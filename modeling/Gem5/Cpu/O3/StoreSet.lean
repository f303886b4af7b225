import Gem5.Lib.Except

/-!
# Store sets

The memory dependence predictor of `cpu/o3/store_set.cc`. The SSIT maps the addresses of instructions
to store sets; for each set the LFST holds the last store that was fetched, with a valid bit, and
`storeList` the stores in flight with their sets.

The SSIT is an `AssociativeCache`: which entries an address may use and what its tag is are parameters,
and the entry the replacement policy gives up is an argument of the call, any of those entries. An
entry that is made invalid keeps its set.
-/

namespace Gem5.O3

open Lib Function

inductive StoreSetFault where
  /-- `assert(SSID < LFSTSize)`. -/
  | badSSID
  /-- `assert(!isValid())` of `setValid`. -/
  | validEntry
  /-- The replacement policy has given up an entry that is not one of its candidates. -/
  | badVictim
  /-- The loop of `squash` makes no progress. -/
  | squashLoops
  deriving DecidableEq, Repr

/-- `MaxAddr`. -/
def maxAddr : ℕ := 2 ^ 64 - 1

/-- `SSITEntry`. -/
structure SSITEntry where
  valid : Bool := false
  tag : ℕ := maxAddr
  /-- `_ssid`. -/
  ssid : ℕ := maxAddr
  deriving DecidableEq, Repr

structure StoreSetParams where
  /-- `getPossibleEntries(addr)`. -/
  possibleEntries : ℕ → List ℕ
  extractTag : ℕ → ℕ
  /-- `LFSTSize`. -/
  lfstSize : ℕ
  clearPeriod : ℕ
  /-- `fatal("Invalid LFST size!")`. -/
  lfstSize_pos : 0 < lfstSize

/-- `StoreSet`. -/
structure StoreSet where
  /-- The entries of `SSIT`. -/
  ssit : ℕ → SSITEntry := fun _ => {}
  /-- `LFST`. -/
  lfst : ℕ → ℕ := fun _ => 0
  /-- `validLFST`. -/
  validLfst : ℕ → Bool := fun _ => false
  /-- `storeList`, by descending sequence numbers. -/
  storeList : List (ℕ × ℕ) := []
  memOpsPred : ℕ := 0

namespace StoreSet

variable (p : StoreSetParams)

/-! ### The SSIT -/

/-- `SSIT.findEntry({addr})`. -/
def findEntry (pc : ℕ) (s : StoreSet) : Option ℕ :=
  (p.possibleEntries pc).find? fun i => (s.ssit i).valid && (s.ssit i).tag == p.extractTag pc

/-- `entry->setSSID(id)`. -/
def setSSID (i ssid : ℕ) (s : StoreSet) : StoreSet :=
  { s with ssit := update s.ssit i { s.ssit i with ssid } }

/-- `entry->invalidate()`. -/
def invalidate (i : ℕ) (s : StoreSet) : StoreSet :=
  { s with ssit := update s.ssit i { s.ssit i with valid := false, tag := maxAddr } }

/-- `SSIT.findVictim({addr})`, where `victim` is given up. -/
def findVictim (pc victim : ℕ) (s : StoreSet) : Except StoreSetFault StoreSet := do
  ensure (decide (victim ∈ p.possibleEntries pc)) .badVictim
  pure (s.invalidate victim)

/-- `SSIT.insertEntry({addr}, entry)`. -/
def insertEntry (pc i : ℕ) (s : StoreSet) : Except StoreSetFault StoreSet := do
  ensure (!(s.ssit i).valid) .validEntry
  pure { s with ssit := update s.ssit i { s.ssit i with valid := true, tag := p.extractTag pc } }

/-- An address gets an entry with the set: `findVictim`, `setSSID` and `insertEntry`. -/
def assign (pc victim ssid : ℕ) (s : StoreSet) : Except StoreSetFault StoreSet := do
  let s ← s.findVictim p pc victim
  (s.setSSID victim ssid).insertEntry p pc victim

/-! ### The predictor -/

/-- `calcSSID(PC)`. -/
def calcSSID (pc : ℕ) : ℕ := (pc ^^^ (pc >>> 10)) % p.lfstSize

/-- `violation(store_PC, load_PC)`, where the entries `ldVictim` and `stVictim` are given up. -/
def violation (storePC loadPC ldVictim stVictim : ℕ) (s : StoreSet) : Except StoreSetFault StoreSet :=
  match s.findEntry p loadPC, s.findEntry p storePC with
  | none, none => do
    let newSet := calcSSID p loadPC
    ensure (decide (newSet < p.lfstSize)) .badSSID
    let s ← s.assign p loadPC ldVictim newSet
    s.assign p storePC stVictim newSet
  | some ld, none => do
    let loadSSID := (s.ssit ld).ssid
    let s ← s.assign p storePC stVictim loadSSID
    ensure (decide (loadSSID < p.lfstSize)) .badSSID
    pure s
  | none, some st => s.assign p loadPC ldVictim (s.ssit st).ssid
  | some ld, some st => do
    let loadSSID := (s.ssit ld).ssid
    let storeSSID := (s.ssit st).ssid
    ensure (decide (loadSSID < p.lfstSize) && decide (storeSSID < p.lfstSize)) .badSSID
    if loadSSID < storeSSID then pure (s.setSSID st loadSSID) else pure (s.setSSID ld storeSSID)

/-- `clear()`. -/
def clear (s : StoreSet) : StoreSet :=
  { s with
    ssit := fun i => { s.ssit i with valid := false, tag := maxAddr }
    validLfst := fun _ => false
    storeList := [] }

/-- `checkClear()`. -/
def checkClear (s : StoreSet) : StoreSet :=
  if p.clearPeriod < s.memOpsPred + 1 then { s with memOpsPred := 0 }.clear
  else { s with memOpsPred := s.memOpsPred + 1 }

/-- `insertLoad(load_PC, load_seq_num)`. -/
def insertLoad (s : StoreSet) : StoreSet := s.checkClear p

/-- `storeList[sn] = ssid`. -/
def setStore (sn ssid : ℕ) : List (ℕ × ℕ) → List (ℕ × ℕ)
  | [] => [(sn, ssid)]
  | x :: l =>
    if x.1 < sn then (sn, ssid) :: x :: l
    else if x.1 = sn then (sn, ssid) :: l
    else x :: setStore sn ssid l

/-- `insertStore(store_PC, store_seq_num, tid)`. The entry is looked up before `checkClear`, and its set is read after. -/
def insertStore (storePC sn : ℕ) (s : StoreSet) : Except StoreSetFault StoreSet :=
  let entry := s.findEntry p storePC
  let s := s.checkClear p
  match entry with
  | none => .ok s
  | some st => do
    let ssid := (s.ssit st).ssid
    ensure (decide (ssid < p.lfstSize)) .badSSID
    pure { s with
      lfst := update s.lfst ssid sn
      validLfst := update s.validLfst ssid true
      storeList := setStore sn ssid s.storeList }

/-- `checkInst(PC)`. -/
def checkInst (pc : ℕ) (s : StoreSet) : Except StoreSetFault ℕ :=
  match s.findEntry p pc with
  | none => .ok 0
  | some i => do
    let ssid := (s.ssit i).ssid
    ensure (decide (ssid < p.lfstSize)) .badSSID
    pure (if s.validLfst ssid then s.lfst ssid else 0)

/-- `issued(issued_PC, issued_seq_num, is_store)`. -/
def issued (pc sn : ℕ) (isStore : Bool) (s : StoreSet) : Except StoreSetFault StoreSet :=
  if isStore then
    let entry := s.findEntry p pc
    let s := { s with storeList := s.storeList.filter fun x => x.1 != sn }
    match entry with
    | none => .ok s
    | some i => do
      let ssid := (s.ssit i).ssid
      ensure (decide (ssid < p.lfstSize)) .badSSID
      if s.validLfst ssid && s.lfst ssid == sn then pure { s with validLfst := update s.validLfst ssid false }
      else pure s
  else .ok s

/-- The loop of `squash`, from the first entry of `storeList` on. -/
def squashLoop (squashedNum : ℕ) (lfst : ℕ → ℕ) :
    (ℕ → Bool) → List (ℕ × ℕ) → Except StoreSetFault ((ℕ → Bool) × List (ℕ × ℕ))
  | validLfst, [] => .ok (validLfst, [])
  | validLfst, (sn, idx) :: rest =>
    if sn ≤ squashedNum then .ok (validLfst, (sn, idx) :: rest)
    -- neither branch of the loop moves on
    else if lfst idx ≤ squashedNum then .error .squashLoops
    else squashLoop squashedNum lfst (update validLfst idx false) rest

/-- `squash(squashed_num, tid)`. -/
def squash (squashedNum : ℕ) (s : StoreSet) : Except StoreSetFault StoreSet := do
  let (validLfst, storeList) ← squashLoop squashedNum s.lfst s.validLfst s.storeList
  pure { s with validLfst, storeList }

end StoreSet

end Gem5.O3
