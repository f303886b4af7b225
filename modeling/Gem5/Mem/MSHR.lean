import Gem5.Lib.Except
import Gem5.Mem.Packet

/-!
# Miss status holding registers

`MSHR` of `mem/cache/mshr.{hh,cc}`, with what `BaseCache::recvTimingResp` does to the register a response is for. A
register has two lists of targets: those that the request in service is for, and those that are deferred to a later one.

A packet that comes from a cache above carries the register of that cache in its sender state; `above` says of the number
of a packet whether it does. Setting and clearing `downstreamPending` in the registers above is left out, as are the
data of the packets and the statistics. Tests that the code makes with `assert` are faults.
-/

namespace Gem5.Mem

open Lib

namespace Request

/-- Whether one of the flags `no_merge_flags` is set. -/
def noMerge (r : Request) : Bool :=
  r.uncacheable || r.strictOrder || r.privileged || r.llsc || r.memSwap || r.memSwapCond || r.secure || r.lockedRmw

end Request

/-- The ways a register can stop the simulator. -/
inductive MSHRFault where
  /-- The `assert`s that the request is in service. -/
  | notInService
  /-- `assert(!inService)` of `markInService`. -/
  | alreadyInService
  /-- The first target of an empty list is read. -/
  | noTarget
  /-- `assert(target->matchBlockAddr(…))` of `allocate`. -/
  | otherBlock
  /-- `assert(pkt->cmd != MemCmd::HardPFReq)` of `allocateTarget`. -/
  | prefetch
  /-- The `assert`s about the source of a target. -/
  | badSource
  /-- `assert(!pkt->hasData())` of `replaceUpgrade`. -/
  | upgradeData
  /-- `assert(!targets.needsWritable)` of `promoteWritable`. -/
  | writableTwice
  /-- `assert(!downstreamPending)` of `promoteIf`. -/
  | stillPending
  /-- `assert(downstreamPending)` of `clearDownstreamPending`. -/
  | notPending
  /-- `assert(targets.empty())` of `deallocate`. -/
  | targetsLeft
  /-- `assert(deferredTargets.isReset())` of `deallocate`. -/
  | deferredNotReset
  /-- `panic_if("needsWritable, does not match isInvalidate")` of `handleSnoop`. -/
  | snoopMismatch
  /-- An `assert` of the snooped packet about its flags. -/
  | packet
  deriving DecidableEq, Repr

namespace Packet

/-- `isMaskedWrite()`. -/
def isMaskedWrite (p : Packet) : Bool := p.cmd == .writeReq && p.req.isMasked

/-- `matchBlockAddr(pkt, blk_size)`. -/
def matchBlockAddr (p pkt : Packet) (blkSize : ℕ) : Bool :=
  p.getBlockAddr blkSize == pkt.getBlockAddr blkSize && p.isSecure == pkt.isSecure

/-- `Packet(pkt, true, true)`: a copy with its flags clear. -/
def copy (p : Packet) : Packet :=
  { id := p.id, cmd := p.cmd, addr := p.addr, isSecure := p.isSecure, size := p.size, req := p.req }

/-- `Packet(req, pkt->cmd, blkSize, pkt->id)`: a packet with the same command for the whole block. -/
def blockCopy (p : Packet) (blkSize : ℕ) : Packet :=
  { id := p.id, cmd := p.cmd, addr := p.getBlockAddr blkSize, isSecure := p.req.secure, size := blkSize, req := p.req }

/-- `setCacheResponding()`, then `setResponderHadWritable()`. -/
def setResponding (p : Packet) : Except MSHRFault Packet := do
  ensure p.cmd.isRequest .packet
  ensure (!p.cacheResponding) .packet
  ensure (!p.responderHadWritable) .packet
  .ok { p with cacheResponding := true, responderHadWritable := true }

/-- `setSatisfied()`. -/
def setSatisfied (p : Packet) : Except MSHRFault Packet := do
  ensure p.cmd.isClean .packet
  ensure (!p.satisfied) .packet
  .ok { p with satisfied := true }

/-- The command `replaceUpgrade` gives a packet. -/
def withoutUpgrade (p : Packet) : Packet :=
  match p.cmd with
  | .upgradeReq => { p with cmd := .readExReq }
  | .scUpgradeReq => { p with cmd := .scUpgradeFailReq }
  | .storeCondReq => { p with cmd := .storeCondFailReq }
  | _ => p

/-- `replaceUpgrade(pkt)`. -/
def replaceUpgrade (p : Packet) : Except MSHRFault Packet := do
  let hasData := p.cmd.hasData || p.hasRespData
  let p := p.withoutUpgrade
  ensure (hasData || !p.cmd.hasData) .upgradeData
  .ok p

end Packet

/-- `MSHR::Target::Source`. -/
inductive TargetSource where
  | fromCPU | fromSnoop | fromPrefetcher
  deriving DecidableEq, Repr

/-- `MSHR::Target`. -/
structure Target where
  pkt : Packet
  readyTime : ℕ
  order : ℕ
  source : TargetSource
  markedPending : Bool
  allocOnFill : Bool
  deriving DecidableEq, Repr

/-- `MSHR::TargetList`. -/
structure TargetList where
  list : List Target := []
  blkSize : ℕ := 0
  needsWritable : Bool := false
  hasUpgrade : Bool := false
  allocOnFill : Bool := false
  hasFromCache : Bool := false
  canMergeWrites : Bool := true
  writesBitmap : List Bool := []
  deriving DecidableEq, Repr

namespace TargetList

variable (l : TargetList) (above : ℕ → Bool)

/-- `resetFlags()`. -/
def resetFlags : TargetList :=
  { l with
    needsWritable := false
    hasUpgrade := false
    allocOnFill := false
    hasFromCache := false
    canMergeWrites := true
    writesBitmap := l.writesBitmap.map fun _ => false }

/-- `init(blk_addr, blk_size)`. -/
def init (blkSize : ℕ) : TargetList :=
  { l with blkSize, writesBitmap := List.replicate blkSize false }.resetFlags

/-- `isReset()`. -/
def isReset : Bool := !l.needsWritable && !l.hasUpgrade && !l.allocOnFill && !l.hasFromCache && l.canMergeWrites

/-- `isWholeLineWrite()`. -/
def isWholeLineWrite : Bool := l.writesBitmap.all id

/-- `updateWriteFlags(pkt)`. -/
def updateWriteFlags (pkt : Packet) : TargetList :=
  -- the full block is written already: what follows can be anything
  if l.isWholeLineWrite then l
  else if !l.canMergeWrites then l
  else if !pkt.cmd.isWrite then { l with canMergeWrites := false }
  else
    let compatWrite := !pkt.req.noMerge
    let firstWrite := l.list.isEmpty
    let offset := (pkt.getOffset l.blkSize).toNat
    let written (i : ℕ) : Bool := offset ≤ i && i < offset + pkt.size
    { l with
      writesBitmap :=
        if !pkt.isMaskedWrite && (firstWrite || compatWrite) then l.writesBitmap.mapIdx fun i b => b || written i
        else l.writesBitmap
      canMergeWrites := compatWrite }

/-- `updateFlags(pkt, source, alloc_on_fill)`. -/
def updateFlags (pkt : Packet) (source : TargetSource) (allocOnFill : Bool) : TargetList :=
  if source == .fromSnoop then l
  else
    let l :=
      { l with
        needsWritable := l.needsWritable || pkt.cmd.needsWritable
        hasUpgrade := l.hasUpgrade || pkt.cmd.isUpgrade || pkt.cmd == .storeCondReq
        allocOnFill := l.allocOnFill || allocOnFill }
    if source == .fromPrefetcher then l
    else { l with hasFromCache := l.hasFromCache || pkt.cmd.fromCache }.updateWriteFlags pkt

/-- `populateFlags()`. -/
def populateFlags : TargetList :=
  l.list.foldl (fun l t => l.updateFlags t.pkt t.source t.allocOnFill) l.resetFlags

/-- The list with other targets, and with the flags of these. -/
def withTargets (list : List Target) : TargetList := { l with list }.populateFlags

/-- `add(pkt, readyTime, order, source, markPending, alloc_on_fill)`. -/
def add (pkt : Packet) (readyTime order : ℕ) (source : TargetSource) (markPending allocOnFill : Bool) : TargetList :=
  let t := { pkt, readyTime, order, source, markedPending := markPending && above pkt.id, allocOnFill : Target }
  { l.updateFlags pkt source allocOnFill with list := l.list ++ [t] }

/-- `replaceUpgrades()`. -/
def replaceUpgrades : Except MSHRFault TargetList :=
  if !l.hasUpgrade then .ok l
  else do
    let list ← l.list.mapM fun t => do
      let pkt ← t.pkt.replaceUpgrade
      .ok { t with pkt : Target }
    .ok { l with list, hasUpgrade := false }

/-- `clearDownstreamPending()`. -/
def clearDownstreamPending : TargetList :=
  { l with list := l.list.map fun t => { t with markedPending := false } }

end TargetList

/-- `MSHR`. -/
structure MSHR where
  blkAddr : Addr := 0
  blkSize : ℕ := 0
  isSecure : Bool := false
  isUncacheable : Bool := false
  readyTime : ℕ := 0
  order : ℕ := 0
  inService : Bool := false
  downstreamPending : Bool := false
  pendingModified : Bool := false
  postInvalidate : Bool := false
  postDowngrade : Bool := false
  wasWholeLineWrite : Bool := false
  isForward : Bool := false
  targets : TargetList := {}
  deferredTargets : TargetList := {}
  deriving DecidableEq, Repr

namespace MSHR

variable (m : MSHR) (above : ℕ → Bool)

def front : Except MSHRFault Target :=
  match m.targets.list with
  | [] => .error .noTarget
  | t :: _ => .ok t

/-- `isPendingModified()`. -/
def isPendingModified : Except MSHRFault Bool := do
  ensure m.inService .notInService
  .ok m.pendingModified

/-- `hasPostInvalidate()`. -/
def hasPostInvalidate : Except MSHRFault Bool := do
  ensure m.inService .notInService
  .ok m.postInvalidate

/-- `hasPostDowngrade()`. -/
def hasPostDowngrade : Except MSHRFault Bool := do
  ensure m.inService .notInService
  .ok m.postDowngrade

/-- Where the request that allocates a register comes from. -/
def allocateSource (pkt : Packet) : TargetSource := if pkt.cmd == .hardPFReq then .fromPrefetcher else .fromCPU

/-- `allocate(blk_addr, blk_size, target, when_ready, order, alloc_on_fill)`. -/
def allocate (blkAddr : Addr) (blkSize : ℕ) (target : Packet) (whenReady order : ℕ) (allocOnFill : Bool) :
    Except MSHRFault MSHR := do
  let m :=
    { m with
      blkAddr
      blkSize
      isSecure := target.isSecure
      readyTime := whenReady
      order
      isForward := false
      wasWholeLineWrite := false
      isUncacheable := target.req.uncacheable
      inService := false
      downstreamPending := false
      targets := (m.targets.init blkSize).add above target whenReady order (allocateSource target) true allocOnFill
      deferredTargets := m.deferredTargets.init blkSize }
  let t ← m.front
  ensure (target.matchBlockAddr t.pkt blkSize) .otherBlock
  .ok m

/-- `clearDownstreamPending()`. -/
def clearDownstreamPending : Except MSHRFault MSHR := do
  ensure m.downstreamPending .notPending
  .ok { m with downstreamPending := false, targets := m.targets.clearDownstreamPending }

/-- `markInService(pending_modified_resp)`. -/
def markInService (pendingModifiedResp : Bool) : Except MSHRFault MSHR := do
  ensure (!m.inService) .alreadyInService
  .ok
    { m with
      inService := true
      pendingModified := m.targets.needsWritable || pendingModifiedResp
      postInvalidate := false
      postDowngrade := false
      targets := if m.downstreamPending then m.targets else m.targets.clearDownstreamPending
      wasWholeLineWrite := m.targets.isWholeLineWrite }

/-- `deallocate()`. -/
def deallocate : Except MSHRFault MSHR := do
  ensure m.targets.list.isEmpty .targetsLeft
  ensure m.deferredTargets.isReset .deferredNotReset
  .ok { m with targets := m.targets.resetFlags, inService := false }

/-- Whether `allocateTarget` defers the packet. -/
def defers (pkt : Packet) : Except MSHRFault Bool := do
  let tgt ← m.front
  if pkt.req.isCacheMaintenance || tgt.pkt.req.isCacheMaintenance || !m.deferredTargets.list.isEmpty then .ok true
  else if !m.inService then .ok false
  else if ← m.hasPostInvalidate then .ok true
  else if !pkt.cmd.needsWritable then .ok false
  else if !(← m.isPendingModified) then .ok true
  else if ← m.hasPostDowngrade then .ok true
  else .ok m.isForward

/-- The packet that `allocateTarget` defers. -/
def deferredPkt (pkt : Packet) : Except MSHRFault Packet :=
  if m.inService && m.postInvalidate then pkt.replaceUpgrade else .ok pkt

/-- `allocateTarget(pkt, whenReady, order, alloc_on_fill)`. -/
def allocateTarget (pkt : Packet) (whenReady order : ℕ) (allocOnFill : Bool) : Except MSHRFault MSHR := do
  ensure (pkt.cmd != .hardPFReq) .prefetch
  if ← m.defers pkt then
    let pkt ← m.deferredPkt pkt
    .ok { m with deferredTargets := m.deferredTargets.add above pkt whenReady order .fromCPU true allocOnFill }
  else .ok { m with targets := m.targets.add above pkt whenReady order .fromCPU (!m.inService) allocOnFill }

/-- The snooped packet takes the block away. -/
def takesBlock (pkt : Packet) : Bool := pkt.cmd.needsWritable || pkt.req.invalidate

/-- A snoop that comes before the request of the register, which was not issued yet: upgrades that wait are no longer
upgrades. -/
def snoopBefore (pkt : Packet) : Except MSHRFault MSHR :=
  if takesBlock pkt then do
    let targets ← m.targets.replaceUpgrades
    let deferredTargets ← m.deferredTargets.replaceUpgrades
    .ok { m with targets, deferredTargets }
  else .ok m

/-- A snoop that comes after the request of the register, and before that for the deferred targets. -/
def snoopDeferred (pkt : Packet) : Except MSHRFault MSHR :=
  if takesBlock pkt then do
    let deferredTargets ← m.deferredTargets.replaceUpgrades
    .ok { m with deferredTargets }
  else .ok m

/-- What `handleSnoop` tells the sender of a snoop that it keeps. -/
def answerSnoop (pkt : Packet) (willRespond : Bool) : Except MSHRFault Packet :=
  if willRespond then pkt.setResponding
  else if m.pendingModified && pkt.cmd.isClean then pkt.setSatisfied
  else .ok pkt

/-- The part of `handleSnoop` that keeps a copy of the snooped packet as a target. -/
def recordSnoop (pkt : Packet) (order now : ℕ) (willRespond : Bool) : Except MSHRFault (Packet × MSHR) :=
  if m.pendingModified || pkt.cmd.isInvalidate then do
    let cpPkt := if willRespond then pkt.copy else pkt.blockCopy m.blkSize
    let pkt ← m.answerSnoop pkt willRespond
    let markPending := m.downstreamPending && m.targets.needsWritable
    .ok (pkt, { m with
        targets := m.targets.add above cpPkt now order .fromSnoop markPending false
        postInvalidate := m.postInvalidate || pkt.cmd.needsWritable || pkt.cmd.isInvalidate })
  else .ok (pkt, m)

/-- `handleSnoop(pkt, order)`: whether this cache will respond, the snooped packet and the register. -/
def handleSnoop (pkt : Packet) (order now : ℕ) : Except MSHRFault (Bool × Packet × MSHR) := do
  ensure (pkt.cmd.needsWritable == pkt.cmd.isInvalidate || pkt.req.isCacheMaintenance) .snoopMismatch
  if !m.inService || pkt.isExpressSnoop && m.downstreamPending then
    let m ← m.snoopBefore pkt
    .ok (false, pkt, m)
  else
    let m ← m.snoopDeferred pkt
    let tgt ← m.front
    if (← m.hasPostInvalidate) || tgt.pkt.req.invalidate then .ok (true, pkt, m)
    else
      let willRespond := (← m.isPendingModified) && pkt.cmd.needsResponse && !pkt.cmd.isClean
      let (pkt', m) ← m.recordSnoop above pkt order now willRespond
      -- a read takes a copy of the block, so that ours is no longer writable
      if !pkt.cmd.needsWritable && !pkt.req.uncacheable then
        .ok (willRespond, { pkt' with hasSharers := true }, { m with postDowngrade := true })
      else .ok (willRespond, pkt', m)

/-- The loop of `extractServiceableTargets` after an invalidating response: the targets it takes and those it leaves. -/
def takeSnoops : List Target → Except MSHRFault (List Target × List Target)
  | [] => .ok ([], [])
  | t :: ts => do
    if t.source == .fromCPU then
      let (ready, left) ← takeSnoops ts
      .ok (ready, t :: left)
    else
      ensure (t.source == .fromSnoop) .badSource
      let (ready, left) ← takeSnoops ts
      .ok (t :: ready, left)

/-- The loop of `extractServiceableTargets` after any other response. -/
def takeUnlocked : List Target → List Target × List Target
  | [] => ([], [])
  | t :: ts =>
    -- the line is locked from here on
    if t.pkt.cmd == .lockedRMWReadReq then ([t], t :: ts)
    else (t :: (takeUnlocked ts).1, (takeUnlocked ts).2)

/-- The targets `extractServiceableTargets` takes and those it leaves. -/
def serviceable (pkt : Packet) : Except MSHRFault (List Target × List Target) :=
  if pkt.cmd == .readRespWithInvalidate then
    match m.targets.list with
    | [] => .error .noTarget
    | t :: ts => do
      ensure (t.source == .fromCPU || t.source == .fromPrefetcher) .badSource
      if t.pkt.cmd == .lockedRMWReadReq then .ok ([t], t :: ts)
      else
        let (ready, left) ← takeSnoops ts
        .ok (t :: ready, left)
  else .ok (takeUnlocked m.targets.list)

/-- `extractServiceableTargets(pkt)`. -/
def extractServiceableTargets (pkt : Packet) : Except MSHRFault (TargetList × MSHR) := do
  let (ready, left) ← m.serviceable pkt
  .ok ((TargetList.init {} m.blkSize).withTargets ready, { m with targets := m.targets.withTargets left })

/-- What `promoteDeferredTargets` makes of the two lists. -/
def promoted (targets deferred : List Target) : List Target × List Target :=
  match deferred.span fun t => !t.pkt.req.isCacheMaintenance with
  -- the first deferred target is for cache maintenance: it is served on its own
  | ([], t :: rest) => if targets.isEmpty then ([t], rest) else (targets, t :: rest)
  | (before, rest) => (targets ++ before, rest)

/-- `promoteDeferredTargets()`. -/
def promoteDeferredTargets (now : ℕ) : Except MSHRFault (Bool × MSHR) :=
  if m.targets.list.isEmpty && m.deferredTargets.list.isEmpty then .ok (false, m)
  else do
    let (targets, deferred) := promoted m.targets.list m.deferredTargets.list
    let m :=
      { m with targets := m.targets.withTargets targets, deferredTargets := m.deferredTargets.withTargets deferred }
    let t ← m.front
    .ok (true, { m with order := t.order, readyTime := max now t.readyTime })

/-- The deferred targets before the first that does not satisfy the condition, and the others. The condition is about
requests of the processor. -/
def findIfNot (pred : Target → Bool) : List Target → Except MSHRFault (List Target × List Target)
  | [] => .ok ([], [])
  | t :: ts => do
    ensure (t.source == .fromCPU) .badSource
    if pred t then
      let (before, rest) ← findIfNot pred ts
      .ok (t :: before, rest)
    else .ok ([], t :: ts)

/-- `promoteIf(pred)`. -/
def promoteIf (pred : Target → Bool) : Except MSHRFault MSHR := do
  ensure (!m.downstreamPending) .stillPending
  let (before, rest) ← findIfNot pred m.deferredTargets.list
  let before := before.map fun t => { t with markedPending := false : Target }
  .ok
    { m with
      targets := { m.targets with list := m.targets.list ++ before }
      deferredTargets := m.deferredTargets.withTargets rest }

/-- The targets that `promoteReadable` promotes. -/
def readable (t : Target) : Bool := !t.pkt.req.invalidate && !t.pkt.cmd.needsWritable

/-- `promoteReadable()`. -/
def promoteReadable : Except MSHRFault MSHR := do
  if m.deferredTargets.list.isEmpty then .ok m
  else if ← m.hasPostInvalidate then .ok m
  else m.promoteIf readable

/-- `promoteWritable()`. -/
def promoteWritable : Except MSHRFault MSHR :=
  match m.deferredTargets.list with
  | [] => .ok m
  | t :: _ => do
    if !m.deferredTargets.needsWritable then .ok m
    else if ← m.hasPostInvalidate then .ok m
    else if ← m.hasPostDowngrade then .ok m
    else if t.pkt.req.invalidate then .ok m
    else
      ensure (!m.targets.needsWritable) .writableTwice
      { m with targets.needsWritable := true }.promoteIf fun t => !t.pkt.req.invalidate

/-- `hasLockedRMWReadTarget()`. -/
def hasLockedRMWReadTarget : Bool :=
  match m.targets.list with
  | [] => false
  | t :: _ => t.pkt.cmd == .lockedRMWReadReq

/-- `MSHRQueue::markPending(mshr)`. -/
def markPending : Except MSHRFault MSHR := do
  ensure m.inService .notInService
  .ok { m with inService := false }

/-- A response as `BaseCache::recvTimingResp` sees it: the packet, whether the block is valid and whether it is writable
after the fill, and the time. -/
structure Response where
  pkt : Packet
  blkValid : Bool
  blkWritable : Bool
  now : ℕ

/-- The response makes `recvTimingResp` call `promoteReadable`. -/
def Response.promotesReadable (r : Response) : Bool := r.blkValid && r.pkt.cmd.isClean && !r.pkt.cmd.isInvalidate

/-- The response makes `recvTimingResp` call `promoteWritable`. -/
def Response.promotesWritable (r : Response) : Bool := r.blkWritable && !r.pkt.req.invalidate

/-- The promotion of `recvTimingResp` after a cache clean operation. -/
def promoteAfterClean (r : Response) : Except MSHRFault MSHR := if r.promotesReadable then m.promoteReadable else .ok m

/-- The promotion of `recvTimingResp` if the block is writable. -/
def promoteIfWritable (r : Response) : Except MSHRFault MSHR := if r.promotesWritable then m.promoteWritable else .ok m

/-- The promotions of `recvTimingResp` before the targets are served. -/
def promote (r : Response) : Except MSHRFault MSHR :=
  if m.hasLockedRMWReadTarget then .ok m
  else do
    let m ← m.promoteAfterClean r
    m.promoteIfWritable r

/-- What `recvTimingResp` does after the targets are served: whether the register is still allocated, and the register. -/
def finish (r : Response) : Except MSHRFault (Bool × MSHR) :=
  if m.hasLockedRMWReadTarget then .ok (true, m)
  else do
    match ← m.promoteDeferredTargets r.now with
    | (true, m) =>
      let m ← m.markPending
      .ok (true, m)
    | (false, m) =>
      let m ← m.deallocate
      .ok (false, m)

/-- `BaseCache::recvTimingResp(pkt)`: the targets that are served, whether the register is still allocated, and the
register. -/
def recvTimingResp (r : Response) : Except MSHRFault (List Target × Bool × MSHR) := do
  let _ ← m.front
  let m ← m.promote r
  let (ready, m) ← m.extractServiceableTargets r.pkt
  let (live, m) ← m.finish r
  .ok (ready.list, live, m)

end MSHR

/-! ### Runs -/

namespace Target

/-- What of a target stays as it was when the target was added. -/
structure Tag where
  id : ℕ
  order : ℕ
  source : TargetSource
  req : Request
  needsWritable : Bool
  isLocked : Bool
  deriving DecidableEq, Repr

/-- The tag of a target with the packet. -/
def tagOf (pkt : Packet) (order : ℕ) (source : TargetSource) : Tag where
  id := pkt.id
  order
  source
  req := pkt.req
  needsWritable := pkt.cmd.needsWritable
  isLocked := pkt.cmd == .lockedRMWReadReq

def tag (t : Target) : Tag := tagOf t.pkt t.order t.source

end Target

/-- A register in use, with what it was asked for since it was allocated: the requests, oldest first, the targets that
each response served, and the snoops that it kept since the last response. -/
structure MSHRRun where
  mshr : MSHR := {}
  /-- The register is allocated. -/
  live : Bool := false
  requested : List Target.Tag := []
  responses : List (List Target) := []
  snoops : List Target.Tag := []
  deriving DecidableEq, Repr

/-- What the cache, and the caches below it, do to a register. -/
inductive MSHRCall where
  | allocate (blkAddr : Addr) (blkSize : ℕ) (pkt : Packet) (whenReady order : ℕ) (allocOnFill : Bool)
  | allocateTarget (pkt : Packet) (whenReady order : ℕ) (allocOnFill : Bool)
  | handleSnoop (pkt : Packet) (order now : ℕ)
  | markInService (pendingModifiedResp : Bool)
  | recvTimingResp (r : MSHR.Response)
  /-- The cache sets `isForward`. -/
  | setForward (isForward : Bool)
  /-- A cache below has the request in a register of its own that is not in service. -/
  | setDownstreamPending
  | clearDownstreamPending

namespace MSHRRun

variable (above : ℕ → Bool) (s : MSHRRun)

def Allowed : MSHRCall → Prop
  | .allocate _ _ pkt _ _ _ => s.live = false ∧ pkt.cmd ≠ .lockedRMWReadReq
  | .allocateTarget pkt _ _ _ => s.live = true ∧ pkt.cmd ≠ .hardPFReq ∧ pkt.cmd ≠ .lockedRMWReadReq
  | .handleSnoop pkt _ _ => s.live = true ∧ pkt.cmd ≠ .lockedRMWReadReq
  | .markInService _ => s.live = true ∧ s.mshr.inService = false
  | .recvTimingResp _ => s.live = true ∧ s.mshr.inService = true ∧ s.mshr.downstreamPending = false
  | .setForward _ => s.live = true
  | .setDownstreamPending => s.live = true ∧ s.mshr.downstreamPending = false
  | .clearDownstreamPending => s.live = true ∧ s.mshr.downstreamPending = true

def call : MSHRCall → Except MSHRFault MSHRRun
  | .allocate blkAddr blkSize pkt whenReady order allocOnFill => do
    let mshr ← s.mshr.allocate above blkAddr blkSize pkt whenReady order allocOnFill
    .ok { mshr, live := true, requested := [Target.tagOf pkt order (MSHR.allocateSource pkt)] }
  | .allocateTarget pkt whenReady order allocOnFill => do
    let mshr ← s.mshr.allocateTarget above pkt whenReady order allocOnFill
    .ok { s with mshr, requested := s.requested ++ [Target.tagOf pkt order .fromCPU] }
  | .handleSnoop pkt order now => do
    let (_, _, mshr) ← s.mshr.handleSnoop above pkt order now
    let kept := mshr.targets.list.drop s.mshr.targets.list.length
    .ok { s with mshr, snoops := s.snoops ++ kept.map Target.tag }
  | .markInService pendingModifiedResp => do
    let mshr ← s.mshr.markInService pendingModifiedResp
    .ok { s with mshr }
  | .recvTimingResp r => do
    let (ready, live, mshr) ← s.mshr.recvTimingResp r
    .ok { s with mshr, live, responses := s.responses ++ [ready], snoops := [] }
  | .setForward isForward => .ok { s with mshr.isForward := isForward }
  | .setDownstreamPending => .ok { s with mshr.downstreamPending := true }
  | .clearDownstreamPending => do
    let mshr ← s.mshr.clearDownstreamPending
    .ok { s with mshr }

inductive Reachable : MSHRRun → Prop where
  | init : Reachable {}
  | call {s s' : MSHRRun} {k : MSHRCall} : Reachable s → s.Allowed k → s.call above k = .ok s' → Reachable s'

end MSHRRun

end Gem5.Mem
