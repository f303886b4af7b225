import Gem5.Garnet.State

/-!
# Routers

`Router::wakeup` and what it is made of: route computation, input units, output units, the switch
allocator and the crossbar (`mem/ruby/network/garnet/{RoutingUnit,InputUnit,OutputUnit,
SwitchAllocator,CrossbarSwitch,Router}.cc`).

Input and output ports are the links on them. Loops over ports and virtual channels are folds over
lists in the order of the source; a round-robin search is a search of a rotated list. Statistics
and debug output are left out.
-/

namespace Gem5.Garnet

open Sim Ruby Lib

variable (net : Net)

/-! ### Route computation -/

namespace RoutingUnit

/-- The output links of a router whose table entry for the virtual network meets the destination. -/
def matching (r vnet : ℕ) (dest : List ℕ) : List ℕ :=
  (net.outLinks (.router r)).filter fun l =>
    ((net.link l).routingTableEntry.getD vnet []).any fun n => dest.contains n

/-- The least weight among the links, at most `INFINITE_`. -/
def minWeight (ls : List ℕ) : ℤ :=
  ls.foldl (fun w l => if (net.link l).weight ≤ w then (net.link l).weight else w) infinite

/-- `output_link_candidates`. -/
def candidates (r vnet : ℕ) (dest : List ℕ) : List ℕ :=
  let ls := matching net r vnet dest
  ls.filter fun l => (net.link l).weight = minWeight net ls

/-- `lookupRoutingTable(vnet, msg_destination)`: the output link, and the scheduling state after
the call of `rand()`. -/
def lookupRoutingTable (r vnet : ℕ) (dest : List ℕ) (σ : Sched) : Except Fault (ℕ × Sched) :=
  let cs := candidates net r vnet dest
  match cs with
  | [] => .error .noRoute
  | l :: _ =>
    if net.isVnetOrdered vnet then .ok (l, σ)
    else .ok (cs.getD (net.rand σ.draws % cs.length) l, { σ with draws := σ.draws + 1 })

/-- `m_outports_dirn2idx[dirn]`: the last output port added for the direction; the map gives port
`0` for a direction it does not have. -/
def outportOfDirn (r : ℕ) (dirn : PortDirection) : Except Fault ℕ :=
  let ls := net.outLinks (.router r)
  match (ls.filter fun l => (net.link l).outDirn = dirn).getLast?, ls with
  | some l, _ => .ok l
  | none, l :: _ => .ok l
  | none, [] => .error .noPort

/-- `outportComputeXY(route, inport, inport_dirn)`. -/
def outportComputeXY (r : ℕ) (route : RouteInfo) (inportDirn : PortDirection) : Except Fault ℕ := do
  let cols := net.numCols
  ensure (decide (0 < net.numRows) && decide (0 < cols)) .xyRouting
  let myX := (r : ℤ) % cols
  let myY := (r : ℤ) / cols
  let destX := (route.destRouter : ℤ) % cols
  let destY := (route.destRouter : ℤ) / cols
  ensure (!(destX == myX && destY == myY)) .xyRouting
  if destX ≠ myX then
    if myX ≤ destX then
      ensure (inportDirn == .loc || inportDirn == .west) .xyRouting
      outportOfDirn net r .east
    else
      ensure (inportDirn == .loc || inportDirn == .east) .xyRouting
      outportOfDirn net r .west
  else if myY ≤ destY then
    ensure (inportDirn != .north) .xyRouting
    outportOfDirn net r .north
  else
    ensure (inportDirn != .south) .xyRouting
    outportOfDirn net r .south

/-- `outportCompute(route, inport, inport_dirn)`. -/
def outportCompute (r : ℕ) (route : RouteInfo) (inport : ℕ) (σ : Sched) : Except Fault (ℕ × Sched) :=
  if route.destRouter = r then lookupRoutingTable net r route.vnet route.netDest σ
  else
    match net.routingAlgorithm with
    | .table => lookupRoutingTable net r route.vnet route.netDest σ
    | .xy => do
      let l ← outportComputeXY net r route (net.link inport).inDirn
      pure (l, σ)
    | .custom => .error .customRouting

end RoutingUnit

/-! ### Input units -/

namespace InputUnit

/-- What a head or another flit does to the state of its virtual channel: `set_vc_active`,
`route_compute` and `grant_outport` for a head. -/
def enter (now r l : ℕ) (f : Flit) (vc : VirtualChannel) (σ : Sched) : Except Fault (VirtualChannel × Sched) :=
  if f.isHead then do
    ensure (vc.vcState.1 == .idle) .headNotIdle
    let (outport, σ) ← RoutingUnit.outportCompute net r f.route l σ
    pure ({ vc.setActive now with outputPort := some outport }, σ)
  else do
    ensure (vc.vcState.1 == .active) .bodyNotActive
    pure (vc, σ)

/-- When the flit may take part in switch allocation; a longer pipeline wakes the router then. -/
def pipeline (now r : ℕ) (σ : Sched) : Except Fault (ℕ × Sched) :=
  if net.routerLatency r = 1 then .ok (now, σ)
  else do
    ensure (decide (1 < net.routerLatency r)) .pipeStages
    let wait := net.routerLatency r - 1
    pure (clockEdge (net.period (.router r)) now wait, σ.scheduleWakeup net now r wait)

/-- `InputUnit::wakeup()` of the input port `l` of router `r`. -/
def wakeup (r : ℕ) (s : State) (l : ℕ) : Except Fault State :=
  match (s.data.networkLink l).linkBuffer with
  | [] => .ok s
  | f :: rest =>
    if f.time ≤ s.now then do
      ensure (f.width == net.routerWidth r) .width
      let f := f.incrementHops
      let (vc, σ) ← enter net s.now r l f (s.data.virtualChannels (l, f.vc)) s.sched
      let (t, σ) ← pipeline net s.now r σ
      let f := f.advanceStage .sa t
      let d := s.data.setLink l { s.data.networkLink l with linkBuffer := rest }
      let d := d.setVc (l, f.vc) { vc with inputBuffer := vc.inputBuffer ++ [f] }
      let σ := if isReady rest s.now then σ.scheduleWakeup net s.now r 1 else σ
      pure { s with data := d, sched := σ }
    else .ok s

/-- `increment_credit(in_vc, free_signal, curTime)` of the input port `l` of router `r`. -/
def incrementCredit (r l invc : ℕ) (free : Bool) (s : State) : State :=
  { s with
    data := s.data.pushCredit l ⟨invc, free, s.now⟩
    sched := s.sched.deferOrSchedule net s.now (.creditLink l) (clockEdge (net.period (.router r)) s.now 1) }

end InputUnit

/-! ### Output units -/

namespace OutputUnit

/-- The virtual channels of a virtual network at an output port. -/
def vcsOf (l vnet : ℕ) : List ℕ := (List.range (net.consumerVcs l)).map (vnet * net.consumerVcs l + ·)

/-- `is_vc_idle(vc, curTime)`. -/
def isVcIdle (now l : ℕ) (d : Data) (vc : ℕ) : Bool := (d.outVcState (l, vc)).isInState .idle now

/-- `has_free_vc(vnet)`. -/
def hasFreeVc (now l vnet : ℕ) (d : Data) : Bool := (vcsOf net l vnet).any (isVcIdle now l d)

/-- `has_credit(out_vc)`. -/
def hasCredit (now l outvc : ℕ) (d : Data) : Except Fault Bool := do
  ensure ((d.outVcState (l, outvc)).isInState .active now) .hasCredit
  pure (d.outVcState (l, outvc)).hasCredit

/-- `select_free_vc(vnet)`; `none` is `-1`. -/
def selectFreeVc (now l vnet : ℕ) (d : Data) : Option (ℕ × Data) :=
  ((vcsOf net l vnet).find? (isVcIdle now l d)).map fun vc =>
    (vc, d.setOutVc (l, vc) ((d.outVcState (l, vc)).setState .active now))

/-- `OutputUnit::wakeup()` of the output port `l` of router `r`. -/
def wakeup (r : ℕ) (s : State) (l : ℕ) : Except Fault State :=
  match (s.data.creditLink l).linkBuffer with
  | [] => .ok s
  | c :: rest =>
    if c.time ≤ s.now then do
      let o ← (s.data.outVcState (l, c.vc)).incrementCredit
      let o := if c.isFreeSignal then o.setState .idle s.now else o
      let d := (s.data.setCredit l { s.data.creditLink l with linkBuffer := rest }).setOutVc (l, c.vc) o
      let σ := if isReady rest s.now then
          s.sched.deferOrSchedule net s.now (.outputUnit l) (clockEdge (net.period (.router r)) s.now 1)
        else s.sched
      pure { s with data := d, sched := σ }
    else .ok s

end OutputUnit

/-! ### The switch allocator -/

namespace SwitchAllocator

/-- `m_num_vcs`. -/
def numVcs (r : ℕ) : ℕ := net.virtualNetworks * net.vcPerVnet r

/-- `get_vnet(invc)`. -/
def getVnet (r invc : ℕ) : Except Fault ℕ := do
  ensure (decide (invc / net.vcPerVnet r < net.virtualNetworks)) .badVc
  pure (invc / net.vcPerVnet r)

/-- Another virtual channel of the port has a flit for the same output port that is ready and came
earlier. -/
def isOlder (now l outport enqueueTime : ℕ) (d : Data) (u : ℕ) : Except Fault Bool := do
  let vc := d.virtualChannels (l, u)
  let need ← vc.needStage .sa now
  pure (need && vc.outputPort == some outport && decide (vc.enqueueTime < enqueueTime))

/-- `send_allowed(inport, invc, outport, outvc)`. -/
def sendAllowed (now r l invc outport : ℕ) (outvc : Option ℕ) (d : Data) : Except Fault Bool := do
  let vnet ← getVnet net r invc
  let mayGo ← match outvc with
    | none => .ok (OutputUnit.hasFreeVc net now outport vnet d)
    | some v => OutputUnit.hasCredit now outport v d
  if mayGo then
    if net.isVnetOrdered vnet then do
      let older ← ((List.range (net.vcPerVnet r)).map (vnet * net.vcPerVnet r + ·)).anyM
        (isOlder now l outport (d.virtualChannels (l, invc)).enqueueTime d)
      pure (!older)
    else pure true
  else pure false

/-- The search of `arbitrate_inports` at one input port. -/
def findWinner (now r l : ℕ) (d : Data) : List ℕ → Except Fault (Option (ℕ × ℕ))
  | [] => .ok none
  | invc :: rest => do
    let vc := d.virtualChannels (l, invc)
    if ← vc.needStage .sa now then
      match vc.outputPort with
      | none => .error .noPort
      | some outport =>
        if ← sendAllowed net now r l invc outport vc.outputVc d then pure (some (outport, invc))
        else findWinner now r l d rest
    else findWinner now r l d rest

/-- `arbitrate_inports()` at the input port `l`. -/
def arbitrateInport (now r : ℕ) (d : Data) (l : ℕ) : Except Fault Data := do
  match ← findWinner net now r l d ((List.range (numVcs net r)).rotate (d.roundRobinInvc l)) with
  | none => pure d
  | some (outport, invc) =>
    pure { d with
      portRequests := Function.update d.portRequests l (some outport)
      vcWinners := Function.update d.vcWinners l (some invc) }

/-- `vc_allocate(outport, inport, invc)`. -/
def vcAllocate (now r outport l invc : ℕ) (d : Data) : Except Fault (ℕ × Data) := do
  let vnet ← getVnet net r invc
  match OutputUnit.selectFreeVc net now outport vnet d with
  | none => .error .vcAllocate
  | some (outvc, d) =>
    pure (outvc, d.setVc (l, invc) { d.virtualChannels (l, invc) with outputVc := some outvc })

/-- The output virtual channel the winner goes to, allocated now if it has none yet. -/
def outvcFor (now r outport l invc : ℕ) (d : Data) : Except Fault (ℕ × Data) :=
  match (d.virtualChannels (l, invc)).outputVc with
  | some v => .ok (v, d)
  | none => vcAllocate net now r outport l invc d

/-- The next index after `i` in a round of `n`. -/
def nextIndex (i n : ℕ) : ℕ := if n ≤ i + 1 then 0 else i + 1

/-- The arbiters after input port `l` has won output port `outport` for `invc`. -/
def updateArbiters (r outport l invc : ℕ) (d : Data) : Data :=
  let ports := net.inLinks (.router r)
  { d with
    portRequests := Function.update d.portRequests l none
    roundRobinInport := Function.update d.roundRobinInport outport (nextIndex (ports.idxOf l) ports.length)
    roundRobinInvc := Function.update d.roundRobinInvc l (nextIndex invc (numVcs net r)) }

/-- The body of `arbitrate_outports` for the input port `l` that wins `outport`. -/
def grant (r outport l : ℕ) (s : State) : Except Fault State := do
  match s.data.vcWinners l with
  | none => .error .noPort
  | some invc =>
    let (outvc, d) ← outvcFor net s.now r outport l invc s.data
    let vc := d.virtualChannels (l, invc)
    match vc.inputBuffer with
    | [] => .error .emptyBuffer
    | f :: rest =>
      let o ← (d.outVcState (outport, outvc)).decrementCredit
      let f := { f with outport := some outport, vc := outvc }.advanceStage .st s.now
      ensure (!f.isTail || !isReady rest s.now) .readyAfterTail
      let vc := { vc with inputBuffer := rest }
      let vc := if f.isTail then vc.setIdle s.now else vc
      let d := ((d.setOutVc (outport, outvc) o).setSwitch l (d.switchBuffers l ++ [f])).setVc (l, invc) vc
      let s := InputUnit.incrementCredit net r l invc f.isTail { s with data := d }
      pure { s with data := updateArbiters net r outport l invc s.data }

/-- `arbitrate_outports()` at one output port. -/
def arbitrateOutport (r : ℕ) (s : State) (outport : ℕ) : Except Fault State :=
  let ports := (net.inLinks (.router r)).rotate (s.data.roundRobinInport outport)
  match ports.find? fun l => s.data.portRequests l == some outport with
  | none => .ok s
  | some l => grant net r outport l s

/-- `clear_request_vector()`. -/
def clearRequestVector (r : ℕ) (d : Data) : Data :=
  { d with portRequests := fun l => if (net.link l).dst = .router r then none else d.portRequests l }

/-- Some virtual channel of the router has a flit that is ready for switch allocation at `time`. -/
def anyNeedStage (time r : ℕ) (d : Data) : Except Fault Bool :=
  (net.inLinks (.router r)).anyM fun l =>
    (List.range (numVcs net r)).anyM fun v => (d.virtualChannels (l, v)).needStage .sa time

/-- `check_for_wakeup()`. -/
def checkForWakeup (r : ℕ) (s : State) : Except Fault State := do
  let nextCycle := clockEdge (net.period (.router r)) s.now 1
  if (s.sched.consumers (.router r)).alreadyScheduled nextCycle then pure s
  else if ← anyNeedStage net nextCycle r s.data then
    pure { s with sched := s.sched.scheduleWakeup net s.now r 1 }
  else pure s

/-- `SwitchAllocator::wakeup()`. -/
def wakeup (r : ℕ) (s : State) : Except Fault State := do
  let d ← (net.inLinks (.router r)).foldlM (arbitrateInport net s.now r) s.data
  let s ← (net.outLinks (.router r)).foldlM (arbitrateOutport net r) { s with data := d }
  checkForWakeup net r { s with data := clearRequestVector net r s.data }

end SwitchAllocator

/-! ### The crossbar -/

namespace CrossbarSwitch

/-- `CrossbarSwitch::wakeup()` for the buffer of the input port `l`, with `OutputUnit::insert_flit`. -/
def traverse (r : ℕ) (s : State) (l : ℕ) : Except Fault State :=
  match s.data.switchBuffers l with
  | [] => .ok s
  | f :: rest =>
    if f.time ≤ s.now ∧ f.isStage .st s.now then
      match f.outport with
      | none => .error .noPort
      | some outport =>
        let edge := clockEdge (net.period (.router r)) s.now 1
        let f := { f.advanceStage .lt edge with time := edge }
        .ok { s with
          data := (s.data.pushFlit outport f).setSwitch l rest
          sched := s.sched.deferOrSchedule net s.now (.networkLink outport) edge }
    else .ok s

/-- `CrossbarSwitch::wakeup()`. -/
def wakeup (r : ℕ) (s : State) : Except Fault State := (net.inLinks (.router r)).foldlM (traverse net r) s

end CrossbarSwitch

/-- `Router::wakeup()`. -/
def Router.wakeup (r : ℕ) (s : State) : Except Fault State := do
  ensure (decide (net.period (.router r) ∣ s.now)) .offEdge
  let s ← (net.inLinks (.router r)).foldlM (InputUnit.wakeup net r) s
  let s ← (net.outLinks (.router r)).foldlM (OutputUnit.wakeup net r) s
  let s ← SwitchAllocator.wakeup net r s
  CrossbarSwitch.wakeup net r s

end Gem5.Garnet
