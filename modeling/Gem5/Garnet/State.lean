import Gem5.Garnet.Net
import Gem5.Garnet.WakeupRing

/-!
# The state of a network

What changes while a network runs, in two parts. `Data` is what the components hold: buffers,
virtual channels, arbiters, and a history of what was created and delivered. `Sched` is what decides
when they run: the consumers with their events, the wakeup ring, and the schedules that worker
threads have put off. No component looks at the second part to decide what to do with the first,
except that `rand()` chooses between routes.

A virtual channel of a port is a pair of a link and a number. The buffer a link reads from, which
belongs to the component at its start (`outBuffer` of an output unit, `outFlitQueue` of an
interface; for a credit link `creditQueue` of an input unit, `outCreditQueue` of an interface), is
kept with the link, as `link_srcQueue`.
-/

namespace Gem5.Garnet

open Sim Ruby Function

/-- A link and a virtual channel on it. -/
abbrev Chan := ℕ × ℕ

/-- A `NetworkLink` or `CreditLink`: the buffer it reads from and its own. -/
structure LinkState (α : Type) where
  /-- `link_srcQueue`. -/
  srcQueue : List α := []
  linkBuffer : List α := []
  deriving DecidableEq, Repr, Inhabited

/-- What an input port of an interface holds besides its links. -/
structure InputPort where
  /-- `m_stall_queue`. -/
  stallQueue : List Flit := []
  messageEnqueuedThisCycle : Bool := false
  deriving DecidableEq, Repr, Inhabited

/-- A `NetworkInterface`, without its ports. -/
structure NiState where
  /-- `m_vc_allocator`: where the search for a free virtual channel starts, by virtual network. -/
  vcAllocator : ℕ → ℕ := fun _ => 0
  vcBusyCounter : ℕ → ℕ := fun _ => 0
  /-- `m_stall_count`: how many messages of each virtual network are stalled. -/
  stallCount : ℕ → ℤ := fun _ => 0
  outVcState : ℕ → OutVcState
  niOutVcs : ℕ → List Flit := fun _ => []
  /-- `m_ni_out_vcs_enqueue_time`. -/
  outVcsEnqueueTime : ℕ → ℕ := fun _ => infinite
  /-- `inNode_ptr`: the buffers messages come from. -/
  inNode : ℕ → Option MessageBuffer
  /-- `outNode_ptr`: the buffers messages go to. -/
  outNode : ℕ → Option MessageBuffer

/-- A packet: what its flits have in common. -/
structure Packet where
  id : ℕ
  vnet : ℕ
  size : ℕ
  /-- The route, as it was when the packet was made. -/
  route : RouteInfo
  msgPtr : Message
  deriving DecidableEq, Repr

def Flit.packet (f : Flit) : Packet :=
  ⟨f.packetId, f.vnet, f.size, { f.route with hopsTraversed := -1 }, f.msgPtr⟩

structure Data where
  /-- `virtualChannels` of the input units. -/
  virtualChannels : Chan → VirtualChannel
  /-- `outVcState` of the output units. -/
  outVcState : Chan → OutVcState
  /-- `m_round_robin_invc`, by input port. -/
  roundRobinInvc : ℕ → ℕ
  /-- `m_round_robin_inport`, by output port: an index among the input ports. -/
  roundRobinInport : ℕ → ℕ
  /-- `m_port_requests`: the output port an input port asks for. -/
  portRequests : ℕ → Option ℕ
  /-- `m_vc_winners`: the virtual channel it asks for. -/
  vcWinners : ℕ → Option ℕ
  /-- `switchBuffers`, by input port. -/
  switchBuffers : ℕ → List Flit
  networkLink : ℕ → LinkState Flit
  creditLink : ℕ → LinkState Credit
  /-- The input ports of the interfaces. -/
  inPort : ℕ → InputPort
  /-- `_vcRoundRobin` of the output ports of the interfaces. -/
  vcRoundRobin : ℕ → ℕ
  ni : ℕ → NiState
  nextPacketId : ℕ
  /-- How often `random_time()` was called. -/
  timeDraws : ℕ
  /-- The packets made so far, in order. -/
  created : List Packet
  /-- The flits that have left the network, and the interfaces they left at. -/
  received : List (ℕ × Flit)
  /-- The flits whose messages were put into a protocol buffer, with the interface and virtual
  network of the buffer, in order. -/
  enqueued : List (ℕ × ℕ × Flit)

/-- What decides when the components run. -/
structure Sched where
  consumers : ConsumerId → Consumer
  ring : WakeupRing
  /-- When `globalWakeupEvent` is scheduled. -/
  globalEvent : ℕ
  /-- `s_parallel_active`. -/
  parallelActive : Bool
  /-- The worker thread that is running, whose buffer `t_deferred_queue` is. -/
  tid : ℕ
  /-- `m_deferred_schedules`, by worker. -/
  deferredSchedules : ℕ → List (ConsumerId × ℕ)
  /-- How often `rand()` was called. -/
  draws : ℕ

/-- A network at a moment of simulated time. -/
structure State where
  /-- `curTick()`. -/
  now : ℕ
  data : Data
  sched : Sched

/-! ### Scheduling -/

namespace Sched

variable (net : Net) (now : ℕ)

def modify (c : ConsumerId) (f : Consumer → Consumer) (σ : Sched) : Sched :=
  { σ with consumers := update σ.consumers c (f (σ.consumers c)) }

/-- `c->scheduleEvent(cycles)`. -/
def scheduleEvent (c : ConsumerId) (cycles : ℕ) : Sched → Sched :=
  modify c (·.scheduleEvent (net.period c) now cycles)

/-- `c->scheduleEventAbsolute(tick)`. -/
def scheduleEventAbsolute (c : ConsumerId) (tick : ℕ) : Sched → Sched :=
  modify c (·.scheduleEventAbsolute (net.period c) now tick)

/-- `GarnetNetwork::deferOrSchedule(c, tick)`. -/
def deferOrSchedule (c : ConsumerId) (tick : ℕ) (σ : Sched) : Sched :=
  if σ.parallelActive then
    { σ with
      deferredSchedules := update σ.deferredSchedules σ.tid (σ.deferredSchedules σ.tid ++ [(c, tick)]) }
  else σ.scheduleEventAbsolute net now c tick

/-- `GarnetNetwork::registerWakeup(router_id, tick)`. -/
def registerWakeup (routerId tick : ℕ) (σ : Sched) : Sched :=
  { σ with ring := σ.ring.registerWakeup (net.clockPeriod .network) routerId tick }

/-- `Router::schedule_wakeup(time)`. -/
def scheduleWakeup (r cycles : ℕ) (σ : Sched) : Sched :=
  (σ.modify (.router r) (·.recordEvent (net.period (.router r)) now cycles)).registerWakeup net r
    (clockEdge (net.period (.router r)) now cycles)

end Sched

/-! ### Access to the data -/

namespace Data

/-- Set a virtual channel of an input unit. -/
def setVc (c : Chan) (v : VirtualChannel) (d : Data) : Data :=
  { d with virtualChannels := update d.virtualChannels c v }

/-- Set what an output unit knows of a virtual channel. -/
def setOutVc (c : Chan) (o : OutVcState) (d : Data) : Data :=
  { d with outVcState := update d.outVcState c o }

/-- Set the buffers of a network link. -/
def setLink (l : ℕ) (b : LinkState Flit) (d : Data) : Data :=
  { d with networkLink := update d.networkLink l b }

/-- Set the buffers of a credit link. -/
def setCredit (l : ℕ) (b : LinkState Credit) (d : Data) : Data :=
  { d with creditLink := update d.creditLink l b }

def setSwitch (l : ℕ) (b : List Flit) (d : Data) : Data :=
  { d with switchBuffers := update d.switchBuffers l b }

/-- Set an input port of an interface. -/
def setInPort (l : ℕ) (p : InputPort) (d : Data) : Data :=
  { d with inPort := update d.inPort l p }

def setNi (n : ℕ) (x : NiState) (d : Data) : Data := { d with ni := update d.ni n x }

/-- Put a flit into the buffer a network link reads from. -/
def pushFlit (l : ℕ) (f : Flit) (d : Data) : Data :=
  d.setLink l { d.networkLink l with srcQueue := (d.networkLink l).srcQueue ++ [f] }

/-- Put a credit into the buffer a credit link reads from. -/
def pushCredit (l : ℕ) (c : Credit) (d : Data) : Data :=
  d.setCredit l { d.creditLink l with srcQueue := (d.creditLink l).srcQueue ++ [c] }

end Data

/-! ### The beginning -/

/-- A new `OutVcState` of a virtual network. -/
def OutVcState.new (net : Net) (vnet : ℕ) : OutVcState :=
  { creditCount := net.buffersPerVc vnet, maxCreditCount := net.buffersPerVc vnet }

/-- The components when they have been constructed. -/
def Data.init (net : Net) : Data where
  virtualChannels _ := {}
  outVcState c := OutVcState.new net (c.2 / net.consumerVcs c.1)
  roundRobinInvc _ := 0
  roundRobinInport _ := 0
  portRequests _ := none
  vcWinners _ := none
  switchBuffers _ := []
  networkLink _ := {}
  creditLink _ := {}
  inPort _ := {}
  vcRoundRobin _ := 0
  ni n :=
    { outVcState := fun v => OutVcState.new net (v / net.niVcPerVnet n)
      inNode := net.toNetQueues n
      outNode := net.fromNetQueues n }
  nextPacketId := 0
  timeDraws := 0
  created := []
  received := []
  enqueued := []

/-- Nothing is scheduled but the first `globalWakeup`. -/
def Sched.init (net : Net) : Sched where
  consumers _ := {}
  ring := {}
  globalEvent := clockEdge (net.clockPeriod .network) 0 1
  parallelActive := false
  tid := 0
  deferredSchedules _ := []
  draws := 0

/-- The network after `init()`. -/
def State.init (net : Net) : State := ⟨0, Data.init net, Sched.init net⟩

end Gem5.Garnet
