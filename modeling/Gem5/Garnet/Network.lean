import Gem5.Garnet.Router
import Gem5.Garnet.NetworkInterface

/-!
# The network as a whole

Links, the dispatch of wakeups through consumer events, `globalWakeup`, and the steps a network can
take (`mem/ruby/network/garnet/{NetworkLink,GarnetNetwork}.cc`, `mem/ruby/common/Consumer.cc`).

Two notions of a run are used. In a *free* run any component may be woken at any time, in any order;
nothing depends on who scheduled what. In an *event-driven* run a consumer is woken when its event
fires, time does not pass an event, and `globalWakeup`, whose event has a later priority, runs
after all consumer events of its tick. In both the protocol may put messages into the buffers of the
interfaces and take messages out at any moment, as the buffers allow.
-/

namespace Gem5.Garnet

open Sim Ruby Lib NetworkInterface

/-- The consumer that reads from the links that end at a node. -/
def Node.consumer : Node → ConsumerId
  | .router r => .router r
  | .ni n => .ni n

def Net.consumerList (net : Net) : List ConsumerId :=
  (List.range net.numRouters).map .router ++ (List.range net.numNodes).map .ni ++
    (List.range net.links.length).flatMap fun l => [.networkLink l, .creditLink l, .outputUnit l]

variable (net : Net)

/-! ### Links -/

/-- `NetworkLink::wakeup()`, for network links and credit links: `self` is the link, `reader` its
consumer, and `check` its checks of what it carries. -/
def NetworkLink.wakeupWith {α : Type} [Timed α] (self reader : ConsumerId) (latency : ℕ)
    (check : α → Except Fault PUnit) (now : ℕ) (b : LinkState α) (σ : Sched) : Except Fault (LinkState α × Sched) := do
  ensure (decide (net.period self ∣ now)) .offEdge
  match b.srcQueue with
  | [] => pure (b, σ)
  | f :: rest =>
    if Timed.time f ≤ now then do
      check f
      let edge := clockEdge (net.period self) now latency
      let σ := σ.scheduleEventAbsolute net now reader edge
      pure (⟨rest, b.linkBuffer ++ [Timed.setTime edge f]⟩, if rest.isEmpty then σ else σ.scheduleEvent net now self 1)
    else pure (b, σ.scheduleEvent net now self 1)

/-- The checks of a network link: the width and the virtual network of the flit. -/
def NetworkLink.check (l : ℕ) (f : Flit) : Except Fault PUnit := do
  ensure (f.width == (net.link l).bitWidth) .width
  ensure ((net.link l).isVnetSupported f.vnet) .vnetNotSupported

/-- `wakeup()` of the network link `l`. -/
def NetworkLink.wakeup (l : ℕ) (s : State) : Except Fault State := do
  let (b, σ) ← NetworkLink.wakeupWith net (.networkLink l) (net.link l).dst.consumer (net.link l).latency
    (NetworkLink.check net l) s.now (s.data.networkLink l) s.sched
  pure { s with data := s.data.setLink l b, sched := σ }

/-- `wakeup()` of the credit link `l`. -/
def CreditLink.wakeup (l : ℕ) (s : State) : Except Fault State := do
  let (b, σ) ← NetworkLink.wakeupWith net (.creditLink l) (net.link l).src.consumer (net.link l).creditLatency
    (fun _ => .ok ⟨⟩) s.now (s.data.creditLink l) s.sched
  pure { s with data := s.data.setCredit l b, sched := σ }

/-! ### Dispatch -/

/-- `wakeup()` of a consumer. -/
def wakeup (c : ConsumerId) (s : State) : Except Fault State :=
  match c with
  | .router r => Router.wakeup net r s
  | .ni n => NetworkInterface.wakeup net n s
  | .networkLink l => NetworkLink.wakeup net l s
  | .creditLink l => CreditLink.wakeup net l s
  | .outputUnit l =>
    match (net.link l).src with
    | .router r => OutputUnit.wakeup net r s l
    | .ni _ => .ok s

/-- `Consumer::processCurrentEvent()` of a consumer. -/
def processCurrentEvent (c : ConsumerId) (s : State) : Except Fault State := do
  let (pending, k) := (s.sched.consumers c).takeCurrent (net.period c) s.now
  let s := { s with sched := s.sched.modify c fun _ => k }
  let s ← if pending then wakeup net c s else pure s
  pure { s with sched := s.sched.modify c (·.scheduleNextWakeup (net.period c) s.now) }

/-! ### The global event -/

namespace GarnetNetwork

/-- `m_thread_router_mask[tid]`. -/
def threadRouterMask (tid : ℕ) : BitVec 64 :=
  (List.range net.numRouters).foldl (fun m id => if id % net.numThreads = tid then m ||| bit id else m) 0

/-- The loop body of `runRoutersFromMask(mask, current_tick)`. -/
def runRouter (s : State) (r : ℕ) : Except Fault State :=
  match (s.sched.consumers (.router r)).tryConsumeTick s.now with
  | (true, k) => Router.wakeup net r { s with sched := s.sched.modify (.router r) fun _ => k }
  | (false, k) => .ok { s with sched := s.sched.modify (.router r) fun _ => k }

/-- `runRoutersFromMask(mask, current_tick)`. -/
def runRoutersFromMask (mask : BitVec 64) (s : State) : Except Fault State := (bitsOf mask).foldlM (runRouter net) s

/-- `drainDeferredSchedules()`. -/
def drainDeferredSchedules (now : ℕ) (σ : Sched) : Sched :=
  let entries := (List.range net.numThreads).flatMap σ.deferredSchedules
  { entries.foldl (fun σ e => σ.scheduleEventAbsolute net now e.1 e.2) σ with
    deferredSchedules := fun tid => if tid < net.numThreads then [] else σ.deferredSchedules tid }

/-- An order in which the workers of a parallel region may run their routers: each entry is a worker
and a router, and each worker runs the routers of its mask in increasing order. -/
def IsInterleaving (mask : BitVec 64) (order : List (ℕ × ℕ)) : Prop :=
  (∀ e ∈ order, e.1 < net.numThreads) ∧ ∀ tid < net.numThreads,
      (order.filter fun e => e.1 = tid).map Prod.snd = bitsOf (mask &&& threadRouterMask net tid)

/-- The parallel region, in which the workers take turns as `order` says, and the drain after it. -/
def runParallel (order : List (ℕ × ℕ)) (s : State) : Except Fault State := do
  let s := { s with sched := { s.sched with parallelActive := true } }
  let s ← order.foldlM (fun s e => runRouter net { s with sched := { s.sched with tid := e.1 } } e.2) s
  pure { s with sched := drainDeferredSchedules net s.now { s.sched with parallelActive := false } }

/-- The routers are few enough, or the threads: no parallel region is entered. -/
def isSequential (mask : BitVec 64) : Bool :=
  decide (net.numThreads ≤ 1) || decide ((bitsOf mask).length < net.parallelThreshold)

def dispatch (mask : BitVec 64) (order : List (ℕ × ℕ)) (s : State) : Except Fault State :=
  if mask = 0 then .ok s else if isSequential net mask then runRoutersFromMask net mask s else runParallel net order s

/-- `globalWakeup()`. -/
def globalWakeup (order : List (ℕ × ℕ)) (s : State) : Except Fault State := do
  let P := net.clockPeriod .network
  let (mask, ring) := s.sched.ring.takeMask P s.now
  let s ← dispatch net mask order { s with sched := { s.sched with ring } }
  let next := s.sched.ring.computeNextWakeupTick (WakeupRing.slot P s.now) s.now P
  pure { s with sched := { s.sched with globalEvent := next } }

end GarnetNetwork

/-! ### The protocol -/

/-- What the protocol does to the buffers of interface `n` and a virtual network. -/
inductive ProtocolOp where
  /-- A message for the network, with the delay it is given and a value of `random_time()`. -/
  | enqueue (msg : Message) (delta draw : ℕ)
  /-- A message that came from the network is dequeued. -/
  | dequeue
  | stallMessage (addr : ℕ)
  | reanalyzeMessages (addr : ℕ)
  | reanalyzeAllMessages
  | recycle (latency : ℕ)
  | delayHead (delta draw : ℕ)
  deriving DecidableEq, Repr

/-- What an operation does to the buffer of messages that came from the network, and whether the
buffer calls back. -/
def ProtocolOp.onOutNode (now : ℕ) : ProtocolOp → MessageBuffer → Except BufferFault (MessageBuffer × Bool)
  | .enqueue .., b => .ok (b, false)
  | .dequeue, b => b.dequeue now
  | .stallMessage addr, b => b.stallMessage addr now
  | .reanalyzeMessages addr, b => (b.reanalyzeMessages addr).map (·, false)
  | .reanalyzeAllMessages, b => .ok (b.reanalyzeAllMessages, false)
  | .recycle latency, b => (b.recycle now latency).map (·, false)
  | .delayHead delta draw, b =>
    (b.delayHead now delta net.randomization net.warmupEnabled draw).map fun x => (x.1, false)

/-- The protocol puts a message into a buffer of interface `n`, which schedules the interface. -/
def protocolEnqueue (n vnet : ℕ) (msg : Message) (delta draw : ℕ) (s : State) : Except Fault State :=
  let x := s.data.ni n
  match x.inNode vnet with
  | none => .error .noNode
  | some b => do
    let (b, arrival) ← ofBuffer
      (b.enqueue msg s.now delta net.randomization net.warmupEnabled draw false)
    pure { s with
      data := s.data.setNi n { x with inNode := Function.update x.inNode vnet (some b) }
      sched := s.sched.scheduleEventAbsolute net s.now (.ni n) arrival }

/-- The protocol works on a buffer of messages that came from the network. -/
def protocolAccess (n vnet : ℕ) (op : ProtocolOp) (s : State) : Except Fault State :=
  let x := s.data.ni n
  match x.outNode vnet with
  | none => .error .noNode
  | some b => do
    let (b, called) ← ofBuffer (op.onOutNode net s.now b)
    let s := { s with data := s.data.setNi n { x with outNode := Function.update x.outNode vnet (some b) } }
    pure (if called then dequeueCallback net n s else s)

def protocol (n vnet : ℕ) (op : ProtocolOp) (s : State) : Except Fault State :=
  match op with
  | .enqueue msg delta draw => protocolEnqueue net n vnet msg delta draw s
  | op => protocolAccess net n vnet op s

/-- `random_time()` is at least `1`, and the destination of a message, a `NetDest`, is a set. -/
def ProtocolOp.Legal : ProtocolOp → Prop
  | .enqueue msg _ draw => 0 < draw ∧ msg.destination.Nodup
  | .delayHead _ draw => 0 < draw
  | _ => True

/-! ### Runs -/

/-- The states of all free runs: any wakeup and any operation of the protocol at any time, whatever
is scheduled. -/
inductive FreeReachable : State → Prop where
  | init : FreeReachable (State.init net)
  | wakeup {s s' : State} (c : ConsumerId) (hc : c ∈ net.consumerList) (h : FreeReachable s)
      (hs : wakeup net c s = .ok s') : FreeReachable s'
  | protocol {s s' : State} (n vnet : ℕ) (op : ProtocolOp) (hn : n < net.numNodes) (h : FreeReachable s)
      (hs : protocol net n vnet op s = .ok s') : FreeReachable s'
  /-- Time goes on and anything is scheduled. -/
  | later {s : State} (now : ℕ) (σ : Sched) (h : FreeReachable s) (hle : s.now ≤ now) :
      FreeReachable ⟨now, s.data, σ⟩

/-- What happens in a step of an event-driven run. -/
inductive Action where
  /-- Simulated time goes on to `t`. -/
  | advance (t : ℕ)
  /-- The event of a consumer fires. -/
  | fire (c : ConsumerId)
  /-- `globalWakeupEvent` fires; workers, if there are any, take turns as the list says. -/
  | globalWakeup (order : List (ℕ × ℕ))
  | protocol (n vnet : ℕ) (op : ProtocolOp)
  deriving DecidableEq, Repr

/-- No consumer has an event before `t`. -/
def noEventBefore (t : ℕ) (σ : Sched) : Prop :=
  ∀ c ∈ net.consumerList, ∀ w, (σ.consumers c).wakeupEvent = some w → t ≤ w

inductive Step (s : State) : Action → State → Prop where
  | advance {t : ℕ} (hle : s.now ≤ t) (hev : noEventBefore net t s.sched) (hg : t ≤ s.sched.globalEvent) :
      Step s (.advance t) { s with now := t }
  | fire {s' : State} {c : ConsumerId} (hc : c ∈ net.consumerList)
      (hev : (s.sched.consumers c).wakeupEvent = some s.now) (hs : processCurrentEvent net c s = .ok s') :
      Step s (.fire c) s'
  | globalWakeup {s' : State} {order : List (ℕ × ℕ)} (hg : s.sched.globalEvent = s.now)
      (hev : noEventBefore net (s.now + 1) s.sched)
      (ho : GarnetNetwork.IsInterleaving net (s.sched.ring.takeMask (net.clockPeriod .network) s.now).1 order)
      (hs : GarnetNetwork.globalWakeup net order s = .ok s') : Step s (.globalWakeup order) s'
  | protocol {s' : State} {n vnet : ℕ} {op : ProtocolOp} (hn : n < net.numNodes) (hd : op.Legal)
      (hs : protocol net n vnet op s = .ok s') : Step s (.protocol n vnet op) s'

/-- The states of all event-driven runs. -/
inductive Reachable : State → Prop where
  | init : Reachable (State.init net)
  | step {s s' : State} (a : Action) (h : Reachable s) (hs : Step net s a s') : Reachable s'

end Gem5.Garnet
