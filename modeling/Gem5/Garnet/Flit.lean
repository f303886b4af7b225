import Gem5.Ruby.MessageBuffer

/-!
# Flits, credits and virtual channels

The data that moves through a Garnet network and the records kept about it
(`mem/ruby/network/garnet/{flit,flitBuffer,Credit,VirtualChannel,OutVcState}.{hh,cc}`).

A `flitBuffer` is a list, first flit first; none of them is ever asked whether it is full. A `Credit`
is a flit with only a virtual channel and a free signal, and is a type of its own here; `Timed` is
what a link needs of both. The type of a flit is set by its constructor from its id and its packet's
size, neither of which changes, so it is a function of the two. A port of a router or an interface
is named by the link on it. Flits are not serialized without bridges.
-/

namespace Gem5.Garnet

open Ruby Lib

/-- `flit_type`, without `CREDIT_`. -/
inductive FlitType where
  | head | body | tail | headTail
  deriving DecidableEq, Repr

/-- `VC_state_type`. -/
inductive VcStateType where
  | idle | vcAb | active
  deriving DecidableEq, Repr

/-- `flit_stage`. -/
inductive FlitStage where
  | i | va | sa | st | lt
  deriving DecidableEq, Repr

/-- `RouteInfo`. -/
structure RouteInfo where
  vnet : ℕ
  /-- `net_dest`: the nodes in the destination set. -/
  netDest : List ℕ
  srcNi : ℕ
  srcRouter : ℕ
  destNi : ℕ
  destRouter : ℕ
  hopsTraversed : ℤ
  deriving DecidableEq, Repr

/-- The ways a wakeup can stop the simulator. -/
inductive Fault where
  /-- `OutVcState::increment_credit`: more credits than buffers. -/
  | incrementCredit
  /-- `OutVcState::decrement_credit`: fewer than none. -/
  | decrementCredit
  /-- `InputUnit::wakeup`: a head flit for a virtual channel that is not idle. -/
  | headNotIdle
  /-- `InputUnit::wakeup`: a body or tail flit for one that is not active. -/
  | bodyNotActive
  /-- `VirtualChannel::need_stage`: a ready flit in one that is not active. -/
  | needStage
  /-- `SwitchAllocator::arbitrate_outports`: a flit left after the tail. -/
  | readyAfterTail
  /-- `SwitchAllocator::vc_allocate`: no free output virtual channel. -/
  | vcAllocate
  /-- `OutputUnit::has_credit`: the output virtual channel is not active. -/
  | hasCredit
  /-- A flit is taken from an empty buffer. -/
  | emptyBuffer
  /-- A port or a virtual channel number that is `-1` is used. -/
  | noPort
  /-- `assert(clockEdge() == curTick())`. -/
  | offEdge
  /-- The width of a flit is not the width of the unit it is in. -/
  | width
  /-- `NetworkLink::wakeup`: a flit of a virtual network the link does not carry. -/
  | vnetNotSupported
  /-- `assert(pipe_stages > 1)`. -/
  | pipeStages
  /-- `SwitchAllocator::get_vnet`, `NetworkInterface::get_vnet`: no such virtual network. -/
  | badVc
  /-- `fatal("Fatal Error:: No Route exists from this Router.")`. -/
  | noRoute
  /-- `RoutingUnit::outportComputeXY`: one of its checks. -/
  | xyRouting
  /-- `panic("%s placeholder executed")`. -/
  | customRouting
  /-- `NetworkInterface`: no output port for the virtual network. -/
  | noOutport
  /-- `NetworkInterface`: no protocol buffer for the virtual network. -/
  | noNode
  /-- `NetworkInterface::calculateVC`: possible network deadlock. -/
  | deadlock
  /-- A check of a protocol buffer. -/
  | buffer (e : BufferFault)
  deriving DecidableEq, Repr

/-! ### Buffers of timed things -/

/-- What a link needs of a flit or a credit: `get_time()` and `set_time(time)`. -/
class Timed (α : Type) where
  time : α → ℕ
  setTime : ℕ → α → α

/-- `flitBuffer::isReady(curTime)`. -/
def isReady {α : Type} [Timed α] (b : List α) (curTime : ℕ) : Bool :=
  match b with
  | [] => false
  | f :: _ => decide (Timed.time f ≤ curTime)

lemma isReady_iff {α : Type} [Timed α] {b : List α} {t : ℕ} :
    isReady b t = true ↔ ∃ f rest, b = f :: rest ∧ Timed.time f ≤ t := by
  cases b with
  | nil => simp [isReady]
  | cons f rest => simp [isReady]

/-! ### Flits -/

/-- The type the constructor gives flit `id` of a packet of `size` flits. -/
def flitType (id size : ℕ) : FlitType :=
  if size = 1 then .headTail else if id = 0 then .head else if id = size - 1 then .tail else .body

/-- A `flit`. -/
structure Flit where
  packetId : ℕ
  id : ℕ
  vc : ℕ
  vnet : ℕ
  route : RouteInfo
  /-- `m_size`: the number of flits of the packet. -/
  size : ℕ
  msgPtr : Message
  msgSize : ℕ
  width : ℕ
  enqueueTime : ℕ
  dequeueTime : ℕ
  time : ℕ
  /-- `m_outport`; not set before switch allocation. -/
  outport : Option ℕ
  srcDelay : ℕ
  stage : FlitStage × ℕ
  deriving DecidableEq, Repr

instance : Timed Flit where
  time := Flit.time
  setTime t f := { f with time := t }

namespace Flit

/-- The constructor, followed by `set_src_delay(delay)`. -/
def new (packetId id vc vnet : ℕ) (route : RouteInfo) (size : ℕ) (msgPtr : Message) (msgSize bWidth curTime delay : ℕ) :
    Flit :=
  { packetId, id, vc, vnet, route, size, msgPtr, msgSize, width := bWidth, enqueueTime := curTime
    dequeueTime := curTime, time := curTime, outport := none, srcDelay := delay, stage := (.i, curTime) }

/-- `get_type()`. -/
def type (f : Flit) : FlitType := flitType f.id f.size

/-- `HEAD_` or `HEAD_TAIL_`. -/
def isHead (f : Flit) : Bool := f.type == .head || f.type == .headTail

/-- `TAIL_` or `HEAD_TAIL_`. -/
def isTail (f : Flit) : Bool := f.type == .tail || f.type == .headTail

/-- `increment_hops()`. -/
def incrementHops (f : Flit) : Flit :=
  { f with route := { f.route with hopsTraversed := f.route.hopsTraversed + 1 } }

/-- `advance_stage(t_stage, newTime)`. -/
def advanceStage (stage : FlitStage) (newTime : ℕ) (f : Flit) : Flit := { f with stage := (stage, newTime) }

/-- `is_stage(stage, time)`. -/
def isStage (stage : FlitStage) (time : ℕ) (f : Flit) : Bool := stage == f.stage.1 && decide (f.stage.2 ≤ time)

lemma isHead_iff {f : Flit} (h : f.id < f.size) : f.isHead = true ↔ f.id = 0 := by
  unfold isHead type flitType
  split_ifs <;> simp_all

lemma isTail_iff {f : Flit} (h : f.id < f.size) : f.isTail = true ↔ f.id + 1 = f.size := by
  unfold isTail type flitType
  split_ifs <;> simp_all <;> omega

end Flit

/-- A `Credit`. -/
structure Credit where
  vc : ℕ
  isFreeSignal : Bool
  time : ℕ
  deriving DecidableEq, Repr

instance : Timed Credit where
  time := Credit.time
  setTime t c := { c with time := t }

/-! ### Virtual channels -/

/-- `INFINITE_`. -/
def infinite : ℕ := 10000

/-- A `VirtualChannel` of an input unit. -/
structure VirtualChannel where
  inputBuffer : List Flit := []
  /-- `m_vc_state`: the state and the tick it was entered. -/
  vcState : VcStateType × ℕ := (.idle, 0)
  /-- `m_output_port`, a link; `none` is `-1`. -/
  outputPort : Option ℕ := none
  enqueueTime : ℕ := infinite
  /-- `m_output_vc`; `none` is `-1`. -/
  outputVc : Option ℕ := none
  deriving DecidableEq, Repr, Inhabited

namespace VirtualChannel

/-- `set_idle(curTime)`. -/
def setIdle (curTime : ℕ) (v : VirtualChannel) : VirtualChannel :=
  { v with vcState := (.idle, curTime), enqueueTime := infinite, outputPort := none, outputVc := none }

/-- `set_active(curTime)`. -/
def setActive (curTime : ℕ) (v : VirtualChannel) : VirtualChannel :=
  { v with vcState := (.active, curTime), enqueueTime := curTime }

/-- `need_stage(stage, time)`. -/
def needStage (stage : FlitStage) (time : ℕ) (v : VirtualChannel) : Except Fault Bool :=
  match v.inputBuffer with
  | [] => .ok false
  | f :: _ =>
    if f.time ≤ time then
      if v.vcState.1 = .active ∧ v.vcState.2 ≤ time then .ok (f.isStage stage time) else .error .needStage
    else .ok false

end VirtualChannel

/-- An `OutVcState`: what a sender knows about a virtual channel of the receiver. -/
structure OutVcState where
  /-- `m_time`: when the state was entered. -/
  time : ℕ := 0
  vcState : VcStateType := .idle
  creditCount : ℤ
  maxCreditCount : ℤ
  deriving DecidableEq, Repr

namespace OutVcState

/-- `isInState(state, request_time)`. -/
def isInState (state : VcStateType) (requestTime : ℕ) (o : OutVcState) : Bool :=
  o.vcState == state && decide (o.time ≤ requestTime)

/-- `setState(state, time)`. -/
def setState (state : VcStateType) (time : ℕ) (o : OutVcState) : OutVcState :=
  { o with vcState := state, time := time }

/-- `has_credit()`. -/
def hasCredit (o : OutVcState) : Bool := decide (0 < o.creditCount)

/-- `increment_credit()`. -/
def incrementCredit (o : OutVcState) : Except Fault OutVcState :=
  let o := { o with creditCount := o.creditCount + 1 }
  if o.creditCount ≤ o.maxCreditCount then .ok o else .error .incrementCredit

/-- `decrement_credit()`. -/
def decrementCredit (o : OutVcState) : Except Fault OutVcState :=
  let o := { o with creditCount := o.creditCount - 1 }
  if 0 ≤ o.creditCount then .ok o else .error .decrementCredit

end OutVcState

end Gem5.Garnet
