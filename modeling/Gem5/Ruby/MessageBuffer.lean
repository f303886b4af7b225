import Gem5.Lib.Except

/-!
# Message buffers

The buffers between a controller and its network interface (`mem/ruby/network/MessageBuffer.cc`):
a priority heap of messages ordered by arrival time, a map of messages the consumer has put aside,
and a bound on the two together. A dequeue does not make room until the next cycle, which is what
the fields about the current cycle are for.

The heap is a list in dequeue order. `m_stall_msg_map` is a list of messages with the addresses
they are stalled on, in the order in which they were stalled, and `m_stall_map_size` is its length.
The callback is a flag: the only one ever registered is `NetworkInterface::dequeueCallback` of the
interface that fills the buffer. The calls return the ticks at which they schedule the consumer;
scheduling it is left to the caller. Statistics are left out.
-/

namespace Gem5.Ruby

open Lib

/-- What the network reads of a message, and what the buffers write to it. -/
structure Message where
  /-- The message itself, which the network does not look at. -/
  payload : ℕ
  /-- `getDestination().getAllDest()`: the nodes it goes to, in ascending order. -/
  destination : List ℕ
  /-- `MessageSizeType_to_int(getMessageSize())`. -/
  size : ℕ
  /-- `getTime()`: when it was made. -/
  time : ℕ
  /-- `m_LastEnqueueTime`: when it can be dequeued. -/
  lastEnqueueTime : ℕ := 0
  /-- `m_msg_counter`: the count its buffer gave it. -/
  msgCounter : ℕ := 0
  deriving DecidableEq, Repr, Inhabited

/-- `MessageRandomization`. -/
inductive MessageRandomization where
  | disabled | enabled | rubySystem
  deriving DecidableEq, Repr

inductive BufferFault where
  /-- `panic_if((delta == 0) && !m_allow_zero_latency)`. -/
  | zeroDelta
  /-- `panic("FIFO ordering violated")`. -/
  | fifoViolated
  /-- `assert(current_time >= msg_ptr->getLastEnqueueTime())`. -/
  | dequeuedEarly
  /-- `assert((m_max_size == 0) || ((m_prio_heap.size() + m_stall_map_size) <= m_max_size))`. -/
  | overfull
  /-- `assert(m_time_last_time_pop <= current_time)`. -/
  | popInFuture
  /-- `assert(isReady(current_time))`. -/
  | notReady
  /-- `assert(m_stall_msg_map.count(addr) > 0)`. -/
  | notStalled
  deriving DecidableEq, Repr

/-- A `MessageBuffer`. -/
structure MessageBuffer where
  /-- `m_prio_heap`, in the order in which it is dequeued. -/
  prioHeap : List Message := []
  /-- `m_stall_msg_map`: the address each message is stalled on, and the message. -/
  stallMsgMap : List (ℕ × Message) := []
  /-- `m_max_size`; `0` is unbounded. -/
  maxSize : ℕ := 0
  /-- `m_max_dequeue_rate`; `0` is unbounded. -/
  maxDequeueRate : ℕ := 0
  /-- `m_dequeues_this_cy`. -/
  dequeuesThisCy : ℕ := 0
  /-- `m_time_last_time_enqueue`. -/
  timeLastTimeEnqueue : ℕ := 0
  /-- `m_time_last_time_pop`. -/
  timeLastTimePop : ℕ := 0
  /-- `m_last_arrival_time`. -/
  lastArrivalTime : ℕ := 0
  /-- `m_size_at_cycle_start`. -/
  sizeAtCycleStart : ℕ := 0
  /-- `m_stalled_at_cycle_start`. -/
  stalledAtCycleStart : ℕ := 0
  /-- `m_msgs_this_cycle`. -/
  msgsThisCycle : ℕ := 0
  /-- `m_msg_counter`. -/
  msgCounter : ℕ := 0
  /-- `m_last_message_strict_fifo_bypassed`. -/
  lastMessageStrictFifoBypassed : Bool := false
  /-- `m_strict_fifo`. -/
  strictFifo : Bool := false
  /-- `m_randomization`. -/
  randomization : MessageRandomization := .rubySystem
  /-- `m_allow_zero_latency`. -/
  allowZeroLatency : Bool := false
  /-- `m_dequeue_callback` is set. -/
  dequeueCallback : Bool := false
  deriving DecidableEq, Repr, Inhabited

namespace MessageBuffer

/-- The buffer is as its constructor left it. -/
def IsNew (b : MessageBuffer) : Prop :=
  b = { maxSize := b.maxSize, maxDequeueRate := b.maxDequeueRate, strictFifo := b.strictFifo
        randomization := b.randomization, allowZeroLatency := b.allowZeroLatency }

/-- `m_prio_heap.size() + m_stall_map_size`. -/
def occupancy (b : MessageBuffer) : ℕ := b.prioHeap.length + b.stallMsgMap.length

/-- `areNSlotsAvailable(n, current_time)`: pops of the current cycle have not made room yet,
enqueues have taken it. -/
def areNSlotsAvailable (n currentTime : ℕ) (b : MessageBuffer) : Bool :=
  if b.maxSize = 0 then true
  else if b.timeLastTimePop < currentTime then decide (b.prioHeap.length + b.stallMsgMap.length + n ≤ b.maxSize)
  else if b.timeLastTimeEnqueue < currentTime then
    decide (b.sizeAtCycleStart + b.stalledAtCycleStart + n ≤ b.maxSize)
  else decide (b.sizeAtCycleStart + b.msgsThisCycle + b.stalledAtCycleStart + n ≤ b.maxSize)

/-- Dequeue order: earlier arrival first, then the smaller count. -/
def before (m m' : Message) : Bool :=
  if m.lastEnqueueTime = m'.lastEnqueueTime then decide (m.msgCounter ≤ m'.msgCounter)
  else decide (m.lastEnqueueTime < m'.lastEnqueueTime)

/-- `push_heap`. -/
def pushHeap (m : Message) : List Message → List Message
  | [] => [m]
  | x :: l => if before x m then x :: pushHeap m l else m :: x :: l

@[simp] lemma length_pushHeap (m : Message) (l : List Message) : (pushHeap m l).length = l.length + 1 := by
  induction l with
  | nil => rfl
  | cons x l ih => unfold pushHeap; split_ifs <;> simp [ih]

def isRandomized (rubyIsRandom : Bool) (b : MessageBuffer) : Bool :=
  !(b.randomization == .disabled || (b.randomization == .rubySystem && !rubyIsRandom))

/-- `m_last_arrival_time` when `enqueue` compares the arrival time with it. -/
def lastArrival (currentTime : ℕ) (rubyIsRandom : Bool) (b : MessageBuffer) : ℕ :=
  if b.isRandomized rubyIsRandom && b.strictFifo then max b.lastArrivalTime currentTime else b.lastArrivalTime

/-- The arrival time `enqueue` computes; `draw` is what `random_time()` returns. -/
def arrivalTime (currentTime delta : ℕ) (rubyIsRandom : Bool) (draw : ℕ) (b : MessageBuffer) : ℕ :=
  if b.isRandomized rubyIsRandom then
    if b.strictFifo then b.lastArrival currentTime rubyIsRandom + draw else currentTime + draw
  else currentTime + delta

/-- `enqueue(message, current_time, delta, ruby_is_random, ruby_warmup, bypassStrictFIFO)`: the
buffer, and the tick at which its consumer is scheduled. -/
def enqueue (message : Message) (currentTime delta : ℕ) (rubyIsRandom rubyWarmup : Bool) (draw : ℕ)
    (bypassStrictFifo : Bool) (b : MessageBuffer) : Except BufferFault (MessageBuffer × ℕ) := do
  let first := decide (b.timeLastTimeEnqueue < currentTime)
  ensure (delta != 0 || b.allowZeroLatency) .zeroDelta
  let arrival := b.arrivalTime currentTime delta rubyIsRandom draw
  let last := b.lastArrival currentTime rubyIsRandom
  ensure (!b.strictFifo || bypassStrictFifo || b.lastMessageStrictFifoBypassed || decide (last ≤ arrival))
    .fifoViolated
  ensure (decide (message.lastEnqueueTime ≤ currentTime)) .dequeuedEarly
  let b : MessageBuffer :=
    { b with
      msgsThisCycle := (if first then 0 else b.msgsThisCycle) + 1
      timeLastTimeEnqueue := if first then currentTime else b.timeLastTimeEnqueue
      msgCounter := b.msgCounter + 1
      lastArrivalTime := if rubyWarmup then last else arrival
      lastMessageStrictFifoBypassed := bypassStrictFifo
      prioHeap := pushHeap { message with lastEnqueueTime := arrival, msgCounter := b.msgCounter + 1 } b.prioHeap }
  ensure (b.maxSize == 0 || decide (b.occupancy ≤ b.maxSize)) .overfull
  pure (b, arrival)

/-- `m_prio_heap` has a message whose time has come. -/
def hasReady (currentTime : ℕ) (b : MessageBuffer) : Bool :=
  match b.prioHeap with
  | [] => false
  | m :: _ => decide (m.lastEnqueueTime ≤ currentTime)

/-- The dequeue rate allows another dequeue at `currentTime`. -/
def canDequeue (currentTime : ℕ) (b : MessageBuffer) : Bool :=
  b.maxDequeueRate == 0 || decide (b.timeLastTimePop < currentTime) || decide (b.dequeuesThisCy < b.maxDequeueRate)

/-- `isReady(current_time)`: whether a message can be dequeued, and whether the consumer is to be
scheduled for the next cycle because only the dequeue rate is in the way. -/
def isReady (currentTime : ℕ) (b : MessageBuffer) : Except BufferFault (Bool × Bool) := do
  ensure (decide (b.timeLastTimePop ≤ currentTime)) .popInFuture
  pure (b.canDequeue currentTime && b.hasReady currentTime, !b.canDequeue currentTime && b.hasReady currentTime)

/-- `dequeue(current_time)`: the buffer, and whether the callback is called. -/
def dequeue (currentTime : ℕ) (b : MessageBuffer) : Except BufferFault (MessageBuffer × Bool) := do
  let (ready, _) ← b.isReady currentTime
  ensure ready .notReady
  let first := decide (b.timeLastTimePop < currentTime)
  pure ({ b with
      sizeAtCycleStart := if first then b.prioHeap.length else b.sizeAtCycleStart
      stalledAtCycleStart := if first then b.stallMsgMap.length else b.stalledAtCycleStart
      timeLastTimePop := if first then currentTime else b.timeLastTimePop
      dequeuesThisCy := (if first then 0 else b.dequeuesThisCy) + 1
      prioHeap := b.prioHeap.tail }, b.dequeueCallback)

/-- `stallMessage(addr, current_time)`. -/
def stallMessage (addr currentTime : ℕ) (b : MessageBuffer) : Except BufferFault (MessageBuffer × Bool) := do
  let (b', called) ← b.dequeue currentTime
  pure ({ b' with stallMsgMap := b'.stallMsgMap ++ (b.prioHeap.take 1).map fun m => (addr, m) }, called)

/-- `reanalyzeMessages(addr, current_time)`. -/
def reanalyzeMessages (addr : ℕ) (b : MessageBuffer) : Except BufferFault MessageBuffer := do
  ensure (b.stallMsgMap.any fun x => x.1 == addr) .notStalled
  pure { b with
    prioHeap := ((b.stallMsgMap.filter fun x => x.1 == addr).map Prod.snd).foldl (fun l m => pushHeap m l) b.prioHeap
    stallMsgMap := b.stallMsgMap.filter fun x => x.1 != addr }

/-- `reanalyzeAllMessages(current_time)`. -/
def reanalyzeAllMessages (b : MessageBuffer) : MessageBuffer :=
  { b with
    prioHeap := (b.stallMsgMap.map Prod.snd).foldl (fun l m => pushHeap m l) b.prioHeap
    stallMsgMap := [] }

/-- `recycle(current_time, recycle_latency)`. -/
def recycle (currentTime recycleLatency : ℕ) (b : MessageBuffer) : Except BufferFault MessageBuffer := do
  let (ready, _) ← b.isReady currentTime
  ensure ready .notReady
  match b.prioHeap with
  | [] => pure b
  | m :: l => pure { b with prioHeap := pushHeap { m with lastEnqueueTime := currentTime + recycleLatency } l }

/-- `delayHead(current_time, delta, ruby_is_random, ruby_warmup)`. -/
def delayHead (currentTime delta : ℕ) (rubyIsRandom rubyWarmup : Bool) (draw : ℕ) (b : MessageBuffer) :
    Except BufferFault (MessageBuffer × ℕ) :=
  match b.prioHeap with
  | [] => .error .notReady
  | m :: l => { b with prioHeap := l }.enqueue m currentTime delta rubyIsRandom rubyWarmup draw false

/-- `registerDequeueCallback(callback)`. -/
def registerDequeueCallback (b : MessageBuffer) : MessageBuffer := { b with dequeueCallback := true }

/-- `unregisterDequeueCallback()`. -/
def unregisterDequeueCallback (b : MessageBuffer) : MessageBuffer := { b with dequeueCallback := false }

/-- Replace the message at the front: what a consumer does that changes a message it only peeked at. -/
def updateFront (f : Message → Message) (b : MessageBuffer) : MessageBuffer :=
  match b.prioHeap with
  | [] => b
  | m :: l => { b with prioHeap := f m :: l }

end MessageBuffer

end Gem5.Ruby
