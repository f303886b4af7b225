import Gem5.Lib.BinaryHeap
import Gem5.Lib.ListMap
import Gem5.Ruby.MessageBuffer

/-!
# Message buffers and their containers

The message buffer again, with the containers of `mem/ruby/network/MessageBuffer.hh`: `m_prio_heap`
is an array kept a heap by `push_heap` and `pop_heap`, `m_stall_msg_map` maps addresses to lists in
ascending order, and `m_stall_map_size` is a count of its own. The network is modelled over the
simpler `MessageBuffer`, whose heap is a list in dequeue order.

Each call is described once: what it moves between the heap and the stall map, as `Moved`, and what
it does to the registers of the current cycle. The invariants over whole sequences of calls are read
off these descriptions.
-/

namespace Gem5.Ruby

open Lib BinaryHeap

/-- The checks of a buffer, with those of the stall map. -/
inductive HeapFault where
  /-- One of the checks the simpler model has. -/
  | check (f : BufferFault)
  /-- `assert(m_stall_map_size >= 0)`. -/
  | stallMapSize
  /-- `assert(m->getLastEnqueueTime() <= schdTick)`. -/
  | requeuedEarly
  deriving DecidableEq, Repr

/-- A `MessageBuffer` with its containers. -/
structure HeapBuffer where
  /-- `m_prio_heap`. -/
  prioHeap : Array Message := #[]
  /-- `m_stall_msg_map`. -/
  stallMsgMap : ListMap ℕ Message := {}
  /-- `m_stall_map_size`. -/
  stallMapSize : ℤ := 0
  /-- `m_max_size`; `0` is unbounded. -/
  maxSize : ℕ := 0
  /-- `m_max_dequeue_rate`; `0` is unbounded. -/
  maxDequeueRate : ℕ := 0
  /-- `m_dequeues_this_cy`. -/
  dequeuesThisCy : ℕ := 0
  /-- `m_time_last_time_enqueue`. -/
  timeLastTimeEnqueue : ℕ := 0
  /-- `m_time_last_time_pop`. -/
  timeLastTimePop : ℕ := 0
  /-- `m_last_arrival_time`. -/
  lastArrivalTime : ℕ := 0
  /-- `m_size_at_cycle_start`. -/
  sizeAtCycleStart : ℕ := 0
  /-- `m_stalled_at_cycle_start`. -/
  stalledAtCycleStart : ℕ := 0
  /-- `m_msgs_this_cycle`. -/
  msgsThisCycle : ℕ := 0
  /-- `m_msg_counter`. -/
  msgCounter : ℕ := 0
  /-- `m_last_message_strict_fifo_bypassed`. -/
  lastMessageStrictFifoBypassed : Bool := false
  /-- `m_strict_fifo`. -/
  strictFifo : Bool := false
  /-- `m_randomization`. -/
  randomization : MessageRandomization := .rubySystem
  /-- `m_allow_zero_latency`. -/
  allowZeroLatency : Bool := false
  /-- `m_dequeue_callback` is set. -/
  dequeueCallback : Bool := false

namespace HeapBuffer

open BinaryHeap (entry IsHeap IsPreorder)
open MessageBuffer (before)

/-- The buffer is as its constructor left it. -/
def IsNew (b : HeapBuffer) : Prop :=
  b = { maxSize := b.maxSize, maxDequeueRate := b.maxDequeueRate, strictFifo := b.strictFifo
        randomization := b.randomization, allowZeroLatency := b.allowZeroLatency }

/-- `m_prio_heap.front()`. -/
def front (b : HeapBuffer) : Message := entry b.prioHeap 0

/-- `m_prio_heap.size() + m_stall_map_size`. -/
def occupancy (b : HeapBuffer) : ℕ := b.prioHeap.size + b.stallMapSize.toNat

/-- `current_size + current_stall_size` of `areNSlotsAvailable`: pops of the current cycle have not
made room yet, enqueues have taken it. -/
def visibleSize (currentTime : ℕ) (b : HeapBuffer) : ℕ :=
  if b.timeLastTimePop < currentTime then b.prioHeap.size + b.stallMapSize.toNat
  else if b.timeLastTimeEnqueue < currentTime then b.sizeAtCycleStart + b.stalledAtCycleStart
  else b.sizeAtCycleStart + b.msgsThisCycle + b.stalledAtCycleStart

/-- `areNSlotsAvailable(n, current_time)`, which adds in `unsigned int`. -/
def areNSlotsAvailable (n currentTime : ℕ) (b : HeapBuffer) : Bool :=
  if b.maxSize = 0 then true else decide ((b.visibleSize currentTime + n) % 2 ^ 32 ≤ b.maxSize)

def isRandomized (rubyIsRandom : Bool) (b : HeapBuffer) : Bool :=
  !(b.randomization == .disabled || (b.randomization == .rubySystem && !rubyIsRandom))

/-- `m_last_arrival_time` when `enqueue` compares the arrival time with it. -/
def lastArrival (currentTime : ℕ) (rubyIsRandom : Bool) (b : HeapBuffer) : ℕ :=
  if b.isRandomized rubyIsRandom && b.strictFifo then max b.lastArrivalTime currentTime else b.lastArrivalTime

/-- The arrival time `enqueue` computes; `draw` is what `random_time()` returns. -/
def arrivalTime (currentTime delta : ℕ) (rubyIsRandom : Bool) (draw : ℕ) (b : HeapBuffer) : ℕ :=
  if b.isRandomized rubyIsRandom then
    if b.strictFifo then b.lastArrival currentTime rubyIsRandom + draw else currentTime + draw
  else currentTime + delta

/-- The message with the key `enqueue` gives it. -/
def stamp (message : Message) (arrival : ℕ) (b : HeapBuffer) : Message :=
  { message with lastEnqueueTime := arrival, msgCounter := b.msgCounter + 1 }

/-- The buffer after `enqueue`, with `last` for `m_last_arrival_time` as it was compared. -/
def afterPush (message : Message) (currentTime arrival last : ℕ) (rubyWarmup bypassStrictFifo : Bool)
    (b : HeapBuffer) : HeapBuffer :=
  { b with
    msgsThisCycle := (if b.timeLastTimeEnqueue < currentTime then 0 else b.msgsThisCycle) + 1
    timeLastTimeEnqueue := if b.timeLastTimeEnqueue < currentTime then currentTime else b.timeLastTimeEnqueue
    msgCounter := b.msgCounter + 1
    lastArrivalTime := if rubyWarmup then last else arrival
    lastMessageStrictFifoBypassed := bypassStrictFifo
    prioHeap := push before (b.stamp message arrival) b.prioHeap }

/-- `enqueue(message, current_time, delta, ruby_is_random, ruby_warmup, bypassStrictFIFO)`: the
buffer, and the tick at which its consumer is scheduled. -/
def enqueue (message : Message) (currentTime delta : ℕ) (rubyIsRandom rubyWarmup : Bool) (draw : ℕ)
    (bypassStrictFifo : Bool) (b : HeapBuffer) : Except HeapFault (HeapBuffer × ℕ) := do
  ensure (delta != 0 || b.allowZeroLatency) (.check .zeroDelta)
  let arrival := b.arrivalTime currentTime delta rubyIsRandom draw
  let last := b.lastArrival currentTime rubyIsRandom
  ensure (!b.strictFifo || bypassStrictFifo || b.lastMessageStrictFifoBypassed || decide (last ≤ arrival))
    (.check .fifoViolated)
  ensure (decide (message.lastEnqueueTime ≤ currentTime)) (.check .dequeuedEarly)
  let b' := b.afterPush message currentTime arrival last rubyWarmup bypassStrictFifo
  ensure (b'.maxSize == 0 || decide (b'.occupancy ≤ b'.maxSize)) (.check .overfull)
  pure (b', arrival)

/-- `m_prio_heap` has a message whose time has come. -/
def hasReady (currentTime : ℕ) (b : HeapBuffer) : Bool :=
  decide (0 < b.prioHeap.size) && decide (b.front.lastEnqueueTime ≤ currentTime)

/-- The dequeue rate allows another dequeue at `currentTime`. -/
def canDequeue (currentTime : ℕ) (b : HeapBuffer) : Bool :=
  b.maxDequeueRate == 0 || decide (b.timeLastTimePop < currentTime) || decide (b.dequeuesThisCy < b.maxDequeueRate)

/-- `isReady(current_time)`: whether a message can be dequeued, and whether the consumer is to be
scheduled for the next cycle because only the dequeue rate is in the way. -/
def isReady (currentTime : ℕ) (b : HeapBuffer) : Except HeapFault (Bool × Bool) := do
  ensure (decide (b.timeLastTimePop ≤ currentTime)) (.check .popInFuture)
  pure (b.canDequeue currentTime && b.hasReady currentTime, !b.canDequeue currentTime && b.hasReady currentTime)

/-- `assert(isReady(current_time))`. -/
def assertReady (currentTime : ℕ) (b : HeapBuffer) : Except HeapFault PUnit := do
  let (ready, _) ← b.isReady currentTime
  ensure ready (.check .notReady)

/-- The buffer after `dequeue`. -/
def afterPop (currentTime : ℕ) (b : HeapBuffer) : HeapBuffer :=
  { b with
    sizeAtCycleStart := if b.timeLastTimePop < currentTime then b.prioHeap.size else b.sizeAtCycleStart
    stalledAtCycleStart := if b.timeLastTimePop < currentTime then b.stallMapSize.toNat else b.stalledAtCycleStart
    timeLastTimePop := if b.timeLastTimePop < currentTime then currentTime else b.timeLastTimePop
    dequeuesThisCy := (if b.timeLastTimePop < currentTime then 0 else b.dequeuesThisCy) + 1
    prioHeap := pop before b.prioHeap }

/-- `dequeue(current_time)`: the buffer, and whether the callback is called. -/
def dequeue (currentTime : ℕ) (b : HeapBuffer) : Except HeapFault (HeapBuffer × Bool) := do
  b.assertReady currentTime
  pure (b.afterPop currentTime, b.dequeueCallback)

/-- `stallMessage(addr, current_time)`. -/
def stallMessage (addr currentTime : ℕ) (b : HeapBuffer) : Except HeapFault (HeapBuffer × Bool) := do
  b.assertReady currentTime
  let message := b.front
  let (b', called) ← b.dequeue currentTime
  pure ({ b' with
      stallMsgMap := b'.stallMsgMap.pushBack addr message
      stallMapSize := b'.stallMapSize + 1 }, called)

/-- `reanalyzeList(lt, schdTick)`: each message goes back to the heap, and the consumer is scheduled
for each. -/
def reanalyzeList (schdTick : ℕ) : List Message → HeapBuffer → Except HeapFault (HeapBuffer × List ℕ)
  | [], b => pure (b, [])
  | m :: lt, b => do
    ensure (decide (m.lastEnqueueTime ≤ schdTick)) .requeuedEarly
    let (b', ticks) ← reanalyzeList schdTick lt { b with prioHeap := push before m b.prioHeap }
    pure (b', schdTick :: ticks)

/-- `reanalyzeMessages(addr, current_time)`. -/
def reanalyzeMessages (addr currentTime : ℕ) (b : HeapBuffer) : Except HeapFault (HeapBuffer × List ℕ) := do
  ensure (b.stallMsgMap.contains addr) (.check .notStalled)
  let b := { b with stallMapSize := b.stallMapSize - (b.stallMsgMap.get addr).length }
  ensure (decide (0 ≤ b.stallMapSize)) .stallMapSize
  let (b', ticks) ← reanalyzeList currentTime (b.stallMsgMap.get addr) b
  pure ({ b' with stallMsgMap := b'.stallMsgMap.erase addr }, ticks)

/-- The loop of `reanalyzeAllMessages` over the entries of the map. -/
def reanalyzeEntries (currentTime : ℕ) : List (ℕ × List Message) → HeapBuffer → Except HeapFault (HeapBuffer × List ℕ)
  | [], b => pure (b, [])
  | x :: rest, b => do
    let b := { b with stallMapSize := b.stallMapSize - x.2.length }
    ensure (decide (0 ≤ b.stallMapSize)) .stallMapSize
    let (b', ticks) ← reanalyzeList currentTime x.2 b
    let (b'', ticks') ← reanalyzeEntries currentTime rest b'
    pure (b'', ticks ++ ticks')

/-- `reanalyzeAllMessages(current_time)`. -/
def reanalyzeAllMessages (currentTime : ℕ) (b : HeapBuffer) : Except HeapFault (HeapBuffer × List ℕ) := do
  let (b', ticks) ← reanalyzeEntries currentTime b.stallMsgMap.entries b
  pure ({ b' with stallMsgMap := {} }, ticks)

/-- `recycle(current_time, recycle_latency)`: the buffer, and the tick at which its consumer is
scheduled. -/
def recycle (currentTime recycleLatency : ℕ) (b : HeapBuffer) : Except HeapFault (HeapBuffer × ℕ) := do
  b.assertReady currentTime
  let node := b.front
  let heap := popHeap before b.prioHeap
  let futureTime := currentTime + recycleLatency
  let node := { node with lastEnqueueTime := futureTime }
  pure ({ b with prioHeap := pushHeap before (heap.setIfInBounds (heap.size - 1) node) }, futureTime)

/-! ## What each call does -/

lemma before_isPreorder : IsPreorder before where
  trans {x y z} hxy hyz := by
    simp only [before] at *
    split_ifs at * <;> simp only [decide_eq_true_eq] at * <;> omega
  total x y := by
    simp only [before]
    split_ifs <;> simp only [decide_eq_true_eq] <;> omega

lemma before_iff {m m' : Message} : before m m' = true ↔ m.lastEnqueueTime < m'.lastEnqueueTime ∨
      (m.lastEnqueueTime = m'.lastEnqueueTime ∧ m.msgCounter ≤ m'.msgCounter) := by
  simp only [before]
  split_ifs with h <;> simp only [decide_eq_true_eq] <;> omega

lemma assertReady_ok {t : ℕ} {b : HeapBuffer} {u : PUnit} (h : b.assertReady t = .ok u) :
    b.timeLastTimePop ≤ t ∧ b.canDequeue t = true ∧ 0 < b.prioHeap.size ∧ b.front.lastEnqueueTime ≤ t := by
  obtain ⟨r, hr, h⟩ := bind_eq_ok.mp h
  obtain ⟨_, hpop, hr⟩ := bind_eq_ok.mp hr
  cases hr
  rw [ensure_eq_ok] at hpop h
  simp only [decide_eq_true_eq, Bool.and_eq_true, hasReady] at hpop h
  exact ⟨hpop, h⟩

lemma enqueue_ok {message : Message} {t delta draw arrival : ℕ} {isRandom warmup bypass : Bool} {b b' : HeapBuffer}
    (h : b.enqueue message t delta isRandom warmup draw bypass = .ok (b', arrival)) :
    arrival = b.arrivalTime t delta isRandom draw ∧
      (b.strictFifo = false ∨ bypass = true ∨ b.lastMessageStrictFifoBypassed = true ∨ b.lastArrival t isRandom ≤ arrival) ∧
      b' = b.afterPush message t arrival (b.lastArrival t isRandom) warmup bypass ∧
      (b'.maxSize = 0 ∨ b'.occupancy ≤ b'.maxSize) := by
  obtain ⟨_, -, h⟩ := bind_eq_ok.mp h
  obtain ⟨_, hfifo, h⟩ := bind_eq_ok.mp h
  obtain ⟨_, -, h⟩ := bind_eq_ok.mp h
  obtain ⟨_, hsize, h⟩ := bind_eq_ok.mp h
  cases h
  grind [ensure_eq_ok]

lemma dequeue_ok {t : ℕ} {b b' : HeapBuffer} {called : Bool} (h : b.dequeue t = .ok (b', called)) :
    b.timeLastTimePop ≤ t ∧ 0 < b.prioHeap.size ∧ b' = b.afterPop t := by
  obtain ⟨_, hready, h⟩ := bind_eq_ok.mp h
  cases h
  obtain ⟨hpop, -, hpos, -⟩ := assertReady_ok hready
  exact ⟨hpop, hpos, rfl⟩

/-- The buffer after `stallMessage`. -/
def afterStall (addr t : ℕ) (b : HeapBuffer) : HeapBuffer :=
  { b.afterPop t with
    stallMsgMap := b.stallMsgMap.pushBack addr b.front
    stallMapSize := b.stallMapSize + 1 }

lemma stallMessage_ok {addr t : ℕ} {b b' : HeapBuffer} {called : Bool}
    (h : b.stallMessage addr t = .ok (b', called)) :
    b.timeLastTimePop ≤ t ∧ 0 < b.prioHeap.size ∧ b' = b.afterStall addr t := by
  obtain ⟨_, -, h⟩ := bind_eq_ok.mp h
  obtain ⟨⟨b1, c⟩, hdeq, h⟩ := bind_eq_ok.mp h
  obtain ⟨hpop, hpos, rfl⟩ := dequeue_ok hdeq
  cases h
  exact ⟨hpop, hpos, rfl⟩

/-- The messages of `l` go back to the heap. -/
def requeue (l : List Message) (b : HeapBuffer) : HeapBuffer :=
  { b with prioHeap := pushAll before l b.prioHeap }

lemma reanalyzeList_ok {t : ℕ} {lt : List Message} {b b' : HeapBuffer} {ticks : List ℕ}
    (h : reanalyzeList t lt b = .ok (b', ticks)) : b' = b.requeue lt := by
  induction lt generalizing b b' ticks with
  | nil =>
    cases h
    rfl
  | cons m lt ih =>
    obtain ⟨_, -, h⟩ := bind_eq_ok.mp h
    obtain ⟨⟨b1, ticks₁⟩, hrec, h⟩ := bind_eq_ok.mp h
    cases h
    exact ih hrec

/-- The buffer after the messages of `l` have left the stall map, which is now `map`. -/
def afterRequeue (l : List Message) (map : ListMap ℕ Message) (b : HeapBuffer) : HeapBuffer :=
  { b.requeue l with stallMsgMap := map, stallMapSize := b.stallMapSize - l.length }

lemma reanalyzeMessages_ok {addr t : ℕ} {b b' : HeapBuffer} {ticks : List ℕ}
    (h : b.reanalyzeMessages addr t = .ok (b', ticks)) :
    b' = b.afterRequeue (b.stallMsgMap.get addr) (b.stallMsgMap.erase addr) := by
  obtain ⟨_, -, h⟩ := bind_eq_ok.mp h
  obtain ⟨_, -, h⟩ := bind_eq_ok.mp h
  obtain ⟨⟨b1, ticks₁⟩, hlist, h⟩ := bind_eq_ok.mp h
  rw [reanalyzeList_ok hlist] at h
  cases h
  rfl

lemma reanalyzeEntries_ok {t : ℕ} {entries : List (ℕ × List Message)} {b b' : HeapBuffer} {ticks : List ℕ}
    (h : reanalyzeEntries t entries b = .ok (b', ticks)) :
    b' = b.afterRequeue (entries.flatMap Prod.snd) b.stallMsgMap := by
  induction entries generalizing b b' ticks with
  | nil =>
    cases h
    simp [afterRequeue, requeue, pushAll]
  | cons x rest ih =>
    obtain ⟨_, -, h⟩ := bind_eq_ok.mp h
    obtain ⟨⟨b1, ticks₁⟩, hlist, h⟩ := bind_eq_ok.mp h
    obtain ⟨⟨b2, ticks₂⟩, hrest, h⟩ := bind_eq_ok.mp h
    rw [reanalyzeList_ok hlist] at hrest
    cases h
    rw [ih hrest]
    simp [afterRequeue, requeue, pushAll, Int.sub_sub]

lemma reanalyzeAllMessages_ok {t : ℕ} {b b' : HeapBuffer} {ticks : List ℕ}
    (h : b.reanalyzeAllMessages t = .ok (b', ticks)) : b' = b.afterRequeue b.stallMsgMap.values {} := by
  obtain ⟨⟨b1, ticks₁⟩, hent, h⟩ := bind_eq_ok.mp h
  rw [reanalyzeEntries_ok hent] at h
  cases h
  rfl

/-- The message with the key `recycle` gives it. -/
def recycled (futureTime : ℕ) (m : Message) : Message := { m with lastEnqueueTime := futureTime }

lemma recycle_ok {t latency future : ℕ} {b b' : HeapBuffer} (h : b.recycle t latency = .ok (b', future)) :
    0 < b.prioHeap.size ∧ b' = { b with
        prioHeap := push before (recycled (t + latency) b.front) (pop before b.prioHeap) } := by
  obtain ⟨_, hready, h⟩ := bind_eq_ok.mp h
  obtain ⟨-, -, hpos, -⟩ := assertReady_ok hready
  refine ⟨hpos, ?_⟩
  dsimp only at h
  rw [set_last (by simpa using hpos)] at h
  cases h
  rfl

/-! ## Sequences of calls -/

/-- A call, without the time it is made at; `draw` is what `random_time()` returns. -/
inductive Call where
  | enqueue (message : Message) (delta : ℕ) (rubyIsRandom rubyWarmup : Bool) (draw : ℕ) (bypassStrictFifo : Bool)
  | dequeue
  | stallMessage (addr : ℕ)
  | reanalyzeMessages (addr : ℕ)
  | reanalyzeAllMessages
  | recycle (recycleLatency : ℕ)

/-- The buffer after a call at time `t`. -/
def perform (t : ℕ) (b : HeapBuffer) : Call → Except HeapFault HeapBuffer
  | .enqueue message delta isRandom warmup draw bypass => do
    let (b', _) ← b.enqueue message t delta isRandom warmup draw bypass
    pure b'
  | .dequeue => do
    let (b', _) ← b.dequeue t
    pure b'
  | .stallMessage addr => do
    let (b', _) ← b.stallMessage addr t
    pure b'
  | .reanalyzeMessages addr => do
    let (b', _) ← b.reanalyzeMessages addr t
    pure b'
  | .reanalyzeAllMessages => do
    let (b', _) ← b.reanalyzeAllMessages t
    pure b'
  | .recycle latency => do
    let (b', _) ← b.recycle t latency
    pure b'

inductive Performed (t : ℕ) (b : HeapBuffer) : Call → HeapBuffer → Prop
  | enqueue (message : Message) (delta : ℕ) (isRandom warmup : Bool) (draw : ℕ) (bypass : Bool)
      (fifo : b.strictFifo = false ∨ bypass = true ∨ b.lastMessageStrictFifoBypassed = true ∨
        b.lastArrival t isRandom ≤ b.arrivalTime t delta isRandom draw) :
      Performed t b (.enqueue message delta isRandom warmup draw bypass)
        (b.afterPush message t (b.arrivalTime t delta isRandom draw) (b.lastArrival t isRandom) warmup bypass)
  | dequeue (pop : b.timeLastTimePop ≤ t) (pos : 0 < b.prioHeap.size) : Performed t b .dequeue (b.afterPop t)
  | stallMessage (addr : ℕ) (pop : b.timeLastTimePop ≤ t) (pos : 0 < b.prioHeap.size) :
      Performed t b (.stallMessage addr) (b.afterStall addr t)
  | reanalyzeMessages (addr : ℕ) :
      Performed t b (.reanalyzeMessages addr)
        (b.afterRequeue (b.stallMsgMap.get addr) (b.stallMsgMap.erase addr))
  | reanalyzeAllMessages : Performed t b .reanalyzeAllMessages (b.afterRequeue b.stallMsgMap.values {})
  | recycle (latency : ℕ) (pos : 0 < b.prioHeap.size) :
      Performed t b (.recycle latency)
        { b with
          prioHeap := push before (recycled (t + latency) b.front) (pop before b.prioHeap) }

lemma performed_of_ok {t : ℕ} {b b' : HeapBuffer} {c : Call} (h : b.perform t c = .ok b') : Performed t b c b' := by
  cases c with
  | enqueue message delta isRandom warmup draw bypass =>
    obtain ⟨⟨b1, arrival⟩, h, he⟩ := bind_eq_ok.mp h
    cases he
    obtain ⟨rfl, hfifo, rfl, -⟩ := enqueue_ok h
    exact .enqueue message delta isRandom warmup draw bypass hfifo
  | dequeue =>
    obtain ⟨⟨b1, called⟩, h, he⟩ := bind_eq_ok.mp h
    cases he
    obtain ⟨hpop, hpos, rfl⟩ := dequeue_ok h
    exact .dequeue hpop hpos
  | stallMessage addr =>
    obtain ⟨⟨b1, called⟩, h, he⟩ := bind_eq_ok.mp h
    cases he
    obtain ⟨hpop, hpos, rfl⟩ := stallMessage_ok h
    exact .stallMessage addr hpop hpos
  | reanalyzeMessages addr =>
    obtain ⟨⟨b1, ticks⟩, h, he⟩ := bind_eq_ok.mp h
    cases he
    rw [reanalyzeMessages_ok h]
    exact .reanalyzeMessages addr
  | reanalyzeAllMessages =>
    obtain ⟨⟨b1, ticks⟩, h, he⟩ := bind_eq_ok.mp h
    cases he
    rw [reanalyzeAllMessages_ok h]
    exact .reanalyzeAllMessages
  | recycle latency =>
    obtain ⟨⟨b1, future⟩, h, he⟩ := bind_eq_ok.mp h
    cases he
    obtain ⟨hpos, rfl⟩ := recycle_ok h
    exact .recycle latency hpos

/-- All messages of the buffer, those of the heap first. -/
def contents (b : HeapBuffer) : List Message := b.prioHeap.toList ++ b.stallMsgMap.values

/-- The heap is one, the size of the stall map is what it says, and each message has a count of its
own that the buffer has given out. -/
structure Valid (b : HeapBuffer) : Prop where
  heap : IsHeap before b.prioHeap.size b.prioHeap
  size : b.stallMapSize = b.stallMsgMap.values.length
  fresh : ∀ m ∈ b.contents, m.msgCounter ≤ b.msgCounter
  nodup : (b.contents.map Message.msgCounter).Nodup

lemma IsNew.valid {b : HeapBuffer} (h : b.IsNew) : b.Valid := by
  rw [h]
  refine ⟨?_, rfl, ?_, List.nodup_nil⟩
  · intro i _ hi
    exact absurd hi (Nat.not_lt_zero i)
  · intro m hm
    cases hm

/-! ### What moves between the heap and the stall map -/

lemma contents_afterPush (message : Message) (t arrival last : ℕ) (warmup bypass : Bool) (b : HeapBuffer) :
    (b.afterPush message t arrival last warmup bypass).contents.Perm (b.stamp message arrival :: b.contents) :=
  (push_perm before _ b.prioHeap).append_right _

variable {b : HeapBuffer}

lemma Valid.heap_perm (hb : b.Valid) (hpos : 0 < b.prioHeap.size) :
    b.prioHeap.toList.Perm (b.front :: (pop before b.prioHeap).toList) :=
  pop_perm before_isPreorder hb.heap hpos

lemma Valid.front_le (hb : b.Valid) {m : Message} (hm : m ∈ b.prioHeap.toList) : before b.front m = true :=
  hb.heap.front_le_of_mem before_isPreorder hm

lemma Valid.contents_afterPop (hb : b.Valid) (hpos : 0 < b.prioHeap.size) (t : ℕ) :
    b.contents.Perm (b.front :: (b.afterPop t).contents) :=
  (hb.heap_perm hpos).append_right _

lemma Valid.contents_afterStall (hb : b.Valid) (hpos : 0 < b.prioHeap.size) (addr t : ℕ) :
    (b.afterStall addr t).contents.Perm b.contents := by
  have hstall := (ListMap.values_pushBack addr b.front b.stallMsgMap).append_left (b.afterPop t).prioHeap.toList
  exact (hstall.trans List.perm_middle).trans (hb.contents_afterPop hpos t).symm

lemma contents_afterRequeue {l : List Message} {map : ListMap ℕ Message}
    (h : b.stallMsgMap.values.Perm (l ++ map.values)) : (b.afterRequeue l map).contents.Perm b.contents := by
  have hheap := (pushAll_perm before l b.prioHeap).append_right map.values
  refine hheap.trans ?_
  grind [contents]

lemma values_all : b.stallMsgMap.values.Perm (b.stallMsgMap.values ++ (({} : ListMap ℕ Message)).values) := by
  simp [ListMap.values]

/-- The messages after a call with their arrival times left out: the same ones, but for the one an
`enqueue` adds and the one a `dequeue` takes. -/
def body (m : Message) : Message := { m with lastEnqueueTime := 0 }

/-- The message a call at this state adds. -/
def sent (b : HeapBuffer) : Call → List Message
  | .enqueue message _ _ _ _ _ => [body (b.stamp message 0)]
  | _ => []

/-- The message a call at this state takes out of the buffer. -/
def left (b : HeapBuffer) : Call → List Message
  | .dequeue => [b.front]
  | _ => []

/-- The message a call at this state puts aside. -/
def stalled (b : HeapBuffer) : Call → List Message
  | .stallMessage _ => [b.front]
  | _ => []

section

variable (hb : b.Valid) {t : ℕ} {c : Call} {b' : HeapBuffer} (h : Performed t b c b')
include hb h

lemma Valid.performed_perm : ((b.left c ++ b'.contents).map body).Perm (b.sent c ++ b.contents.map body) := by
  cases h with
  | enqueue message delta isRandom warmup draw bypass => exact (contents_afterPush ..).map body
  | dequeue _ hpos => exact ((hb.contents_afterPop hpos t).map body).symm
  | stallMessage addr _ hpos => exact (hb.contents_afterStall hpos addr t).map body
  | reanalyzeMessages addr => exact (contents_afterRequeue (ListMap.values_erase addr b.stallMsgMap)).map body
  | reanalyzeAllMessages => exact (contents_afterRequeue values_all).map body
  | recycle latency hpos =>
    have hpush := (push_perm before (recycled (t + latency) b.front)
      (pop before b.prioHeap)).append_right b.stallMsgMap.values
    exact (hpush.map body).trans ((hb.contents_afterPop hpos t).map body).symm

lemma Valid.heap_performed : IsHeap before b'.prioHeap.size b'.prioHeap := by
  cases h with
  | enqueue => exact isHeap_push before_isPreorder hb.heap _
  | dequeue => exact isHeap_pop before_isPreorder hb.heap
  | stallMessage => exact isHeap_pop before_isPreorder hb.heap
  | reanalyzeMessages => exact isHeap_pushAll before_isPreorder _ hb.heap
  | reanalyzeAllMessages => exact isHeap_pushAll before_isPreorder _ hb.heap
  | recycle =>
    exact isHeap_push before_isPreorder (isHeap_pop before_isPreorder hb.heap) _

end

lemma size_afterRequeue {l : List Message} {map : ListMap ℕ Message} (hb : b.Valid)
    (h : b.stallMsgMap.values.Perm (l ++ map.values)) :
    (b.afterRequeue l map).stallMapSize = (b.afterRequeue l map).stallMsgMap.values.length := by
  have hlen := h.length_eq
  rw [List.length_append] at hlen
  change b.stallMapSize - l.length = map.values.length
  rw [hb.size]
  omega

lemma Valid.size_performed (hb : b.Valid) {t : ℕ} {c : Call} {b' : HeapBuffer} (h : Performed t b c b') :
    b'.stallMapSize = b'.stallMsgMap.values.length := by
  cases h with
  | enqueue => exact hb.size
  | dequeue => exact hb.size
  | stallMessage addr =>
    have hlen := (ListMap.values_pushBack addr b.front b.stallMsgMap).length_eq
    change b.stallMapSize + 1 = (b.stallMsgMap.pushBack addr b.front).values.length
    rw [hlen, List.length_cons, hb.size]
    omega
  | reanalyzeMessages addr => exact size_afterRequeue hb (ListMap.values_erase addr b.stallMsgMap)
  | reanalyzeAllMessages => exact size_afterRequeue hb values_all
  | recycle => exact hb.size

lemma msgCounter_performed {t : ℕ} {c : Call} {b' : HeapBuffer} (h : Performed t b c b') :
    b'.msgCounter = b.msgCounter + (b.sent c).length := by
  cases h <;> rfl

lemma Valid.performed (hb : b.Valid) {t : ℕ} {c : Call} {b' : HeapBuffer} (h : Performed t b c b') : b'.Valid := by
  have hperm := hb.performed_perm h
  have hcounter := msgCounter_performed h
  have hcounts : ((b.left c ++ b'.contents).map Message.msgCounter).Perm
      ((b.sent c).map Message.msgCounter ++ b.contents.map Message.msgCounter) := by
    have hmap := hperm.map Message.msgCounter
    simpa [Function.comp_def, body] using hmap
  have hsent : ∀ m ∈ b.sent c, m.msgCounter = b.msgCounter + 1 ∧ (b.sent c).length = 1 := by
    intro m hm
    cases c <;> simp_all [sent, body, stamp]
  refine ⟨hb.heap_performed h, hb.size_performed h, ?_, ?_⟩
  · intro m hm
    have hmem : m.msgCounter ∈ (b.sent c).map Message.msgCounter ++ b.contents.map Message.msgCounter := by
      grind
    rcases List.mem_append.mp hmem with hm | hm
    · grind
    · obtain ⟨m', hm', heq⟩ := List.mem_map.mp hm
      have := hb.fresh m' hm'
      omega
  · have hnodup : ((b.sent c).map Message.msgCounter ++ b.contents.map Message.msgCounter).Nodup := by
      refine List.nodup_append.mpr ⟨?_, hb.nodup, ?_⟩
      · cases c <;> simp [sent]
      · intro k hk k' hk' heq
        obtain ⟨m, hm, rfl⟩ := List.mem_map.mp hk
        obtain ⟨m', hm', rfl⟩ := List.mem_map.mp hk'
        have := hsent m hm
        have := hb.fresh m' hm'
        omega
    grind

/-! ### Runs -/

/-- What a sequence of calls took out of the buffer and put aside, in order. -/
structure Journal where
  /-- The messages dequeued. -/
  left : List Message := []
  /-- The messages stalled. -/
  stalled : List Message := []

/-- The calls with their times, one after the other. -/
def run : List (ℕ × Call) → HeapBuffer → Except HeapFault (HeapBuffer × Journal)
  | [], b => pure (b, {})
  | (t, c) :: log, b => do
    let b₁ ← b.perform t c
    let (b', j) ← run log b₁
    pure (b', { left := b.left c ++ j.left, stalled := b.stalled c ++ j.stalled })

lemma run_cons {t : ℕ} {c : Call} {log : List (ℕ × Call)} {b' : HeapBuffer} {j : Journal}
    (h : b.run ((t, c) :: log) = .ok (b', j)) :
    ∃ b1 j1, Performed t b c b1 ∧ b1.run log = .ok (b', j1) ∧ j.left = b.left c ++ j1.left ∧
      j.stalled = b.stalled c ++ j1.stalled := by
  obtain ⟨b1, hperf, h⟩ := bind_eq_ok.mp h
  obtain ⟨⟨b2, j1⟩, hrun, h⟩ := bind_eq_ok.mp h
  cases h
  exact ⟨b1, j1, performed_of_ok hperf, hrun, rfl, rfl⟩

lemma Valid.run (hb : b.Valid) {log : List (ℕ × Call)} {b' : HeapBuffer} {j : Journal}
    (h : b.run log = .ok (b', j)) : b'.Valid := by
  induction log generalizing b b' j with
  | nil =>
    cases h
    exact hb
  | cons x log ih => grind [run_cons, Valid.performed]

end HeapBuffer

end Gem5.Ruby
