import Gem5.Lib.Except
import Gem5.Lib.InsertBack
import Gem5.Mem.Packet

/-!
# Packet queues

A `PacketQueue` holds packets until the tick at which they may be sent, hands them to its port one by one and waits
for a retry when the port refuses one (`mem/packet_queue.{hh,cc}`). What the port answers is given to each call that
sends; while it accepts a packet, it may put others in the queue.

Between calls, either the queue waits for a retry or the send event is scheduled for the front packet (`EventOk`,
`RetryOk`, `Armed`). During a send that is accepted the front packet is off the list and the event need not be
scheduled, so the three are kept apart.
-/

namespace Gem5.Mem

open Lib List

/-- `MaxTick`, which stands for no tick. -/
def maxTick : ℕ := 2 ^ 64 - 1

/-- A `DeferredPacket`. -/
structure DeferredPacket where
  tick : ℕ
  pkt : Packet
  deriving DecidableEq, Repr

/-- `DrainState`. -/
inductive DrainState where
  | running | draining | drained | resuming
  deriving DecidableEq, Repr

/-- A `PacketQueue`. -/
structure PacketQueue where
  transmitList : List DeferredPacket := []
  /-- `sendEvent.when()`, if it is scheduled. -/
  sendEvent : Option ℕ := none
  waitingOnRetry : Bool := false
  drainState : DrainState := .running
  deriving DecidableEq, Repr

/-- What does not change after the constructor. -/
structure PacketQueueParams where
  forceOrder : Bool := false
  disableSanityCheck : Bool := false
  deriving DecidableEq, Repr

/-- The ways a packet queue can stop the simulator. -/
inductive PacketQueueFault where
  /-- `assert(when >= curTick())`. -/
  | past
  /-- `assert(!pkt->isExpressSnoop())`. -/
  | expressSnoop
  /-- `panic("Packet queue %s has grown beyond 1024 packets")`. -/
  | grown
  /-- `assert(!sendEvent.scheduled())`. -/
  | eventScheduled
  /-- `assert(!waitingOnRetry)`. -/
  | waiting
  /-- `assert(waitingOnRetry)`. -/
  | notWaiting
  /-- `assert(deferredPacketReady())`. -/
  | notReady
  deriving DecidableEq, Repr

/-- What `sendTiming` does: it refuses the packet, or accepts it and calls `schedSendTiming` for others. -/
inductive Answer where
  | refused
  | accepted (calls : List DeferredPacket)
  deriving DecidableEq, Repr

/-- The test of the loop of `schedSendTiming`: the packet `x` may not be put before `dp`. -/
def PacketQueueParams.stops (c : PacketQueueParams) (x dp : DeferredPacket) : Bool :=
  c.forceOrder && dp.pkt.matchAddr x.pkt || decide (dp.tick ≤ x.tick)

namespace PacketQueue

/-- `deferredPacketReadyTime()`. -/
def deferredPacketReadyTime (q : PacketQueue) : ℕ :=
  match q.transmitList with
  | [] => maxTick
  | dp :: _ => dp.tick

/-- `schedSendEvent(when)` at tick `now`. -/
def schedSendEvent (now when_ : ℕ) (q : PacketQueue) : Except PacketQueueFault PacketQueue :=
  if q.waitingOnRetry then do
    ensure q.sendEvent.isNone .eventScheduled
    .ok q
  else if when_ ≠ maxTick then
    -- we cannot go back in time
    let when_ := max when_ (now + 1)
    match q.sendEvent with
    | none => .ok { q with sendEvent := some when_ }
    | some e => if when_ < e then .ok { q with sendEvent := some when_ } else .ok q
  else if q.drainState = .draining ∧ q.transmitList.isEmpty ∧ q.sendEvent.isNone then
    .ok { q with drainState := .drained }
  else .ok q

/-- `schedSendTiming(pkt, when)` at tick `now`, for `x = (when, pkt)`. -/
def schedSendTiming (c : PacketQueueParams) (now : ℕ) (x : DeferredPacket) (q : PacketQueue) :
    Except PacketQueueFault PacketQueue := do
  ensure (decide (now ≤ x.tick)) .past
  ensure (!x.pkt.isExpressSnoop) .expressSnoop
  ensure (c.disableSanityCheck || decide (q.transmitList.length ≤ 1024)) .grown
  -- search from the end, to order by tick
  let (transmitList, atFront) := insertBack (c.stops x) x q.transmitList
  let q := { q with transmitList }
  if atFront then schedSendEvent now x.tick q else .ok q

/-- `sendDeferredPacket()` at tick `now`. -/
def sendDeferredPacket (c : PacketQueueParams) (now : ℕ) (answer : Answer) (q : PacketQueue) :
    Except PacketQueueFault PacketQueue := do
  ensure (!q.waitingOnRetry) .waiting
  match q.transmitList with
  | [] => .error .notReady
  | dp :: rest =>
    ensure (decide (dp.tick ≤ now)) .notReady
    -- take the packet off the list before sending it
    let q := { q with transmitList := rest }
    match answer with
    | .accepted calls => do
      let q ← calls.foldlM (fun q x => schedSendTiming c now x q) q
      schedSendEvent now q.deferredPacketReadyTime q
    | .refused => .ok { q with waitingOnRetry := true, transmitList := dp :: q.transmitList }

/-- `processSendEvent()`: the event is no longer scheduled when it is serviced. -/
def processSendEvent (c : PacketQueueParams) (now : ℕ) (answer : Answer) (q : PacketQueue) :
    Except PacketQueueFault PacketQueue := do
  let q := { q with sendEvent := none }
  ensure (!q.waitingOnRetry) .waiting
  sendDeferredPacket c now answer q

/-- `retry()`. -/
def retry (c : PacketQueueParams) (now : ℕ) (answer : Answer) (q : PacketQueue) :
    Except PacketQueueFault PacketQueue := do
  ensure q.waitingOnRetry .notWaiting
  sendDeferredPacket c now answer { q with waitingOnRetry := false }

/-- `dmDrain()`, with `drain()`. -/
def dmDrain (q : PacketQueue) : PacketQueue :=
  { q with drainState := if q.transmitList.isEmpty then .drained else .draining }

/-- `dmDrainResume()`. -/
def dmDrainResume (q : PacketQueue) : PacketQueue := { q with drainState := .running }

/-! ### The event and the retry -/

/-- A send event that is scheduled is not in the past and is for the front packet: not before its tick, and not after
both it and the next tick. -/
def EventOk (now : ℕ) (q : PacketQueue) : Prop :=
  ∀ e, q.sendEvent = some e →
    q.waitingOnRetry = false ∧ now ≤ e ∧ ∃ d rest, q.transmitList = d :: rest ∧ d.tick ≤ e ∧ e ≤ max d.tick (now + 1)

/-- A queue that waits for a retry has a packet to send. -/
def RetryOk (now : ℕ) (q : PacketQueue) : Prop :=
  q.waitingOnRetry = true → ∃ d rest, q.transmitList = d :: rest ∧ d.tick ≤ now

def Armed (q : PacketQueue) : Prop := q.waitingOnRetry = true ∨ ∃ e, q.sendEvent = some e

variable {c : PacketQueueParams} {now w : ℕ} {x : DeferredPacket} {q q' : PacketQueue}

/-- `schedSendEvent` for the tick of the front packet, by a queue that is not waiting. -/
lemma schedSendEvent_front (now : ℕ) {d : DeferredPacket} (hw : q.waitingOnRetry = false) (hmax : d.tick < maxTick)
    (hev : ∀ e, q.sendEvent = some e → now ≤ e ∧ d.tick ≤ e) :
    ∃ e, schedSendEvent now d.tick q = .ok { q with sendEvent := some e } ∧ now ≤ e ∧ d.tick ≤ e ∧
      e ≤ max d.tick (now + 1) := by
  have hnow : now ≤ max d.tick (now + 1) := (Nat.le_succ now).trans (le_max_right _ _)
  unfold schedSendEvent
  rw [if_neg (by simp [hw]), if_pos (Nat.ne_of_lt hmax)]
  cases he : q.sendEvent with
  | none => exact ⟨_, rfl, hnow, le_max_left _ _, le_rfl⟩
  | some e =>
    dsimp only
    by_cases hlt : max d.tick (now + 1) < e
    · rw [if_pos hlt]
      exact ⟨_, rfl, hnow, le_max_left _ _, le_rfl⟩
    · rw [if_neg hlt]
      refine ⟨e, ?_, (hev e he).1, (hev e he).2, not_lt.mp hlt⟩
      rw [← he]

/-- What `schedSendTiming` does to a queue whose event and retry are in order. -/
lemma schedSendTiming_spec (hev : q.EventOk now) (hre : q.RetryOk now) (hpast : now ≤ x.tick)
    (hmax : x.tick < maxTick) (hexp : x.pkt.isExpressSnoop = false) (hlen : q.transmitList.length < 1024) :
    ∃ q', schedSendTiming c now x q = .ok q' ∧
      q'.transmitList = (insertBack (c.stops x) x q.transmitList).1 ∧ q'.waitingOnRetry = q.waitingOnRetry ∧ q'.EventOk now ∧ q'.RetryOk now ∧
      (q.transmitList = [] ∨ q.Armed → q'.Armed) := by
  unfold schedSendTiming
  rw [ensure_bind, if_pos (by simpa using hpast), ensure_bind, if_pos (by simpa using hexp), ensure_bind,
    if_pos (by simp; omega)]
  dsimp only
  obtain ⟨hfront, hlist, hpass⟩ | ⟨hback, d, rest, rest', hq, hlist⟩ := insertBack_head (c.stops x) x q.transmitList
  · -- before every other packet
    have hlate : ∀ d ∈ q.transmitList, x.tick < d.tick := by
      intro d hd
      have := hpass d hd
      simp only [PacketQueueParams.stops, Bool.or_eq_false_iff, decide_eq_false_iff_not] at this
      exact not_le.mp this.2
    have hw : q.waitingOnRetry = false := by
      by_contra hwait
      rw [Bool.not_eq_false] at hwait
      obtain ⟨d, rest, hq, hd⟩ := hre hwait
      have := hlate d (by simp [hq])
      omega
    have hevent : ∀ e, q.sendEvent = some e → now ≤ e ∧ x.tick ≤ e := by
      intro e he
      obtain ⟨-, hnow, d, rest, hq, hd, -⟩ := hev e he
      have := hlate d (by simp [hq])
      exact ⟨hnow, by omega⟩
    obtain ⟨e, hsched, hnow, hle, hle'⟩ :=
      schedSendEvent_front now (q := { q with transmitList := x :: q.transmitList }) hw hmax hevent
    rw [hfront, hlist, if_pos rfl, hsched]
    refine ⟨_, rfl, rfl, rfl, ?_, ?_, fun _ => .inr ⟨e, rfl⟩⟩
    · rintro _ ⟨⟩
      exact ⟨hw, hnow, x, _, rfl, hle, hle'⟩
    · intro hwait
      rw [hw] at hwait
      cases hwait
  · -- the front packet stays in front
    rw [hback, if_neg Bool.false_ne_true]
    refine ⟨_, rfl, rfl, rfl, ?_, ?_, ?_⟩
    · intro e he
      obtain ⟨hw, hnow, d', r', hq', hle⟩ := hev e he
      rw [hq] at hq'
      cases hq'
      exact ⟨hw, hnow, d, rest', hlist, hle⟩
    · intro hwait
      obtain ⟨d', r', hq', hle⟩ := hre hwait
      rw [hq] at hq'
      cases hq'
      exact ⟨d, rest', hlist, hle⟩
    · rintro (hnil | harmed)
      · rw [hq] at hnil
        cases hnil
      · exact harmed

/-- The list after several calls of `schedSendTiming`. -/
def insertAll (c : PacketQueueParams) (l : List DeferredPacket) (calls : List DeferredPacket) : List DeferredPacket :=
  calls.foldl (fun l x => (insertBack (c.stops x) x l).1) l

/-- What the callers promise for a packet. -/
structure Promised (now : ℕ) (x : DeferredPacket) : Prop where
  notPast : now ≤ x.tick
  tick : x.tick < maxTick
  notExpress : x.pkt.isExpressSnoop = false

/-- The calls of `schedSendTiming` while a packet is sent. -/
lemma foldlM_schedSendTiming {calls : List DeferredPacket} (hev : q.EventOk now) (hre : q.RetryOk now)
    (hcalls : ∀ x ∈ calls, Promised now x) (hlen : q.transmitList.length + calls.length ≤ 1024) :
    ∃ q', calls.foldlM (fun q x => schedSendTiming c now x q) q = .ok q' ∧
      q'.transmitList = insertAll c q.transmitList calls ∧ q'.waitingOnRetry = q.waitingOnRetry ∧ q'.EventOk now ∧
      q'.RetryOk now := by
  induction calls generalizing q with
  | nil => exact ⟨q, rfl, rfl, rfl, hev, hre⟩
  | cons x calls ih =>
    obtain ⟨hx, hcalls⟩ := forall_mem_cons.mp hcalls
    rw [length_cons] at hlen
    obtain ⟨q1, hcall, hlist, hwait, hev1, hre1, -⟩ :=
      schedSendTiming_spec (c := c) hev hre hx.notPast hx.tick hx.notExpress (by omega)
    have hlen1 : q1.transmitList.length = q.transmitList.length + 1 := by rw [hlist, length_insertBack]
    obtain ⟨q', hrest, hlist', hwait', hev', hre'⟩ := ih hev1 hre1 hcalls (by omega)
    refine ⟨q', ?_, ?_, hwait'.trans hwait, hev', hre'⟩
    · rw [foldlM_cons, hcall]
      exact hrest
    · rw [hlist', hlist]
      rfl

lemma sendDeferredPacket_accepted {calls rest : List DeferredPacket} {d : DeferredPacket}
    (hw : q.waitingOnRetry = false) (he : q.sendEvent = none) (hq : q.transmitList = d :: rest) (hd : d.tick ≤ now)
    (hcalls : ∀ x ∈ calls, Promised now x) (hlen : rest.length + calls.length ≤ 1024)
    (hticks : ∀ y ∈ insertAll c rest calls, y.tick < maxTick) :
    ∃ q', sendDeferredPacket c now (.accepted calls) q = .ok q' ∧ q'.transmitList = insertAll c rest calls ∧
      q'.EventOk now ∧ q'.RetryOk now ∧ (q'.transmitList ≠ [] → q'.Armed) := by
  have hev : ({ q with transmitList := rest } : PacketQueue).EventOk now := by
    intro e h
    rw [show ({ q with transmitList := rest } : PacketQueue).sendEvent = none from he] at h
    cases h
  have hre : ({ q with transmitList := rest } : PacketQueue).RetryOk now := by
    intro h
    rw [show ({ q with transmitList := rest } : PacketQueue).waitingOnRetry = false from hw] at h
    cases h
  obtain ⟨q1, hfold, hlist, hwait, hev1, hre1⟩ := foldlM_schedSendTiming (c := c) hev hre hcalls hlen
  replace hwait : q1.waitingOnRetry = false := hwait.trans hw
  unfold sendDeferredPacket
  rw [ensure_bind, if_pos (by simp [hw]), hq]
  dsimp only
  rw [ensure_bind, if_pos (by simpa using hd), hfold]
  change ∃ q', schedSendEvent now q1.deferredPacketReadyTime q1 = .ok q' ∧ _
  cases hfront : q1.transmitList with
  | nil =>
    -- nothing is left to send
    have hnone : q1.sendEvent = none := by
      by_contra hsome
      obtain ⟨e, he⟩ := Option.ne_none_iff_exists'.mp hsome
      obtain ⟨-, -, _, _, h, -⟩ := hev1 e he
      rw [hfront] at h
      cases h
    have hready : q1.deferredPacketReadyTime = maxTick := by simp [deferredPacketReadyTime, hfront]
    obtain ⟨ds, hsched⟩ : ∃ ds, schedSendEvent now maxTick q1 = .ok { q1 with drainState := ds } := by
      unfold schedSendEvent
      rw [if_neg (by simp [hwait]), if_neg (by simp)]
      split
      · exact ⟨_, rfl⟩
      · exact ⟨q1.drainState, rfl⟩
    rw [hready, hsched]
    exact ⟨_, rfl, hlist, fun e h => hev1 e h, fun h => hre1 h, fun h => absurd hfront h⟩
  | cons y rest' =>
    have hready : q1.deferredPacketReadyTime = y.tick := by simp [deferredPacketReadyTime, hfront]
    have hy : y.tick < maxTick := hticks y (by rw [← hlist, hfront]; exact mem_cons_self ..)
    have hle : ∀ e, q1.sendEvent = some e → now ≤ e ∧ y.tick ≤ e := by
      intro e he
      obtain ⟨-, hnow, d', _, h, hd', -⟩ := hev1 e he
      rw [hfront] at h
      cases h
      exact ⟨hnow, hd'⟩
    obtain ⟨e, hsched, hnow, hye, hey⟩ := schedSendEvent_front now hwait hy hle
    rw [hready, hsched]
    refine ⟨_, rfl, hlist, ?_, fun h => hre1 h, fun _ => .inr ⟨e, rfl⟩⟩
    rintro _ ⟨⟩
    exact ⟨hwait, hnow, y, rest', hfront, hye, hey⟩

lemma sendDeferredPacket_refused {rest : List DeferredPacket} {d : DeferredPacket} (hw : q.waitingOnRetry = false)
    (hq : q.transmitList = d :: rest) (hd : d.tick ≤ now) :
    sendDeferredPacket c now .refused q = .ok { q with waitingOnRetry := true } := by
  unfold sendDeferredPacket
  rw [ensure_bind, if_pos (by simp [hw]), hq]
  dsimp only
  rw [ensure_bind, if_pos (by simpa using hd), ← hq]

/-! ### The list -/

section InsertAll

variable {l calls : List DeferredPacket}

lemma perm_insertAll (c : PacketQueueParams) (l calls : List DeferredPacket) :
    (insertAll c l calls).Perm (l ++ calls) := by
  induction calls generalizing l with
  | nil => rw [append_nil]; rfl
  | cons x calls ih =>
    refine (ih _).trans ?_
    refine ((perm_insertBack (c.stops x) x l).append_right calls).trans ?_
    exact perm_middle.symm

/-- Packets that may not pass each other. -/
def Class (c : PacketQueueParams) (f : DeferredPacket → Bool) : Prop :=
  ∀ x d, f x = true → f d = true → c.stops x d = true

lemma filter_insertAll {f : DeferredPacket → Bool} (hf : Class c f) (l calls : List DeferredPacket) :
    (insertAll c l calls).filter f = l.filter f ++ calls.filter f := by
  induction calls generalizing l with
  | nil => exact (append_nil _).symm
  | cons x calls ih =>
    refine (ih _).trans ?_
    rw [filter_insertBack fun hx d _ hd => hf x d hx hd, append_assoc, ← filter_append, singleton_append]

/-- Without `forceOrder`, the list stays sorted. -/
lemma pairwise_insertAll (hc : c.forceOrder = false) (hl : l.Pairwise fun a b => a.tick ≤ b.tick) :
    (insertAll c l calls).Pairwise fun a b => a.tick ≤ b.tick := by
  induction calls generalizing l with
  | nil => exact hl
  | cons x calls ih =>
    apply ih
    exact pairwise_insertBack hl fun d _ => by simp [PacketQueueParams.stops, hc]

end InsertAll

end PacketQueue

end Gem5.Mem
