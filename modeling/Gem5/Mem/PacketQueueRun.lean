import Gem5.Mem.PacketQueue

/-!
# Runs of a packet queue

A run has three kinds of calls, those of `schedSendTiming`, of the send event and of `retry`, with ticks that go on
between them, and two more from the drain manager. `scheduled` and `sent` record what was put in the queue and what
the port accepted. What the callers of the queue promise is `Allowed`: packets come with a tick that is not in the past
and is not `MaxTick`, there are fewer than 1024 packets, an event is serviced at its tick and the clock does not pass
it, and a retry comes after a refusal.
-/

namespace Gem5.Mem

open Lib PacketQueue List

/-- A packet queue at a tick, with what was put in it and what was accepted, oldest first. -/
structure QueueRun where
  now : ℕ := 0
  queue : PacketQueue := {}
  scheduled : List DeferredPacket := []
  sent : List DeferredPacket := []
  deriving DecidableEq, Repr

inductive QueueAction where
  /-- The clock goes on. -/
  | advance (t : ℕ)
  | schedSendTiming (x : DeferredPacket)
  | processSendEvent (answer : Answer)
  | retry (answer : Answer)
  | dmDrain
  | dmDrainResume
  deriving DecidableEq, Repr

namespace QueueRun

/-- Record a send and its answer, when it leaves `q`. -/
def handed (answer : Answer) (q : PacketQueue) (s : QueueRun) : QueueRun :=
  match answer with
  | .refused => { s with queue := q }
  | .accepted calls =>
    { s with queue := q, scheduled := s.scheduled ++ calls, sent := s.sent ++ s.queue.transmitList.take 1 }

def step (c : PacketQueueParams) (s : QueueRun) : QueueAction → Except PacketQueueFault QueueRun
  | .advance t => .ok { s with now := t }
  | .schedSendTiming x => do
    let queue ← s.queue.schedSendTiming c s.now x
    .ok { s with queue, scheduled := s.scheduled ++ [x] }
  | .processSendEvent answer => do
    let queue ← s.queue.processSendEvent c s.now answer
    .ok (s.handed answer queue)
  | .retry answer => do
    let queue ← s.queue.retry c s.now answer
    .ok (s.handed answer queue)
  | .dmDrain => .ok { s with queue := s.queue.dmDrain }
  | .dmDrainResume => .ok { s with queue := s.queue.dmDrainResume }

/-- What the port promises for the packets it puts in the queue while it accepts one. -/
def AnswerAllowed (s : QueueRun) : Answer → Prop
  | .refused => True
  | .accepted calls =>
    (∀ x ∈ calls, Promised s.now x) ∧ (s.queue.transmitList.drop 1).length + calls.length ≤ 1024

def Allowed (s : QueueRun) : QueueAction → Prop
  | .advance t => s.now ≤ t ∧ t < maxTick ∧ ∀ e, s.queue.sendEvent = some e → t ≤ e
  | .schedSendTiming x => Promised s.now x ∧ s.queue.transmitList.length < 1024
  | .processSendEvent answer => s.queue.sendEvent = some s.now ∧ s.AnswerAllowed answer
  | .retry answer => s.queue.waitingOnRetry = true ∧ s.AnswerAllowed answer
  | .dmDrain => True
  | .dmDrainResume => True

/-- The states of the runs that begin with an empty queue. -/
inductive Reachable (c : PacketQueueParams) : QueueRun → Prop where
  | init (t : ℕ) : t < maxTick → Reachable c { now := t }
  | step {s s' : QueueRun} (a : QueueAction) : Reachable c s → s.Allowed a → s.step c a = .ok s' → Reachable c s'

/-! ### What a run keeps -/

structure Ok (c : PacketQueueParams) (s : QueueRun) : Prop where
  event : s.queue.EventOk s.now
  retry : s.queue.RetryOk s.now
  armed : s.queue.transmitList ≠ [] → s.queue.Armed
  ticks : ∀ d ∈ s.queue.transmitList, d.tick < maxTick
  perm : (s.sent ++ s.queue.transmitList).Perm s.scheduled
  classes : ∀ f, Class c f → (s.sent ++ s.queue.transmitList).filter f = s.scheduled.filter f
  sorted : c.forceOrder = false → s.queue.transmitList.Pairwise fun a b => a.tick ≤ b.tick
  length : s.queue.transmitList.length ≤ 1024

variable {c : PacketQueueParams} {s s' : QueueRun} {q : PacketQueue}

/-- The list after calls of `schedSendTiming`, when `rest` is what is on it before and `sent` what is not. -/
lemma Ok.insertAll (sent rest calls : List DeferredPacket) (hperm : (sent ++ rest).Perm s.scheduled)
    (hclasses : ∀ f, Class c f → (sent ++ rest).filter f = s.scheduled.filter f)
    (hsorted : c.forceOrder = false → rest.Pairwise fun a b => a.tick ≤ b.tick)
    (hticks : ∀ y ∈ rest, y.tick < maxTick) (hcalls : ∀ x ∈ calls, x.tick < maxTick)
    (hq : q.transmitList = PacketQueue.insertAll c rest calls) (hev : q.EventOk s.now) (hre : q.RetryOk s.now)
    (harm : q.transmitList ≠ [] → q.Armed) (hlen : rest.length + calls.length ≤ 1024) :
    Ok c { s with queue := q, scheduled := s.scheduled ++ calls, sent } where
  event := hev
  retry := hre
  armed := harm
  ticks := by grind [perm_insertAll]
  perm := by grind [perm_insertAll]
  classes := by grind [filter_insertAll]
  sorted := by simp_all [pairwise_insertAll]
  length := by grind [List.Perm.length_eq, perm_insertAll, length_append]

/-- A ready packet is handed to the port; nothing of the queue but the event and the flag has changed before. -/
lemma Ok.handed (h : Ok c s) {answer : Answer} {d : DeferredPacket} {rest : List DeferredPacket}
    (hlist : s.queue.transmitList = d :: rest) (hd : d.tick ≤ s.now) (ha : s.AnswerAllowed answer) (hq : q.transmitList = d :: rest)
    (hw : q.waitingOnRetry = false) (he : q.sendEvent = none) :
    ∃ q', q.sendDeferredPacket c s.now answer = .ok q' ∧ Ok c (s.handed answer q') ∧
      ∀ calls, answer = .accepted calls → q'.transmitList = PacketQueue.insertAll c rest calls := by
  cases answer with
  | refused =>
    refine ⟨_, sendDeferredPacket_refused hw hq hd, ?_, fun _ h => by cases h⟩
    exact {
      event := by
        intro e h
        cases he.symm.trans h
      retry := fun _ => ⟨d, rest, hq, hd⟩
      armed := fun _ => .inl rfl
      ticks := by simpa only [QueueRun.handed, hq, hlist] using h.ticks
      perm := by simpa only [QueueRun.handed, hq, hlist] using h.perm
      classes := by simpa only [QueueRun.handed, hq, hlist] using h.classes
      sorted := by simpa only [QueueRun.handed, hq, hlist] using h.sorted
      length := by simpa only [QueueRun.handed, hq, hlist] using h.length }
  | accepted calls =>
    obtain ⟨hcalls, hlen⟩ := ha
    rw [hlist] at hlen
    have hrest : ∀ y ∈ rest, y.tick < maxTick := fun y hy => h.ticks y (by rw [hlist]; exact mem_cons_of_mem _ hy)
    have hticks : ∀ y ∈ PacketQueue.insertAll c rest calls, y.tick < maxTick := by
      grind [perm_insertAll, Promised.tick]
    obtain ⟨q', hsend, hq', hev, hre, harm⟩ := sendDeferredPacket_accepted (c := c) hw he hq hd hcalls hlen hticks
    refine ⟨q', hsend, ?_, fun _ h => by cases h; exact hq'⟩
    have hsplit : ∀ l : List DeferredPacket, s.sent ++ [d] ++ l = s.sent ++ d :: l := by simp
    have hok := Ok.insertAll (s.sent ++ [d]) rest calls
      (by rw [hsplit, ← hlist]; exact h.perm) (fun f hf => by rw [hsplit, ← hlist]; exact h.classes f hf)
      (fun hc => (pairwise_cons.mp (hlist ▸ h.sorted hc)).2) hrest (fun x hx => (hcalls x hx).tick) hq' hev hre harm hlen
    simpa only [QueueRun.handed, hlist, take_succ_cons, take_zero] using hok

lemma Ok.processSendEvent (h : Ok c s) {answer : Answer} (he : s.queue.sendEvent = some s.now)
    (ha : s.AnswerAllowed answer) :
    ∃ d rest q', s.queue.transmitList = d :: rest ∧ s.step c (.processSendEvent answer) = .ok (s.handed answer q') ∧
      Ok c (s.handed answer q') ∧
      ∀ calls, answer = .accepted calls → q'.transmitList = PacketQueue.insertAll c rest calls := by
  obtain ⟨hw, -, d, rest, hlist, hd, -⟩ := h.event _ he
  obtain ⟨q', hsend, hok, hcalls⟩ := h.handed (q := { s.queue with sendEvent := none }) hlist hd ha hlist hw rfl
  refine ⟨d, rest, q', hlist, ?_, hok, hcalls⟩
  change (s.queue.processSendEvent c s.now answer >>= _) = _
  unfold PacketQueue.processSendEvent
  rw [ensure_bind, if_pos (by simp [hw]), hsend]
  rfl

lemma Ok.retryStep (h : Ok c s) {answer : Answer} (hwait : s.queue.waitingOnRetry = true)
    (ha : s.AnswerAllowed answer) :
    ∃ d rest q', s.queue.transmitList = d :: rest ∧ s.step c (.retry answer) = .ok (s.handed answer q') ∧
      Ok c (s.handed answer q') ∧
      ∀ calls, answer = .accepted calls → q'.transmitList = PacketQueue.insertAll c rest calls := by
  obtain ⟨d, rest, hlist, hd⟩ := h.retry hwait
  have hnone : s.queue.sendEvent = none := by
    by_contra hsome
    obtain ⟨e, he⟩ := Option.ne_none_iff_exists'.mp hsome
    rw [(h.event e he).1] at hwait
    cases hwait
  obtain ⟨q', hsend, hok, hcalls⟩ := h.handed (q := { s.queue with waitingOnRetry := false }) hlist hd ha hlist rfl hnone
  refine ⟨d, rest, q', hlist, ?_, hok, hcalls⟩
  change (s.queue.retry c s.now answer >>= _) = _
  unfold PacketQueue.retry
  rw [ensure_bind, if_pos hwait, hsend]
  rfl

lemma Ok.advance (h : Ok c s) {t : ℕ} (hle : s.now ≤ t) (hev : ∀ e, s.queue.sendEvent = some e → t ≤ e) :
    Ok c { s with now := t } where
  event := by
    intro e he
    obtain ⟨hw, -, d, rest, hq, hd, hd'⟩ := h.event e he
    exact ⟨hw, hev e he, d, rest, hq, hd, hd'.trans (max_le_max le_rfl (Nat.succ_le_succ hle))⟩
  retry := by
    intro hw
    obtain ⟨d, rest, hq, hd⟩ := h.retry hw
    exact ⟨d, rest, hq, hd.trans hle⟩
  armed := h.armed
  ticks := h.ticks
  perm := h.perm
  classes := h.classes
  sorted := h.sorted
  length := h.length

lemma Ok.step (h : Ok c s) {a : QueueAction} (ha : s.Allowed a) : ∃ s', s.step c a = .ok s' ∧ Ok c s' := by
  cases a with
  | advance t => exact ⟨_, rfl, h.advance ha.1 ha.2.2⟩
  | schedSendTiming x =>
    obtain ⟨hx, hlen⟩ := ha
    obtain ⟨q', hcall, hlist, -, hev, hre, harm⟩ :=
      schedSendTiming_spec (c := c) h.event h.retry hx.notPast hx.tick hx.notExpress hlen
    refine ⟨{ s with queue := q', scheduled := s.scheduled ++ [x] }, ?_, ?_⟩
    · change (s.queue.schedSendTiming c s.now x >>= _) = _
      rw [hcall]
      rfl
    · have harmed : q'.Armed := by grind [Ok.armed]
      exact Ok.insertAll s.sent s.queue.transmitList [x] h.perm h.classes h.sorted h.ticks (by simpa using hx.tick) hlist
        hev hre (fun _ => harmed) hlen
  | processSendEvent answer =>
    obtain ⟨_, _, q', -, hstep, hok, -⟩ := h.processSendEvent ha.1 ha.2
    exact ⟨_, hstep, hok⟩
  | retry answer =>
    obtain ⟨_, _, q', -, hstep, hok, -⟩ := h.retryStep ha.1 ha.2
    exact ⟨_, hstep, hok⟩
  | dmDrain => exact ⟨_, rfl, h.event, h.retry, h.armed, h.ticks, h.perm, h.classes, h.sorted, h.length⟩
  | dmDrainResume => exact ⟨_, rfl, h.event, h.retry, h.armed, h.ticks, h.perm, h.classes, h.sorted, h.length⟩

lemma Ok.init (c : PacketQueueParams) (t : ℕ) : Ok c { now := t } where
  event := by
    intro e he
    cases he
  retry := by
    intro hw
    cases hw
  armed := fun h => absurd rfl h
  ticks := by simp
  perm := List.Perm.refl _
  classes := fun _ _ => rfl
  sorted := fun _ => List.Pairwise.nil
  length := Nat.zero_le _

lemma Reachable.ok (h : Reachable c s) : Ok c s := by
  induction h with
  | init t _ => exact Ok.init c t
  | step a _ ha hstep ih => grind [Ok.step]

/-! ### Everything is sent -/

/-- A step in which the port accepts what it is offered and puts nothing in the queue. -/
def Accepts (c : PacketQueueParams) (s s' : QueueRun) : Prop :=
  ∃ a, s.Allowed a ∧ s.step c a = .ok s' ∧
    ((∃ t, a = .advance t) ∨ a = .processSendEvent (.accepted []) ∨ a = .retry (.accepted []))

lemma Ok.accepted_nil (h : Ok c s) : s.AnswerAllowed (.accepted []) := by
  refine ⟨by simp, ?_⟩
  grind [Ok.length]

/-- A port that accepts what it is offered is offered the front packet, at the latest one tick after both its own tick
and the present one. -/
lemma Ok.sends_front (h : Ok c s) {m : ℕ} (hnow : s.now ≤ m) (hticks : ∀ d ∈ s.queue.transmitList, d.tick ≤ m)
    (hm : m + 1 < maxTick) {d : DeferredPacket} {rest : List DeferredPacket} (hlist : s.queue.transmitList = d :: rest) :
    ∃ s', Relation.ReflTransGen (Accepts c) s s' ∧ Ok c s' ∧ s'.now ≤ m + 1 ∧ s'.queue.transmitList = rest ∧
      s'.scheduled = s.scheduled := by
  have hd : d.tick ≤ m := hticks d (by rw [hlist]; exact mem_cons_self ..)
  rcases h.armed (by simp [hlist]) with hwait | ⟨e, he⟩
  · obtain ⟨d', rest', q', hlist', hstep, hok, hcalls⟩ := h.retryStep hwait h.accepted_nil
    rw [hlist] at hlist'
    cases hlist'
    have hallowed : s.Allowed (.retry (.accepted [])) := ⟨hwait, h.accepted_nil⟩
    exact ⟨_, .single ⟨_, hallowed, hstep, .inr (.inr rfl)⟩, hok, hnow.trans (Nat.le_succ m), hcalls [] rfl,
      append_nil _⟩
  · -- the clock goes on to the event
    obtain ⟨-, hnow, d', rest', hlist', -, hle⟩ := h.event e he
    rw [hlist] at hlist'
    cases hlist'
    have hem : e ≤ m + 1 := hle.trans (max_le (by omega) (by omega))
    have hev : ∀ e', s.queue.sendEvent = some e' → e ≤ e' := by simp_all
    have hok := h.advance hnow hev
    obtain ⟨d', rest', q', hlist', hstep, hok', hcalls⟩ := hok.processSendEvent he hok.accepted_nil
    rw [show ({ s with now := e } : QueueRun).queue.transmitList = _ from hlist] at hlist'
    cases hlist'
    have hallowed : s.Allowed (.advance e) := ⟨hnow, by omega, hev⟩
    have hallowed' : ({ s with now := e } : QueueRun).Allowed (.processSendEvent (.accepted [])) :=
      ⟨he, hok.accepted_nil⟩
    refine ⟨_, .tail (.single ⟨_, hallowed, rfl, .inl ⟨e, rfl⟩⟩) ⟨_, hallowed', hstep, .inr (.inl rfl)⟩, hok', hem,
      hcalls [] rfl, append_nil _⟩

lemma Ok.drains (h : Ok c s) {m : ℕ} (hnow : s.now ≤ m) (hticks : ∀ d ∈ s.queue.transmitList, d.tick ≤ m)
    (hm : m + s.queue.transmitList.length < maxTick) :
    ∃ s', Relation.ReflTransGen (Accepts c) s s' ∧ s'.queue.transmitList = [] ∧ s'.sent.Perm s.scheduled := by
  generalize hlist : s.queue.transmitList = l
  induction l generalizing s m with
  | nil => grind [Ok.perm]
  | cons d rest ih =>
    rw [hlist, length_cons] at hm
    obtain ⟨s1, hrun, hok, hnow1, hlist₁, hsched⟩ := h.sends_front hnow hticks (by omega) hlist
    have hticks₁ : ∀ y ∈ s1.queue.transmitList, y.tick ≤ m + 1 := by grind
    obtain ⟨s', hrun', hnil, hperm⟩ := ih hok hnow1 hticks₁ (by rw [hlist₁]; omega) hlist₁
    exact ⟨s', hrun.trans hrun', hnil, hsched ▸ hperm⟩

/-! ### The queue in every run -/

/-- A queue with packets waits for a retry and has no event, or has an event for the front packet. -/
def Pending (now : ℕ) (q : PacketQueue) : Prop :=
  (q.waitingOnRetry = true ∧ q.sendEvent = none) ∨
    (q.waitingOnRetry = false ∧ ∃ d rest e, q.transmitList = d :: rest ∧ q.sendEvent = some e ∧ d.tick ≤ e ∧
      e ≤ max d.tick (now + 1))

lemma Ok.pending (h : Ok c s) (hne : s.queue.transmitList ≠ []) : Pending s.now s.queue := by
  cases he : s.queue.sendEvent with
  | none =>
    refine .inl ⟨?_, he⟩
    rcases h.armed hne with hw | ⟨e, he'⟩
    · exact hw
    · rw [he] at he'
      cases he'
  | some e =>
    obtain ⟨hw, -, d, rest, hq, hd⟩ := h.event e he
    exact .inr ⟨hw, d, rest, e, hq, he, hd⟩

/-- Packets of one address stay in order when `forceOrder` is set. -/
lemma class_matchAddr (hc : c.forceOrder = true) (p : Packet) : Class c fun d => d.pkt.matchAddr p := by
  intro x d hx hd
  simp only [Packet.matchAddr, Bool.and_eq_true, beq_iff_eq] at hx hd
  simp [PacketQueueParams.stops, hc, Packet.matchAddr, hx, hd]

lemma class_tick (c : PacketQueueParams) (t : ℕ) : Class c fun d => decide (d.tick = t) := by
  intro x d hx hd
  rw [decide_eq_true_iff] at hx hd
  simp [PacketQueueParams.stops, hx, hd]

/-- In every run: no allowed call fails a check; what was put in the queue is what was accepted and what is still on the
list, each packet once, and a port that accepts what it is offered gets all of it; a list that is not empty waits for a
retry or has its event; with `forceOrder` the packets of each address leave in the order in which they came, and without
it the list is sorted by tick, with equal ticks in that order. -/
theorem packets_sent_once (h : Reachable c s) : (∀ a, s.Allowed a → ∃ s', s.step c a = .ok s') ∧
    (s.sent ++ s.queue.transmitList).Perm s.scheduled ∧
    (∀ m, s.now ≤ m → (∀ d ∈ s.queue.transmitList, d.tick ≤ m) → m + s.queue.transmitList.length < maxTick →
      ∃ s', Relation.ReflTransGen (Accepts c) s s' ∧ s'.queue.transmitList = [] ∧ s'.sent.Perm s.scheduled) ∧
    (s.queue.transmitList ≠ [] → Pending s.now s.queue) ∧
    (c.forceOrder = true → ∀ p : Packet, (s.sent ++ s.queue.transmitList).filter (fun d => d.pkt.matchAddr p) =
      s.scheduled.filter fun d => d.pkt.matchAddr p) ∧
    (c.forceOrder = false → s.queue.transmitList.Pairwise (fun a b => a.tick ≤ b.tick) ∧
      ∀ t, (s.sent ++ s.queue.transmitList).filter (fun d => decide (d.tick = t)) =
        s.scheduled.filter fun d => decide (d.tick = t)) := by
  have hok := h.ok
  refine ⟨?_, hok.perm, fun m hnow hticks hm => hok.drains hnow hticks hm, hok.pending, ?_, ?_⟩
  · intro a ha
    obtain ⟨s', hs', -⟩ := hok.step ha
    exact ⟨s', hs'⟩
  · intro hc p
    exact hok.classes _ (class_matchAddr hc p)
  · intro hc
    exact ⟨hok.sorted hc, fun t => hok.classes _ (class_tick c t)⟩

/-- A packet that is refused, and then accepted by a port that puts another one in the queue. -/
theorem packets_sent_once_two : let x : DeferredPacket := ⟨3, { id := 0, cmd := .readReq, addr := 0 }⟩
    let y : DeferredPacket := ⟨5, { id := 1, cmd := .readReq, addr := 64 }⟩
    ∃ s, Reachable {} s ∧ s.sent = [x] ∧ s.queue.transmitList = [y] ∧
      (s.sent ++ s.queue.transmitList).Perm s.scheduled ∧ Pending s.now s.queue := by
  intro x y
  let s₁ : QueueRun := { queue := { transmitList := [x], sendEvent := some 3 }, scheduled := [x] }
  let s₂ : QueueRun := { s₁ with now := 3 }
  let s₃ : QueueRun := { s₂ with queue := { transmitList := [x], waitingOnRetry := true } }
  let s₄ : QueueRun :=
    { now := 3, queue := { transmitList := [y], sendEvent := some 5 }, scheduled := [x, y], sent := [x] }
  have h₀ : Reachable {} { now := 0 } := .init 0 (by decide)
  have h₁ : Reachable {} s₁ := .step (.schedSendTiming x) h₀ ⟨⟨by decide, by decide, rfl⟩, by decide⟩ (by decide)
  have h₂ : Reachable {} s₂ := .step (.advance 3) h₁ ⟨by decide, by decide, by rintro _ ⟨⟩; exact le_rfl⟩ rfl
  have h₃ : Reachable {} s₃ := .step (.processSendEvent .refused) h₂ ⟨rfl, trivial⟩ (by decide)
  have hy : ∀ z ∈ [y], Promised s₃.now z := by
    intro z hz
    rw [mem_singleton.mp hz]
    exact ⟨by decide, by decide, rfl⟩
  have h₄ : Reachable {} s₄ := .step (.retry (.accepted [y])) h₃ ⟨rfl, hy, by decide⟩ (by decide)
  obtain ⟨-, hperm, -, hpending, -⟩ := packets_sent_once h₄
  exact ⟨s₄, h₄, rfl, rfl, hperm, hpending (by decide)⟩

/-- A packet for `MaxTick` is put in the queue with no event, and packets to one address of two address spaces do not
stay in order. -/
theorem packets_stranded : (let x : DeferredPacket := ⟨maxTick, { id := 0, cmd := .readReq, addr := 0 }⟩
     ∃ s, ({} : QueueRun).step {} (.schedSendTiming x) = .ok s ∧ s.queue.transmitList ≠ [] ∧ ¬ Pending s.now s.queue) ∧
    (let x : DeferredPacket := ⟨10, { id := 0, cmd := .writeReq, addr := 0 }⟩
     let y : DeferredPacket := ⟨5, { id := 1, cmd := .writeReq, addr := 0, isSecure := true }⟩
     let c : PacketQueueParams := { forceOrder := true }
     ∃ s s', ({} : QueueRun).step c (.schedSendTiming x) = .ok s ∧ s.step c (.schedSendTiming y) = .ok s' ∧
       x.pkt.addr = y.pkt.addr ∧ s'.scheduled = [x, y] ∧ s'.queue.transmitList = [y, x]) := by
  constructor
  · intro x
    refine ⟨{ queue := { transmitList := [x] }, scheduled := [x] }, by decide, by decide, ?_⟩
    rintro (⟨hw, -⟩ | ⟨-, _, _, _, -, he, -⟩)
    · cases hw
    · cases he
  · intro x y c
    exact ⟨{ queue := { transmitList := [x], sendEvent := some 10 }, scheduled := [x] },
      { queue := { transmitList := [y, x], sendEvent := some 5 }, scheduled := [x, y] }, by decide, by decide, rfl, rfl, rfl⟩

end QueueRun

end Gem5.Mem
