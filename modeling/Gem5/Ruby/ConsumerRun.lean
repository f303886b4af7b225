import Gem5.Ruby.Consumer

/-!
# Runs of one consumer

A consumer on its own: simulated time, the consumer, whether its `wakeup()` is running, and a
history of the requests made to it, the wakeups that ran and the ticks that were removed. The
steps are the calls the rest of the simulator makes, in any order, and the firing of the event.
`wakeup()` itself is not modelled: it is whatever calls are made between `fire` and `finish`, the
two halves of `processCurrentEvent` around it.

The history says who was served. A request for an edge is *open* as long as it is the last entry
about that edge; `Inv.pending` ties the open requests to `m_wakeup_ticks`, and the theorem at the
end reads everything off that.
-/

namespace Gem5.Ruby

open Sim List Option Consumer

/-- An entry of the history, about one clock edge. -/
inductive Entry where
  /-- A wakeup at the edge was asked for. -/
  | request (e : ℕ)
  /-- `wakeup()` was called at the edge. -/
  | wakeup (e : ℕ)
  /-- The edge was taken out of `m_wakeup_ticks` by `tryConsumeTick` or `descheduleTick`. -/
  | removed (e : ℕ)
  deriving DecidableEq, Repr

def Entry.edge : Entry → ℕ
  | request e => e
  | wakeup e => e
  | removed e => e

/-- The last entry about the edge `e`. -/
def lastOf (e : ℕ) (log : List Entry) : Option Entry := (log.filter (fun x => x.edge = e)).getLast?

variable {e : ℕ} {log : List Entry} {x : Entry}

lemma lastOf_concat_self (h : x.edge = e) : lastOf e (log ++ [x]) = some x := by
  simp [lastOf, filter_append, h]

lemma lastOf_concat_of_ne (h : x.edge ≠ e) : lastOf e (log ++ [x]) = lastOf e log := by
  simp [lastOf, filter_append, h]

lemma lastOf_append (e : ℕ) (A B : List Entry) : lastOf e (A ++ B) = (lastOf e B).or (lastOf e A) := by
  simp [lastOf, filter_append, getLast?_append]

lemma mem_of_lastOf (h : lastOf e log = some x) : x ∈ log :=
  (mem_filter.mp (mem_of_mem_getLast? h)).1

structure Sys where
  /-- `curTick()`. -/
  now : ℕ := 0
  /-- The consumer. -/
  consumer : Consumer := {}
  /-- Its `wakeup()` has been called and has not returned. -/
  running : Bool := false
  /-- The history. -/
  log : List Entry := []
  deriving DecidableEq, Repr

inductive Call where
  /-- Simulated time goes on to `t`. -/
  | advance (t : ℕ)
  | scheduleEvent (k : ℕ)
  | scheduleEventAbsolute (t : ℕ)
  | recordEvent (k : ℕ)
  | tryConsumeTick (t : ℕ)
  | descheduleTick (t : ℕ)
  /-- The event fires: `processCurrentEvent` up to the call of `wakeup()`, if it makes it. -/
  | fire
  /-- `wakeup()` returns and `processCurrentEvent` goes on after it. -/
  | finish
  deriving DecidableEq, Repr

namespace Sys

def request (s : Sys) (e : ℕ) (c : Consumer) : Sys :=
  { s with consumer := c, log := s.log ++ [.request e] }

def remove (s : Sys) (e : ℕ) (c : Consumer) : Sys :=
  { s with consumer := c, log := if s.consumer.alreadyScheduled e then s.log ++ [.removed e] else s.log }

/-- One step, where it is allowed: time does not pass a scheduled event and stands still while
`wakeup()` runs, absolute times are not in the past, and `recordEvent` is called from inside
`wakeup()`. -/
def step (P : ℕ) (s : Sys) : Call → Option Sys
  | .advance t =>
    if s.running = false ∧ s.now ≤ t ∧ s.consumer.wakeupEvent.all (fun w => decide (t ≤ w)) then
      some { s with now := t }
    else none
  | .scheduleEvent k => some (s.request (clockEdge P s.now k) (s.consumer.scheduleEvent P s.now k))
  | .scheduleEventAbsolute t =>
    if s.now ≤ t then some (s.request (ceilTo P t) (s.consumer.scheduleEventAbsolute P s.now t)) else none
  | .recordEvent k =>
    if s.running then some (s.request (clockEdge P s.now k) (s.consumer.recordEvent P s.now k)) else none
  | .tryConsumeTick t => some (s.remove t (s.consumer.tryConsumeTick t).2)
  | .descheduleTick t => some (s.remove t (s.consumer.descheduleTick t))
  | .fire =>
    if s.running = false ∧ s.consumer.wakeupEvent = some s.now then
      match s.consumer.takeCurrent P s.now with
      | (true, c) => some { s with consumer := c, running := true, log := s.log ++ [.wakeup s.now] }
      | (false, c) => some { s with consumer := c.scheduleNextWakeup P s.now }
    else none
  | .finish =>
    if s.running then some { s with consumer := s.consumer.scheduleNextWakeup P s.now, running := false }
    else none

inductive Reachable (P : ℕ) : Sys → Prop where
  /-- A new consumer. -/
  | init : Reachable P {}
  | step {s s' : Sys} (call : Call) : Reachable P s → s.step P call = some s' → Reachable P s'

structure Inv (P : ℕ) (s : Sys) : Prop where
  /-- The ticks and the event are well formed. -/
  ok : s.consumer.Ok P s.now
  /-- Between events the event is armed. -/
  armed : s.running = false → s.consumer.Armed
  /-- `wakeup()` runs at a clock edge. -/
  edge : s.running = true → P ∣ s.now
  /-- The pending ticks are the open requests. -/
  pending : ∀ e, e ∈ s.consumer.wakeupTicks ↔ lastOf e s.log = some (.request e)
  /-- Every wakeup served an open request. -/
  served : ∀ A B e, s.log = A ++ Entry.wakeup e :: B → lastOf e A = some (.request e)

variable {P : ℕ} {s s' : Sys}

lemma inv_init (P : ℕ) : Inv P {} where
  ok := ok_empty P 0
  armed _ := armed_empty
  edge h := by simp at h
  pending e := by simp [lastOf]
  served A B e h := by simp at h

variable {A B : List Entry} {e : ℕ}

lemma served_concat {log : List Entry} {x : Entry}
    (hs : ∀ A B e, log = A ++ Entry.wakeup e :: B → lastOf e A = some (.request e))
    (hx : x = .wakeup e → lastOf e log = some (.request e)) (h : log ++ [x] = A ++ Entry.wakeup e :: B) :
    lastOf e A = some (.request e) := by
  rcases eq_nil_or_concat B with rfl | ⟨B, y, rfl⟩
  · simp_all
  grind [append_assoc, append_inj']

lemma Inv.request (h : Inv P s) {c : Consumer}
    (hc : c.wakeupTicks = insertSorted s.consumer.wakeupTicks e) (hok : c.Ok P s.now)
    (harm : s.running = false → c.Armed) : Inv P (s.request e c) where
  ok := hok
  armed := harm
  edge := h.edge
  pending x := by
    simp only [Sys.request, hc, mem_insertSorted]
    by_cases hx : e = x
    · rw [lastOf_concat_self (x := .request e) hx]
      simp [hx]
    · rw [lastOf_concat_of_ne (x := .request e) hx, ← h.pending x]
      exact ⟨fun hm => hm.resolve_left (Ne.symm hx), Or.inr⟩
  served A B x hl := served_concat h.served (by simp) hl

lemma Inv.remove (h : Inv P s) {c : Consumer} (hev : c.wakeupEvent = s.consumer.wakeupEvent)
    (hasc : Ascending c.wakeupTicks)
    (hmem : ∀ x, x ∈ c.wakeupTicks ↔ x ∈ s.consumer.wakeupTicks ∧ x ≠ e) : Inv P (s.remove e c) where
  ok := h.ok.remove (fun w hw => hev ▸ hw) hasc fun x hx => ((hmem x).mp hx).1
  armed hr := (h.armed hr).remove hev fun x hx => ((hmem x).mp hx).1
  edge := h.edge
  pending x := by
    have hsch : s.consumer.alreadyScheduled e = true ↔ e ∈ s.consumer.wakeupTicks :=
      h.ok.asc.containsSorted_iff
    simp only [Sys.remove, hmem]
    split_ifs with hr
    · by_cases hx : e = x
      · rw [lastOf_concat_self (x := .removed e) hx]
        simp [hx]
      · rw [lastOf_concat_of_ne (x := .removed e) hx, ← h.pending x]
        exact ⟨And.left, fun hm => ⟨hm, Ne.symm hx⟩⟩
    grind [Inv.pending]
  served A B x hl := by
    simp only [Sys.remove] at hl
    split_ifs at hl
    · exact served_concat h.served (by simp) hl
    · exact h.served A B x hl

/-- What the firing of the event does: a call of `wakeup()` if the current tick is pending, and
otherwise only a new event for the first pending tick. -/
lemma step_fire (hP : 0 < P) (h : Inv P s) (hrun : s.running = false) (hev : s.consumer.wakeupEvent = some s.now) :
    (s.now ∈ s.consumer.wakeupTicks ∧ ∃ c, s.step P .fire =
        some { s with consumer := c, running := true, log := s.log ++ [.wakeup s.now] } ∧
      c.wakeupEvent = none ∧ Ascending c.wakeupTicks ∧
      ∀ x, x ∈ c.wakeupTicks ↔ x ∈ s.consumer.wakeupTicks ∧ x ≠ s.now) ∨
    (s.now ∉ s.consumer.wakeupTicks ∧ s.step P .fire =
        some { s with consumer := ⟨s.consumer.wakeupTicks, s.consumer.wakeupTicks.head?⟩ }) := by
  have hedge : clockEdge P s.now = s.now := by
    rw [clockEdge_zero, ceilTo_of_dvd hP (h.ok.eventEdge _ hev)]
  set c0 : Consumer := { s.consumer with wakeupEvent := none } with hc0
  have hok0 : c0.Ok P s.now := h.ok.remove (by simp [hc0]) h.ok.asc fun x hx => hx
  have hspec := tryConsumeTick_spec hok0.asc s.now
  have htake : s.consumer.takeCurrent P s.now = c0.tryConsumeTick s.now := by
    rw [takeCurrent_eq, hedge]
  by_cases hm : s.now ∈ s.consumer.wakeupTicks
  · refine Or.inl ⟨hm, (c0.tryConsumeTick s.now).2, ?_, hspec.2.1, hspec.2.2.1, hspec.2.2.2⟩
    have h1 : c0.tryConsumeTick s.now = (true, (c0.tryConsumeTick s.now).2) :=
      Prod.ext (hspec.1.trans (decide_eq_true hm)) rfl
    simp only [Sys.step, hrun, hev, htake, and_self, if_true]
    rw [h1]
  · refine Or.inr ⟨hm, ?_⟩
    have h1 : c0.tryConsumeTick s.now = (false, c0) := tryConsumeTick_of_not_mem hok0.asc hm
    have h2 : c0.scheduleNextWakeup P s.now = ⟨s.consumer.wakeupTicks, s.consumer.wakeupTicks.head?⟩ := by
      unfold scheduleNextWakeup
      grind [Consumer.Ok.find_head]
    simp only [Sys.step, hrun, hev, htake, h1, h2, and_self, if_true]

lemma Inv.step (hP : 0 < P) (h : Inv P s) {call : Call} (hs : s.step P call = some s') : Inv P s' := by
  cases call with
  | advance t =>
    simp only [Sys.step, ite_none_right_eq_some] at hs
    obtain ⟨⟨hrun, hle, hev⟩, hs⟩ := hs
    obtain rfl := some.inj hs
    have hall : ∀ w, s.consumer.wakeupEvent = some w → t ≤ w := by
      intro w hw
      simpa [hw] using hev
    refine ⟨⟨h.ok.asc, h.ok.edge, fun x hx => ?_, h.ok.eventEdge, hall⟩, h.armed, ?_, h.pending, h.served⟩
    · obtain ⟨w, hw, hmin⟩ := h.armed hrun (ne_nil_of_mem hx)
      exact (hall w hw).trans (hmin x hx)
    · intro hr
      rw [hrun] at hr
      cases hr
  | scheduleEvent k =>
    obtain rfl := some.inj hs
    have hspec := scheduleEvent_spec hP h.ok k
    exact h.request (scheduleEvent_ticks ..) hspec.1 fun _ => hspec.2
  | scheduleEventAbsolute t =>
    simp only [Sys.step, ite_none_right_eq_some] at hs
    obtain ⟨ht, hs⟩ := hs
    obtain rfl := some.inj hs
    have hspec := scheduleEventAbsolute_spec hP h.ok ht
    exact h.request (scheduleEventAbsolute_ticks ..) hspec.1 fun _ => hspec.2
  | recordEvent k =>
    simp only [Sys.step, ite_none_right_eq_some] at hs
    obtain ⟨hrun, hs⟩ := hs
    obtain rfl := some.inj hs
    refine h.request (recordEvent_ticks ..) (recordEvent_ok hP h.ok k) fun hr => ?_
    rw [hrun] at hr
    cases hr
  | tryConsumeTick t =>
    obtain rfl := some.inj hs
    have hspec := tryConsumeTick_spec h.ok.asc t
    exact h.remove hspec.2.1 hspec.2.2.1 hspec.2.2.2
  | descheduleTick t =>
    obtain rfl := some.inj hs
    exact h.remove rfl (h.ok.asc.eraseSorted t) fun x => h.ok.asc.mem_eraseSorted
  | fire =>
    have hg : s.running = false ∧ s.consumer.wakeupEvent = some s.now := by
      by_contra hg
      simp [Sys.step, hg] at hs
    rcases step_fire hP h hg.1 hg.2 with ⟨hm, c, hfire, hcev, hasc, hmem⟩ | ⟨hm, hfire⟩
    · obtain rfl := some.inj (hfire.symm.trans hs)
      refine ⟨h.ok.remove (by simp [hcev]) hasc fun x hx => ((hmem x).mp hx).1, by simp,
        fun _ => h.ok.edge _ hm, fun x => ?_, fun A B x hl => served_concat h.served ?_ hl⟩
      · simp only [hmem]
        by_cases hx : s.now = x
        · rw [lastOf_concat_self (x := .wakeup s.now) hx]
          simp [hx]
        · rw [lastOf_concat_of_ne (x := .wakeup s.now) hx, ← h.pending x]
          exact ⟨And.left, fun hx' => ⟨hx', Ne.symm hx⟩⟩
      grind [Inv.pending]
    · obtain rfl := some.inj (hfire.symm.trans hs)
      have hhead : ∀ w, s.consumer.wakeupTicks.head? = some w → w ∈ s.consumer.wakeupTicks :=
        fun w hw => mem_of_mem_head? hw
      refine ⟨⟨h.ok.asc, h.ok.edge, h.ok.le, fun w hw => h.ok.edge w (hhead w hw),
        fun w hw => h.ok.le w (hhead w hw)⟩, fun _ hne => ?_, fun hr => ?_, h.pending, h.served⟩
      · have hasc := h.ok.asc
        cases hv : s.consumer.wakeupTicks with
        | nil => exact absurd hv hne
        | cons y v => simp_all [mem_cons, LT.lt.le, pairwise_cons]
      · exact absurd (hg.1.symm.trans hr) (by simp)
  | finish =>
    simp only [Sys.step, ite_none_right_eq_some] at hs
    obtain ⟨hrun, hs⟩ := hs
    obtain rfl := some.inj hs
    have hspec := scheduleNextWakeup_spec hP h.ok
    exact ⟨hspec.1, fun _ => hspec.2, by simp, fun x => by simpa using h.pending x, h.served⟩

lemma Reachable.inv (hP : 0 < P) (h : Reachable P s) : Inv P s := by
  induction h with
  | init => exact inv_init P
  | step call _ hs ih => exact ih.step hP hs

def run (P : ℕ) (s : Sys) (calls : List Call) : Option Sys := calls.foldlM (Sys.step P) s

lemma Reachable.run (h : Reachable P s) {calls : List Call} (hr : s.run P calls = some s') : Reachable P s' := by
  induction calls generalizing s with
  | nil => exact some.inj hr ▸ h
  | cons call calls ih =>
    simp only [Sys.run, foldlM_cons, bind_eq_bind, bind_eq_some_iff] at hr
    obtain ⟨u, hu, hr⟩ := hr
    exact ih (h.step call hu) hr

/-! ### Every request is served once -/

lemma Inv.not_open (h : Inv P s) (he : e < s.now) : lastOf e s.log ≠ some (.request e) := by
  intro hl
  have := h.ok.le e ((h.pending e).mpr hl)
  omega

lemma Inv.wakeup_mem (h : Inv P s) (hlog : s.log = A ++ Entry.request e :: B)
    (hnot : Entry.removed e ∉ B) (he : e < s.now) : Entry.wakeup e ∈ B := by
  have hl := h.not_open he
  rw [hlog, show A ++ Entry.request e :: B = (A ++ [Entry.request e]) ++ B by simp, lastOf_append,
    lastOf_concat_self (e := e) (x := .request e) rfl] at hl
  cases hB : lastOf e B with
  | none => simp [hB] at hl
  | some x =>
    have hx : x ∈ B := mem_of_lastOf hB
    have hxe : x.edge = e := by
      have := mem_of_mem_getLast? hB
      simpa using (mem_filter.mp this).2
    cases x with
    | request e' => obtain rfl : e' = e := hxe; simp [hB] at hl
    | wakeup e' => obtain rfl : e' = e := hxe; exact hx
    | removed e' => obtain rfl : e' = e := hxe; exact absurd hx hnot

lemma Inv.request_between (h : Inv P s) {C : List Entry}
    (hlog : s.log = A ++ Entry.wakeup e :: (B ++ Entry.wakeup e :: C)) : Entry.request e ∈ B := by
  have hs := h.served ((A ++ [Entry.wakeup e]) ++ B) C e (by simpa using hlog)
  rw [lastOf_append, lastOf_concat_self (e := e) (x := .wakeup e) rfl] at hs
  cases hB : lastOf e B with
  | none => simp [hB] at hs
  | some x => grind [mem_of_lastOf]

/-- Wakeups are neither lost nor duplicated. In every state of every run:
the pending ticks ascend; between events the event is scheduled no later than the first of them
that is not in the past; a request for `e` that was not withdrawn, once time has passed `e`, was
followed by a wakeup at `e`, and by a second one only after a new request; a wakeup at `e` was
asked for; and an event that fires at a tick that is not pending calls nothing and re-arms itself
for the first pending tick. -/
theorem wakeups_served_once (P : ℕ) (hP : 0 < P) (s : Sys) (h : Reachable P s) : Ascending s.consumer.wakeupTicks ∧
    (s.running = false → (∃ t ∈ s.consumer.wakeupTicks, s.now ≤ t) →
      ∃ w, s.consumer.wakeupEvent = some w ∧ ∀ t ∈ s.consumer.wakeupTicks, s.now ≤ t → w ≤ t) ∧
    (∀ A B e, s.log = A ++ Entry.request e :: B → Entry.removed e ∉ B → e < s.now →
      ∃ B₁ B₂, B = B₁ ++ Entry.wakeup e :: B₂ ∧ Entry.wakeup e ∉ B₁ ∧
        ∀ C D, B₂ = C ++ Entry.wakeup e :: D → Entry.request e ∈ C) ∧
    (∀ A B e, s.log = A ++ Entry.wakeup e :: B → Entry.request e ∈ A ∧ lastOf e A = some (.request e)) ∧
    (s.running = false → s.consumer.wakeupEvent = some s.now → if s.now ∈ s.consumer.wakeupTicks then
        ∃ c, s.step P .fire = some ⟨s.now, c, true, s.log ++ [.wakeup s.now]⟩
      else s.step P .fire = some { s with consumer := ⟨s.consumer.wakeupTicks, s.consumer.wakeupTicks.head?⟩ }) := by
  have hinv := h.inv hP
  refine ⟨hinv.ok.asc, ?_, ?_, ?_, ?_⟩
  · rintro hrun ⟨t, ht, -⟩
    obtain ⟨w, hw, hle⟩ := hinv.armed hrun (ne_nil_of_mem ht)
    exact ⟨w, hw, fun t ht _ => hle t ht⟩
  · intro A B e hlog hnot he
    obtain ⟨B₁, B₂, hB, hfirst⟩ := eq_append_cons_of_mem (hinv.wakeup_mem hlog hnot he)
    refine ⟨B₁, B₂, hB, hfirst, ?_⟩
    rintro C D rfl
    exact hinv.request_between (A := A ++ Entry.request e :: B₁) (C := D) (by rw [hlog, hB]; simp)
  · intro A B e hlog
    have hl := hinv.served A B e hlog
    exact ⟨mem_of_lastOf hl, hl⟩
  · intro hrun hev
    rcases step_fire hP hinv hrun hev with ⟨hm, c, hfire, -⟩ | ⟨hm, hfire⟩
    · rw [if_pos hm]
      exact ⟨c, hfire⟩
    · rw [if_neg hm]
      exact hfire

/-- A run with a period of 500 in which a tick is withdrawn before its event fires, a wakeup asks
for another run at the same tick, and the requests for 1500 are merged. -/
def sampleCalls : List Call :=
  [.scheduleEvent 1, .scheduleEventAbsolute 900, .tryConsumeTick 500, .scheduleEvent 3, .advance 500, .fire,
    .scheduleEvent 2, .advance 1000, .fire, .scheduleEvent 0, .recordEvent 1, .finish, .fire, .finish,
    .advance 1500, .fire, .finish, .advance 1600]

theorem wakeups_served_once_sample : ∃ s, (Sys.run 500 {} sampleCalls = some s ∧ s.now = 1600 ∧
      s.log = [.request 500, .request 1000, .removed 500, .request 1500, .request 1500, .wakeup 1000,
        .request 1000, .request 1500, .wakeup 1000, .wakeup 1500]) ∧
      Ascending s.consumer.wakeupTicks ∧
      ∀ A B e, s.log = A ++ Entry.request e :: B → Entry.removed e ∉ B → e < s.now → Entry.wakeup e ∈ B := by
  obtain ⟨s, hs, hnow, hlog⟩ : ∃ s, Sys.run 500 {} sampleCalls = some s ∧ s.now = 1600 ∧
      s.log = [.request 500, .request 1000, .removed 500, .request 1500, .request 1500, .wakeup 1000,
        .request 1000, .request 1500, .wakeup 1000, .wakeup 1500] := ⟨_, rfl, rfl, rfl⟩
  obtain ⟨hasc, -, hserved, -⟩ := wakeups_served_once 500 (by decide) s (Reachable.init.run hs)
  refine ⟨s, ⟨hs, hnow, hlog⟩, hasc, fun A B e hl hnot he => ?_⟩
  obtain ⟨B₁, B₂, rfl, -⟩ := hserved A B e hl hnot he
  simp

end Sys

end Gem5.Ruby
