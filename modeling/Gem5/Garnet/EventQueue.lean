import Gem5.Garnet.Exec
import Gem5.Garnet.Wakeup

/-!
# Event-driven runs

In an event-driven run the ticks a consumer has been asked for are clock edges that are not in the past, and
its event is scheduled no later than the first of them. So when `globalWakeup` runs, after all consumer events of
its tick, no router has anything left to do at that tick: `tryConsumeTick` fails for every router, and the
parallel path does nothing at all. Every wakeup happens through a consumer's own event, and an
event-driven run is a free run. The networks are those of `Net`, without bridges.
-/

namespace Gem5.Garnet

open Sim Ruby Lib Sched

variable {net : Net} {s s' : State} {now : ℕ} {self c : ConsumerId} {σ σ' : Sched}

namespace SchedOps

lemma consumers_eq (h : SchedOps net now self σ σ') (hself : self ∈ net.consumerList) (hc : c ∉ net.consumerList) :
    σ'.consumers c = σ.consumers c := by
  induction h with
  | refl => rfl
  | absolute c' _ _ hc' _ _ ih =>
    rw [scheduleEventAbsolute, modify_of_ne _ (by rintro rfl; exact hc hc')]
    exact ih
  | event c' _ hc' _ _ ih =>
    rw [scheduleEvent, modify_of_ne _ (by rintro rfl; exact hc hc')]
    exact ih
  | wakeup r _ hr _ _ ih =>
    rw [scheduleWakeup_consumers, modify_of_ne _ (by rintro rfl; exact hc (hr ▸ hself))]
    exact ih
  | register _ _ _ ih => exact ih
  | defer _ _ hp _ ih =>
    rw [deferOrSchedule_of_par net now _ hp]
    exact ih
  | draw _ ih => exact ih

lemma deferred_eq (h : SchedOps net now self σ σ') (hp : σ.parallelActive = false) :
    σ'.deferredSchedules = σ.deferredSchedules := by
  induction h with
  | refl => rfl
  | absolute _ _ _ _ _ _ ih => exact ih
  | event _ _ _ _ _ ih => exact ih
  | wakeup _ _ _ _ _ ih => exact ih
  | register _ _ _ ih => exact ih
  | @defer σ' _ _ hp' h _ =>
    rw [h.parallelActive, hp] at hp'
    cases hp'
  | draw _ ih => exact ih

end SchedOps

/-! ### The invariant of the schedule -/

/-- What holds of the schedule between two events. -/
structure SchedOk (net : Net) (now : ℕ) (σ : Sched) : Prop where
  ok : ∀ c, (σ.consumers c).Ok (net.period c) now
  armed : ∀ c, (σ.consumers c).Armed
  listed : ∀ c, c ∉ net.consumerList → σ.consumers c = {}
  seq : σ.parallelActive = false
  deferred : ∀ tid, σ.deferredSchedules tid = []

lemma schedOk_init (net : Net) : SchedOk net 0 (init net) :=
  ⟨fun _ => Consumer.ok_empty .., fun _ => Consumer.armed_empty, fun _ _ => rfl, rfl, fun _ => rfl⟩

lemma SchedOk.advance (h : SchedOk net now σ) {t : ℕ} (hev : noEventBefore net t σ) : SchedOk net t σ := by
  have hempty : ∀ c, c ∉ net.consumerList → (σ.consumers c).Ok (net.period c) t := fun c hc => by
    rw [h.listed c hc]
    exact Consumer.ok_empty ..
  refine { h with ok := fun c => ?_ }
  by_cases hc : c ∈ net.consumerList
  · refine { h.ok c with le := fun x hx => ?_, eventLe := fun w hw => hev c hc w hw }
    obtain ⟨w, hw, hle⟩ := h.armed c (List.ne_nil_of_mem hx)
    exact (hev c hc w hw).trans (hle x hx)
  · exact hempty c hc

lemma SchedOk.scheduleEventAbsolute (h : SchedOk net now σ) (hc : c ∈ net.consumerList) {t : ℕ} (ht : now ≤ t) :
    SchedOk net now (σ.scheduleEventAbsolute net now c t) := by
  have hspec := Consumer.scheduleEventAbsolute_spec (net.period_pos c) (h.ok c) ht
  refine ⟨fun c' => ?_, fun c' => ?_, fun c' hc' => ?_, h.seq, h.deferred⟩
  · by_cases he : c' = c
    · subst he
      rw [scheduleEventAbsolute, modify_self]
      exact hspec.1
    · rw [Sched.scheduleEventAbsolute, Sched.modify_of_ne _ he]
      exact h.ok c'
  · by_cases he : c' = c
    · subst he
      rw [scheduleEventAbsolute, modify_self]
      exact hspec.2
    · rw [Sched.scheduleEventAbsolute, Sched.modify_of_ne _ he]
      exact h.armed c'
  · rw [Sched.scheduleEventAbsolute, Sched.modify_of_ne _ (by rintro rfl; exact hc' hc)]
    exact h.listed c' hc'

/-! ### The event of a consumer -/

/-- The consumer's event has fired and its tick is taken out. -/
def Sched.fired (net : Net) (now : ℕ) (c : ConsumerId) (σ : Sched) : Sched :=
  σ.modify c fun k => (k.takeCurrent (net.period c) now).2

/-- What the beginning of `processCurrentEvent` does. -/
lemma SchedOk.fired (h : SchedOk net now σ) (hev : (σ.consumers c).wakeupEvent = some now) :
    ((σ.consumers c).takeCurrent (net.period c) now).1 = decide (now ∈ σ.ticks c) ∧
      (∀ c', ((σ.fired net now c).consumers c').Ok (net.period c') now) ∧
      (∀ c' ≠ c, ((σ.fired net now c).consumers c').Armed) ∧
      (∀ t, t ∈ (σ.fired net now c).ticks c ↔ t ∈ σ.ticks c ∧ t ≠ now) ∧
      (∀ c' ≠ c, (σ.fired net now c).consumers c' = σ.consumers c') := by
  have hedge : clockEdge (net.period c) now = now := ceilTo_of_dvd (net.period_pos c) ((h.ok c).eventEdge now hev)
  have hother : ∀ c' ≠ c, (σ.fired net now c).consumers c' = σ.consumers c' := fun c' hc' => modify_of_ne σ hc' _
  obtain ⟨h1, h2, h3, h4⟩ := Consumer.tryConsumeTick_spec (c := { σ.consumers c with wakeupEvent := none }) (h.ok c).asc now
  have heq : (σ.consumers c).takeCurrent (net.period c) now =
      ({ σ.consumers c with wakeupEvent := none } : Consumer).tryConsumeTick now := by rw [Consumer.takeCurrent_eq, hedge]
  rw [← heq] at h1 h2 h3
  simp only [← heq] at h4
  have hself : (σ.fired net now c).consumers c = ((σ.consumers c).takeCurrent (net.period c) now).2 := modify_self ..
  refine ⟨h1, fun c' => ?_, fun c' hc' => ?_, fun t => ?_, hother⟩
  · by_cases he : c' = c
    · subst he
      rw [hself]
      refine (h.ok c').remove (fun w hw => ?_) h3 fun x hx => ((h4 x).mp hx).1
      rw [h2] at hw
      cases hw
    · rw [hother c' he]
      exact h.ok c'
  · rw [hother c' hc']
    exact h.armed c'
  · rw [ticks, hself]
    exact h4 t

/-- The end of `processCurrentEvent` arms the event again. -/
lemma SchedOk.rearm (h : SchedOk net now σ) (hc : c ∈ net.consumerList) (hops : SchedOps net now c (σ.fired net now c) σ')
    (hev : (σ.consumers c).wakeupEvent = some now) :
    SchedOk net now (σ'.modify c (·.scheduleNextWakeup (net.period c) now)) := by
  obtain ⟨-, hok, harm, -, hother⟩ := h.fired hev
  obtain ⟨hok', harm'⟩ := hops.ok_armed hok harm
  have hspec := Consumer.scheduleNextWakeup_spec (net.period_pos c) (hok' c)
  refine ⟨fun c' => ?_, fun c' => ?_, fun c' hc' => ?_, ?_, fun tid => ?_⟩
  · by_cases he : c' = c
    · simp_all
    · rw [modify_of_ne _ he]
      exact hok' c'
  · by_cases he : c' = c
    · simp_all
    · rw [modify_of_ne _ he]
      exact harm' c' he
  · have he : c' ≠ c := fun he => hc' (he ▸ hc)
    rw [modify_of_ne _ he, hops.consumers_eq hc hc', hother c' he]
    exact h.listed c' hc'
  · exact hops.parallelActive.trans h.seq
  · exact (congrFun (hops.deferred_eq h.seq) tid).trans (h.deferred tid)

/-- `processCurrentEvent`, taken apart. -/
lemma processCurrentEvent_eq (h : SchedOk net s.now s.sched) (hev : (s.sched.consumers c).wakeupEvent = some s.now)
    (hs : processCurrentEvent net c s = .ok s') :
    ∃ s1, (s.now ∈ s.sched.ticks c ∧ wakeup net c ⟨s.now, s.data, s.sched.fired net s.now c⟩ = .ok s1 ∨
        s.now ∉ s.sched.ticks c ∧ s1 = ⟨s.now, s.data, s.sched.fired net s.now c⟩) ∧
      s' = ⟨s1.now, s1.data, s1.sched.modify c (·.scheduleNextWakeup (net.period c) s1.now)⟩ := by
  have hpend := (h.fired hev).1
  unfold processCurrentEvent at hs
  generalize hk : (s.sched.consumers c).takeCurrent (net.period c) s.now = k at hs hpend
  have hfired : s.sched.modify c (fun _ => k.2) = s.sched.fired net s.now c := by
    rw [Sched.fired, Sched.modify, Sched.modify, hk]
  obtain ⟨pending, k⟩ := k
  dsimp only at hs hpend hfired
  rw [hfired] at hs
  by_cases hmem : s.now ∈ s.sched.ticks c
  · rw [hpend, decide_eq_true hmem, if_pos rfl] at hs
    obtain ⟨s1, h1, h2⟩ := bind_eq_ok.mp hs
    exact ⟨s1, Or.inl ⟨hmem, h1⟩, (Except.ok.inj h2).symm⟩
  · rw [hpend, decide_eq_false hmem, if_neg (by simp)] at hs
    exact ⟨_, Or.inr ⟨hmem, rfl⟩, (Except.ok.inj hs).symm⟩

/-! ### The global event -/

namespace GarnetNetwork

lemma runRouter_eq {r : ℕ} (hasc : Ascending (s.sched.consumers (.router r)).wakeupTicks)
    (hr : s.now ∉ s.sched.ticks (.router r)) : runRouter net s r = .ok s := by
  unfold runRouter
  rw [Consumer.tryConsumeTick_of_not_mem hasc hr]
  simp_all [Sched.modify]

/-- No router has anything to do now. -/
def RoutersIdle (s : State) : Prop :=
  ∀ r, Ascending (s.sched.consumers (.router r)).wakeupTicks ∧ s.now ∉ s.sched.ticks (.router r)

lemma runRoutersFromMask_eq (h : RoutersIdle s) (mask : BitVec 64) : runRoutersFromMask net mask s = .ok s := by
  unfold runRoutersFromMask
  induction bitsOf mask with
  | nil => rfl
  | cons r rs ih =>
    rw [List.foldlM_cons, runRouter_eq (h r).1 (h r).2]
    exact ih

lemma runParallel_eq (h : RoutersIdle s) (hseq : s.sched.parallelActive = false)
    (hdef : ∀ tid, s.sched.deferredSchedules tid = []) (order : List (ℕ × ℕ)) :
    ∃ tid, runParallel net order s = .ok { s with sched := { s.sched with tid } } := by
  have hloop : ∀ s : State, RoutersIdle s → ∃ tid, order.foldlM (fun s e =>
      runRouter net { s with sched := { s.sched with tid := e.1 } } e.2) s = .ok { s with sched := { s.sched with tid } } := by
    induction order with
    | nil => exact fun s _ => ⟨s.sched.tid, rfl⟩
    | cons e order ih =>
      intro s hs
      obtain ⟨tid, htid⟩ := ih { s with sched := { s.sched with tid := e.1 } } hs
      refine ⟨tid, ?_⟩
      rw [List.foldlM_cons, runRouter_eq (s := { s with sched := { s.sched with tid := e.1 } }) (hs e.2).1 (hs e.2).2]
      exact htid
  obtain ⟨tid, htid⟩ := hloop { s with sched := { s.sched with parallelActive := true } } h
  refine ⟨tid, ?_⟩
  unfold runParallel
  dsimp only
  rw [htid]
  have hnone : (List.range net.numThreads).flatMap s.sched.deferredSchedules = [] :=
    List.flatMap_eq_nil_iff.mpr fun tid _ => hdef tid
  have hdrained : (fun tid => if tid < net.numThreads then [] else s.sched.deferredSchedules tid) = s.sched.deferredSchedules := by
    funext tid
    rw [hdef tid, ite_self]
  simp only [bind, Except.bind, pure, Except.pure, drainDeferredSchedules, hnone, List.foldl_nil, hdrained]
  rw [← hseq]

variable (net) in
lemma dispatch_eq (h : RoutersIdle s) (hseq : s.sched.parallelActive = false)
    (hdef : ∀ tid, s.sched.deferredSchedules tid = []) (mask : BitVec 64) (order : List (ℕ × ℕ)) :
    ∃ tid, dispatch net mask order s = .ok { s with sched := { s.sched with tid } } := by
  unfold dispatch
  split_ifs
  · exact ⟨_, rfl⟩
  · exact ⟨_, runRoutersFromMask_eq h mask⟩
  · exact runParallel_eq h hseq hdef order

/-- `globalWakeup` only moves its own event and empties a slot of the ring. -/
lemma globalWakeup_eq (h : RoutersIdle s) (hseq : s.sched.parallelActive = false)
    (hdef : ∀ tid, s.sched.deferredSchedules tid = []) {order : List (ℕ × ℕ)} (hs : globalWakeup net order s = .ok s') :
    ∃ ring globalEvent tid, s' = { s with sched := { s.sched with ring, globalEvent, tid } } := by
  unfold globalWakeup at hs
  dsimp only at hs
  obtain ⟨tid, htid⟩ := dispatch_eq net
    (s := { s with sched := { s.sched with ring := (s.sched.ring.takeMask (net.clockPeriod .network) s.now).2 } }) h hseq hdef
    (s.sched.ring.takeMask (net.clockPeriod .network) s.now).1 order
  rw [htid] at hs
  exact ⟨_, _, tid, (Except.ok.inj hs).symm⟩

end GarnetNetwork

/-! ### Every state of an event-driven run -/

/-- When `globalWakeup` runs, no router has anything to do. -/
lemma SchedOk.routersIdle (h : SchedOk net s.now s.sched) (hev : noEventBefore net (s.now + 1) s.sched) :
    GarnetNetwork.RoutersIdle s := by
  intro r
  refine ⟨(h.ok _).asc, fun hmem => ?_⟩
  have hc : .router r ∈ net.consumerList := by grind [SchedOk.listed, ticks]
  obtain ⟨w, hw, hle⟩ := h.armed (.router r) (List.ne_nil_of_mem hmem)
  have := hev _ hc w hw
  have := hle _ hmem
  omega

lemma le_arrivalTime {b b' : MessageBuffer} {msg : Message} {delta draw t : ℕ} {random warmup bypass : Bool}
    (h : b.enqueue msg now delta random warmup draw bypass = .ok (b', t)) : now ≤ t := by
  unfold MessageBuffer.enqueue at h
  obtain ⟨_, -, h⟩ := bind_eq_ok.mp h
  obtain ⟨_, -, h⟩ := bind_eq_ok.mp h
  obtain ⟨_, -, h⟩ := bind_eq_ok.mp h
  obtain ⟨_, -, h⟩ := bind_eq_ok.mp h
  have ht : t = b.arrivalTime now delta random draw := (congrArg Prod.snd (Except.ok.inj h)).symm
  rw [ht]
  unfold MessageBuffer.arrivalTime MessageBuffer.lastArrival
  grind

/-- A step of an event-driven run is made of steps of free runs, and keeps the schedule in order. -/
lemma Step.free {a : Action} (hs : Step net s a s') (hf : FreeReachable net s) (h : SchedOk net s.now s.sched) :
    FreeReachable net s' ∧ SchedOk net s'.now s'.sched := by
  cases hs with
  | advance hle hev hg => exact ⟨hf.later _ _ hle, h.advance hev⟩
  | @fire _ c hc hev hs =>
    obtain ⟨s1, hs1, rfl⟩ := processCurrentEvent_eq h hev hs
    have hf0 : FreeReachable net ⟨s.now, s.data, s.sched.fired net s.now c⟩ := hf.later _ _ le_rfl
    rcases hs1 with ⟨-, hw⟩ | ⟨-, rfl⟩
    · obtain ⟨tr, hm, -⟩ := ((wakeup_spec hc hf0.sound).of_ok hw).moves
      have hnow : s1.now = s.now := hm.now
      refine ⟨(FreeReachable.wakeup c hc hf0 hw).later _ _ le_rfl, ?_⟩
      dsimp only
      rw [hnow]
      exact h.rearm hc hm.schedOps hev
    · exact ⟨hf.later _ _ le_rfl, h.rearm hc .refl hev⟩
  | globalWakeup hg hev ho hs =>
    obtain ⟨_, _, _, rfl⟩ := GarnetNetwork.globalWakeup_eq (h.routersIdle hev) h.seq h.deferred hs
    exact ⟨hf.later _ _ le_rfl, h.ok, h.armed, h.listed, h.seq, h.deferred⟩
  | @protocol _ n vnet op hn hd hs =>
    refine ⟨hf.protocol n vnet op hn hs, ?_⟩
    obtain ⟨x, σ, rfl, hx⟩ := protocol_eq hs
    have hni : .ni n ∈ net.consumerList := NetworkInterface.ni_mem hn
    rcases hx with ⟨_, _, _, _, _, _, -, -, he, -, rfl⟩ | ⟨_, _, called, -, -, -, rfl⟩
    · exact h.scheduleEventAbsolute hni (le_arrivalTime he)
    grind [SchedOk.scheduleEventAbsolute, le_clockEdge, Net.period_pos]

lemma Reachable.free_schedOk (h : Reachable net s) : FreeReachable net s ∧ SchedOk net s.now s.sched := by
  induction h with
  | init => exact ⟨.init, schedOk_init net⟩
  | step a _ hs ih => exact hs.free ih.1 ih.2

/-- What a step of an event-driven run comes to. -/
inductive Change (net : Net) (s : State) : Action → State → Prop where
  | advance {t : ℕ} (hle : s.now ≤ t) (hev : noEventBefore net t s.sched) : Change net s (.advance t) { s with now := t }
  /-- The event of a consumer that has something to do. -/
  | wake {c : ConsumerId} {s₁ : State} (hc : c ∈ net.consumerList) (hedge : net.period c ∣ s.now)
      (hev : (s.sched.consumers c).wakeupEvent = some s.now)
      (hs : wakeup net c ⟨s.now, s.data, s.sched.fired net s.now c⟩ = .ok s₁)
      (hw : Woken net c ⟨s.now, s.data, s.sched.fired net s.now c⟩ s₁) :
      Change net s (.fire c) ⟨s.now, s₁.data, s₁.sched.modify c (·.scheduleNextWakeup (net.period c) s.now)⟩
  /-- Only events are scheduled again. -/
  | events {a : Action} {σ : Sched} (hσ : ∀ c t, t ∈ σ.ticks c ↔ t ∈ s.sched.ticks c) : Change net s a { s with sched := σ }
  | protocol {n vnet : ℕ} {op : ProtocolOp} {s' : State} (hn : n < net.numNodes) (hop : op.Legal)
      (hs : protocol net n vnet op s = .ok s') : Change net s (.protocol n vnet op) s'

lemma Sched.ticks_scheduleNextWakeup (σ : Sched) (P now : ℕ) (c c' : ConsumerId) :
    (σ.modify c (·.scheduleNextWakeup P now)).ticks c' = σ.ticks c' := by
  by_cases hc : c' = c
  · subst hc
    rw [ticks, modify_self, Consumer.scheduleNextWakeup_ticks, ticks]
  · exact ticks_modify_of_ne σ hc _

lemma Step.change {a : Action} (hs : Step net s a s') (hf : FreeReachable net s) (h : SchedOk net s.now s.sched) :
    Change net s a s' := by
  cases hs with
  | advance hle hev _ => exact .advance hle hev
  | @fire _ c hc hev hs =>
    have hedge := (h.ok c).eventEdge s.now hev
    obtain ⟨s1, hs1, rfl⟩ := processCurrentEvent_eq h hev hs
    rcases hs1 with ⟨-, hw⟩ | ⟨hmem, rfl⟩
    · have hf0 : FreeReachable net ⟨s.now, s.data, s.sched.fired net s.now c⟩ := hf.later _ _ le_rfl
      have hwoken := (wakeup_spec hc hf0.sound).of_ok hw
      obtain ⟨tr, hm, -⟩ := hwoken.moves
      rw [show s1.now = s.now from hm.now]
      exact .wake hc hedge hev hw hwoken
    · refine .events fun c' t => ?_
      rw [ticks_scheduleNextWakeup]
      obtain ⟨-, -, -, hself, hother⟩ := h.fired hev
      by_cases he : c' = c
      · grind
      · rw [ticks, hother c' he, ticks]
  | globalWakeup hg hev ho hs =>
    obtain ⟨_, _, _, rfl⟩ := GarnetNetwork.globalWakeup_eq (h.routersIdle hev) h.seq h.deferred hs
    exact .events fun _ _ => Iff.rfl
  | protocol hn hop hs => exact .protocol hn hop hs

lemma Reachable.invariant {I : State → Prop} (h0 : I (State.init net))
    (hI : ∀ s a s', Reachable net s → Change net s a s' → I s → I s') (h : Reachable net s) : I s := by
  induction h with
  | init => exact h0
  | step a hr hs ih =>
    have hok := hr.free_schedOk
    exact hI _ _ _ hr (hs.change hok.1 hok.2) ih

/-- The states of the event-driven runs whose steps all meet a condition. -/
inductive ReachableBy (net : Net) (C : State → Action → Prop) : State → Prop where
  | init : ReachableBy net C (State.init net)
  | step {s s' : State} (a : Action) (h : ReachableBy net C s) (hC : C s a) (hs : Step net s a s') : ReachableBy net C s'

lemma ReachableBy.reachable {C : State → Action → Prop} (h : ReachableBy net C s) : Reachable net s := by
  induction h with
  | init => exact .init
  | step a _ _ hs ih => exact ih.step a hs

lemma ReachableBy.invariant {C : State → Action → Prop} {I : State → Prop} (h0 : I (State.init net))
    (hI : ∀ s a s', Reachable net s → C s a → Change net s a s' → I s → I s') (h : ReachableBy net C s) : I s := by
  induction h with
  | init => exact h0
  | step a hr hC hs ih =>
    have hok := hr.reachable.free_schedOk
    exact hI _ _ _ hr.reachable hC (hs.change hok.1 hok.2) ih

/-- The parallel path never has work: when `globalWakeup` runs, no router is to be woken at that tick, so
`tryConsumeTick` fails for each of them, and neither `runRoutersFromMask` nor the workers of a parallel region, for
whatever number of threads and in whatever order, wake any. -/
theorem parallel_path_idle {order : List (ℕ × ℕ)} (h : Reachable net s) (hs : Step net s (.globalWakeup order) s') :
    (∀ r, s.now ∉ (s.sched.consumers (.router r)).wakeupTicks) ∧
    (∀ r, (s.sched.consumers (.router r)).tryConsumeTick s.now = (false, s.sched.consumers (.router r))) ∧
    (∀ mask, GarnetNetwork.runRoutersFromMask net mask s = .ok s) ∧
    (∀ order, ∃ tid, GarnetNetwork.runParallel net order s = .ok { s with sched := { s.sched with tid } }) ∧
    s'.data = s.data ∧ s'.sched.consumers = s.sched.consumers := by
  have hok := h.free_schedOk.2
  cases hs with
  | globalWakeup hg hev ho hs =>
    have hidle := hok.routersIdle hev
    refine ⟨fun r => (hidle r).2, fun r => Consumer.tryConsumeTick_of_not_mem (hidle r).1 (hidle r).2,
      GarnetNetwork.runRoutersFromMask_eq hidle, GarnetNetwork.runParallel_eq hidle hok.seq hok.deferred, ?_⟩
    obtain ⟨_, _, _, rfl⟩ := GarnetNetwork.globalWakeup_eq hidle hok.seq hok.deferred hs
    exact ⟨rfl, rfl⟩

/-- Router `0` is registered for tick `2`, but when `globalWakeup` runs there, it has nothing to do. -/
theorem parallel_path_idle_two : ∃ s s', Reachable Net.two s ∧ Step Net.two s (.globalWakeup [(0, 0)]) s' ∧
    (s.sched.ring.takeMask (Net.two.clockPeriod .network) s.now).1 = bit 0 ∧ s'.data = s.data := by
  obtain ⟨s, hs, ht⟩ := exists_reachable Net.two
    (sendFirst ++ [.globalWakeup [], .advance 2, .fire (.ni 0), .fire (.networkLink 0)])
    (fun s => (exec Net.two s (.globalWakeup [(0, 0)])).isSome &&
      (s.sched.ring.takeMask (Net.two.clockPeriod .network) s.now).1 == bit 0) (by decide +kernel)
  simp only [Bool.and_eq_true, beq_iff_eq] at ht
  obtain ⟨s', hs'⟩ := Option.isSome_iff_exists.mp ht.1
  have hstep := exec_eq_some_iff.mp hs'
  exact ⟨s, s', hs, hstep, ht.2, (parallel_path_idle hs hstep).2.2.2.2.1⟩

end Gem5.Garnet
