import Gem5.Garnet.Network

/-!
# Runs that can be executed

`exec` computes a step of an event-driven run, if the action is possible, and does so exactly when there is
such a step (`exec_eq_some_iff`). So a list of actions that executes is a run, and what it leads to is
reachable. `Net.star` is a family of networks to run: one router with an interface at the end of
each of its links.
-/

namespace Gem5.Garnet

open Sim Ruby Lib List

/-! ### Executing actions -/

variable (net : Net)

/-- `noEventBefore`, as a test. -/
def noEventBeforeTest (t : ℕ) (σ : Sched) : Bool :=
  net.consumerList.all fun c =>
    match (σ.consumers c).wakeupEvent with
    | none => true
    | some w => decide (t ≤ w)

/-- `IsInterleaving`, as a test. -/
def isInterleavingTest (mask : BitVec 64) (order : List (ℕ × ℕ)) : Bool :=
  order.all (fun e => decide (e.1 < net.numThreads)) &&
    (range net.numThreads).all fun tid =>
      (order.filter fun e => e.1 = tid).map Prod.snd == bitsOf (mask &&& GarnetNetwork.threadRouterMask net tid)

instance : DecidablePred ProtocolOp.Legal
  | .enqueue msg _ draw => inferInstanceAs (Decidable (0 < draw ∧ msg.destination.Nodup))
  | .delayHead _ draw => inferInstanceAs (Decidable (0 < draw))
  | .dequeue | .stallMessage _ | .reanalyzeMessages _ | .reanalyzeAllMessages | .recycle _ => isTrue trivial

/-- A step of an event-driven run, if the action is possible. -/
def exec (s : State) : Action → Option State
  | .advance t =>
    if s.now ≤ t ∧ noEventBeforeTest net t s.sched = true ∧ t ≤ s.sched.globalEvent then some { s with now := t } else none
  | .fire c =>
    if c ∈ net.consumerList ∧ (s.sched.consumers c).wakeupEvent = some s.now then (processCurrentEvent net c s).toOption
    else none
  | .globalWakeup order =>
    if s.sched.globalEvent = s.now ∧ noEventBeforeTest net (s.now + 1) s.sched = true ∧
        isInterleavingTest net (s.sched.ring.takeMask (net.clockPeriod .network) s.now).1 order = true then
      (GarnetNetwork.globalWakeup net order s).toOption
    else none
  | .protocol n vnet op => if n < net.numNodes ∧ op.Legal then (protocol net n vnet op s).toOption else none

variable {net} {s s' : State}

lemma noEventBeforeTest_iff {t : ℕ} {σ : Sched} : noEventBeforeTest net t σ = true ↔ noEventBefore net t σ := by
  rw [noEventBeforeTest, all_eq_true]
  refine forall₂_congr fun c _ => ?_
  cases (σ.consumers c).wakeupEvent <;> simp

lemma isInterleavingTest_iff {mask : BitVec 64} {order : List (ℕ × ℕ)} :
    isInterleavingTest net mask order = true ↔ GarnetNetwork.IsInterleaving net mask order := by
  simp [isInterleavingTest, GarnetNetwork.IsInterleaving]

lemma toOption_eq_some_iff {ε α : Type} {x : Except ε α} {a : α} : x.toOption = some a ↔ x = .ok a := by
  cases x <;> simp [Except.toOption]

lemma exec_eq_some_iff {a : Action} : exec net s a = some s' ↔ Step net s a s' := by
  constructor
  · intro h
    cases a with
    | advance t =>
      simp only [exec, Option.ite_none_right_eq_some, Option.some.injEq] at h
      obtain ⟨⟨h1, h2, h3⟩, rfl⟩ := h
      exact .advance h1 (noEventBeforeTest_iff.mp h2) h3
    | fire c =>
      simp only [exec, Option.ite_none_right_eq_some, toOption_eq_some_iff] at h
      exact .fire h.1.1 h.1.2 h.2
    | globalWakeup order =>
      simp only [exec, Option.ite_none_right_eq_some, toOption_eq_some_iff] at h
      exact .globalWakeup h.1.1 (noEventBeforeTest_iff.mp h.1.2.1) (isInterleavingTest_iff.mp h.1.2.2) h.2
    | protocol n vnet op =>
      simp only [exec, Option.ite_none_right_eq_some, toOption_eq_some_iff] at h
      exact .protocol h.1.1 h.1.2 h.2
  · intro h
    cases h with
    | advance h1 h2 h3 => rw [exec, if_pos ⟨h1, noEventBeforeTest_iff.mpr h2, h3⟩]
    | fire h1 h2 h3 => rw [exec, if_pos ⟨h1, h2⟩, h3]; rfl
    | globalWakeup h1 h2 h3 h4 =>
      rw [exec, if_pos ⟨h1, noEventBeforeTest_iff.mpr h2, isInterleavingTest_iff.mpr h3⟩, h4]
      rfl
    | protocol h1 h2 h3 => rw [exec, if_pos ⟨h1, h2⟩, h3]; rfl

lemma Reachable.exec {acts : List Action} (h : Reachable net s) (hs : acts.foldlM (exec net) s = some s') :
    Reachable net s' := by
  induction acts generalizing s with
  | nil =>
    cases hs
    exact h
  | cons a acts ih =>
    rw [foldlM_cons] at hs
    obtain ⟨s1, h1, h2⟩ := Option.bind_eq_some_iff.mp hs
    exact ih (h.step a (exec_eq_some_iff.mp h1)) h2

/-! ### One router -/

/-- The two links between router `0` and interface `i`: to the router and from it. -/
def Link.pair (i vnets latency creditLatency : ℕ) : List Link :=
  [{ src := .ni i, dst := .router 0, latency, creditLatency },
    { src := .router 0, dst := .ni i, latency, creditLatency, routingTableEntry := replicate vnets [i] }]

/-- A router with an interface at the end of each of its pairs of links. All links have the same latencies, all
objects the same clock, virtual networks have `vcs` virtual channels and are ordered, and the
protocol buffers are all like `toNet` and `fromNet`. -/
def Net.star (nodes vnets vcs latency creditLatency : ℕ) (toNet fromNet : { b : MessageBuffer // b.IsNew }) : Net where
  links := (range nodes).flatMap fun i => Link.pair i vnets latency creditLatency
  numRouters := 1
  numNodes := nodes
  virtualNetworks := vnets
  vcPerVnet _ := vcs
  routerLatency _ := 1
  routerWidth _ := 128
  isVnetOrdered _ := true
  vnetType _ := .data
  buffersPerDataVc := 4
  buffersPerCtrlVc := 1
  routingAlgorithm := .table
  numRows := -1
  deadlockThreshold _ := 50000
  clockPeriod _ := 1
  randomization := false
  warmupEnabled := false
  rand _ := 0
  randomTime _ := 1
  numThreads := 1
  toNetQueues _ vnet := if vnet < vnets then some toNet else none
  fromNetQueues _ vnet := if vnet < vnets then some fromNet else none
  clockPeriod_pos _ := Nat.one_pos
  buffers_pos _ _ := by simp
  queues_new n vnet b h := by
    rcases h with h | h <;>
    · obtain ⟨-, h⟩ := Option.ite_none_right_eq_some.mp h
      cases h
      exact Subtype.property _
  randomTime_pos _ := Nat.one_pos
  link_ends := by
    intro l hl
    obtain ⟨i, hi, hl⟩ := mem_flatMap.mp hl
    simp only [Link.pair, mem_cons, not_mem_nil, or_false] at hl
    have hi := mem_range.mp hi
    rcases hl with rfl | rfl <;> simp [Node.isIn, hi]
  link_router := by
    rintro l hl m n ⟨h1, h2⟩
    obtain ⟨i, -, hl⟩ := mem_flatMap.mp hl
    simp only [Link.pair, mem_cons, not_mem_nil, or_false] at hl
    rcases hl with rfl | rfl
    · cases h2
    · cases h1
  ni_vcs _ _ _ _ _ _ _ _ _ _ _ := rfl

/-- A protocol buffer without a bound. -/
def unbounded : { b : MessageBuffer // b.IsNew } := ⟨{}, rfl⟩

/-- A protocol buffer for one message. -/
def oneSlot : { b : MessageBuffer // b.IsNew } := ⟨{ maxSize := 1 }, rfl⟩

/-- Two interfaces and a router between them. -/
def Net.two : Net := Net.star 2 1 2 1 1 unbounded unbounded

/-- Interface `0` makes a packet of two flits for interface `1` and sends the first of them. -/
def sendFirst : List Action :=
  [.protocol 0 0 (.enqueue { payload := 0, destination := [1], size := 256, time := 0 } 1 1), .advance 1, .fire (.ni 0)]

variable (net) in
lemma exists_reachable (acts : List Action) (test : State → Bool)
    (h : ((acts.foldlM (exec net) (State.init net)).any test) = true) : ∃ s, Reachable net s ∧ test s = true := by
  obtain ⟨s, hs, ht⟩ := (Option.any_eq_true _ _).mp h
  exact ⟨s, Reachable.init.exec hs, ht⟩

end Gem5.Garnet
