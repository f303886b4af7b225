import Gem5.Garnet.Flit

/-!
# Traffic statistics

How packets, flits, latencies and hops are counted. Each interface counts in counters of its own (`m_local_..`,
in `flitisizeMessage` and `incrementStats`); at every dump `collateStats` adds these counters to the registered
statistics, which are then reported; a reset of the statistics sets the registered ones to zero and calls `resetStats` of
the network, which goes to routers and links only. So what was counted before an earlier dump is added again, and what
was counted before a reset comes back.

The counters are integers here, without the bounds of `uint64_t` and `double`.
-/

namespace Gem5.Garnet

open List

/-! ### Counters -/

inductive Counter (vnets : ℕ) where
  | flitsInjected (v : Fin vnets)
  | flitsReceived (v : Fin vnets)
  | flitNetworkLatency (v : Fin vnets)
  | flitQueueingLatency (v : Fin vnets)
  | packetsInjected (v : Fin vnets)
  | packetsReceived (v : Fin vnets)
  | packetNetworkLatency (v : Fin vnets)
  | packetQueueingLatency (v : Fin vnets)
  | totalHops
  deriving DecidableEq, Repr

abbrev Counters (vnets : ℕ) := Counter vnets → ℤ

/-- The counters of the interfaces, and the registered statistics. -/
structure TrafficStats (nodes vnets : ℕ) where
  /-- `m_local_..` of each interface. -/
  counted : Fin nodes → Counters vnets
  /-- `m_flits_injected` and the others. -/
  registered : Counters vnets

inductive TrafficEvent (vnets : ℕ) where
  /-- `flitisizeMessage` makes a packet. -/
  | packetInjected (v : Fin vnets)
  /-- `flitisizeMessage` makes a flit. -/
  | flitInjected (v : Fin vnets)
  /-- `incrementStats(t_flit)` at a tick, by an interface with a clock. -/
  | flitReceived (v : Fin vnets) (f : Flit) (curTick clockPeriod : ℕ)

/-- What `incrementStats` adds for a flit of a virtual network. -/
def incrementStats {vnets : ℕ} (v : Fin vnets) (f : Flit) (curTick clockPeriod : ℕ) : Counters vnets :=
  let networkDelay : ℤ := f.dequeueTime - f.enqueueTime - clockPeriod
  let queueingDelay : ℤ := f.srcDelay + (curTick - f.dequeueTime)
  fun
  | .flitsReceived u => if u = v then 1 else 0
  | .flitNetworkLatency u => if u = v then networkDelay else 0
  | .flitQueueingLatency u => if u = v then queueingDelay else 0
  | .packetsReceived u => if u = v ∧ f.isTail = true then 1 else 0
  | .packetNetworkLatency u => if u = v ∧ f.isTail = true then networkDelay else 0
  | .packetQueueingLatency u => if u = v ∧ f.isTail = true then queueingDelay else 0
  | .totalHops => f.route.hopsTraversed
  | .flitsInjected _ | .packetsInjected _ => 0

/-- What an event adds to the counters. -/
def TrafficEvent.amount {vnets : ℕ} : TrafficEvent vnets → Counters vnets
  | .packetInjected v => Pi.single (.packetsInjected v) 1
  | .flitInjected v => Pi.single (.flitsInjected v) 1
  | .flitReceived v f curTick clockPeriod => incrementStats v f curTick clockPeriod

namespace TrafficStats

variable {nodes vnets : ℕ}

def init : TrafficStats nodes vnets := ⟨fun _ => 0, 0⟩

def count (n : Fin nodes) (e : TrafficEvent vnets) (s : TrafficStats nodes vnets) : TrafficStats nodes vnets :=
  { s with counted := Function.update s.counted n (s.counted n + e.amount) }

/-- `collateStats()`. -/
def collateStats (s : TrafficStats nodes vnets) : TrafficStats nodes vnets :=
  { s with registered := (finRange nodes).foldl (fun r n => r + s.counted n) s.registered }

/-- A reset of all statistics. `GarnetNetwork::resetStats` does not change the counters of interfaces. -/
def reset (s : TrafficStats nodes vnets) : TrafficStats nodes vnets := { s with registered := 0 }

end TrafficStats

inductive StatsOp (nodes vnets : ℕ) where
  | event (n : Fin nodes) (e : TrafficEvent vnets)
  | dump
  | reset

namespace StatsOp

variable {nodes vnets : ℕ}

def apply (s : TrafficStats nodes vnets) : StatsOp nodes vnets → TrafficStats nodes vnets
  | .event n e => s.count n e
  | .dump => s.collateStats
  | .reset => s.reset

def run (ops : List (StatsOp nodes vnets)) : TrafficStats nodes vnets := ops.foldl apply TrafficStats.init

/-- What a dump after these operations reports. -/
def reported (ops : List (StatsOp nodes vnets)) : Counters vnets := (run ops).collateStats.registered

/-- What it should report: the events since the last reset. -/
def sinceReset (ops : List (StatsOp nodes vnets)) : Counters vnets :=
  ops.foldl (fun c op =>
    match op with
    | .event _ e => c + e.amount
    | .dump => c
    | .reset => 0) 0

def isEvent : StatsOp nodes vnets → Bool
  | .event _ _ => true
  | _ => false

def NoneBefore (ops : List (StatsOp nodes vnets)) : Prop :=
  ∀ pre op post, ops = pre ++ op :: post → op.isEvent = false → ∀ x ∈ pre, x.isEvent = false

/-! ### What is reported too much -/

def total (ops : List (StatsOp nodes vnets)) : Counters vnets := ∑ n, (run ops).counted n

lemma run_append (ops : List (StatsOp nodes vnets)) (op : StatsOp nodes vnets) : run (ops ++ [op]) = apply (run ops) op := by
  simp [run, foldl_append]

lemma registered_collateStats (s : TrafficStats nodes vnets) :
    s.collateStats.registered = s.registered + ∑ n, s.counted n := by
  have hfold : ∀ (l : List (Fin nodes)) (r : Counters vnets),
      l.foldl (fun r n => r + s.counted n) r = r + (l.map s.counted).sum := by
    intro l
    induction l with
    | nil => intro r; simp
    | cons n l ih =>
      intro r
      rw [foldl_cons, ih, map_cons, sum_cons, add_assoc]
  rw [Fin.sum_univ_def]
  exact hfold _ _

section

variable (ops : List (StatsOp nodes vnets))
include ops

lemma reported_eq : reported ops = (run ops).registered + total ops :=
  registered_collateStats _

lemma total_event (n : Fin nodes) (e : TrafficEvent vnets) : total (ops ++ [.event n e]) = total ops + e.amount := by
  unfold total
  rw [run_append]
  change ∑ m, Function.update (run ops).counted n ((run ops).counted n + e.amount) m = _
  rw [Finset.sum_update_of_mem (Finset.mem_univ n), ← Finset.add_sum_erase _ _ (Finset.mem_univ n),
    Finset.sdiff_singleton_eq_erase]
  abel

lemma total_dump : total (ops ++ [.dump]) = total ops := by
  unfold total
  rw [run_append]
  rfl

lemma total_reset : total (ops ++ [.reset]) = total ops := by
  unfold total
  rw [run_append]
  rfl

end

/-- What a dump after these operations reports too much. -/
def excess (ops : List (StatsOp nodes vnets)) : Counters vnets := reported ops - sinceReset ops

section

variable (ops : List (StatsOp nodes vnets))
include ops

lemma excess_event (n : Fin nodes) (e : TrafficEvent vnets) : excess (ops ++ [.event n e]) = excess ops := by
  unfold excess
  rw [reported_eq, reported_eq, total_event, run_append, sinceReset, foldl_append]
  change (run ops).registered + (total ops + e.amount) - (sinceReset ops + e.amount) = _
  abel

lemma excess_dump : excess (ops ++ [.dump]) = excess ops + total ops := by
  unfold excess
  rw [reported_eq, reported_eq, total_dump, run_append, sinceReset, foldl_append]
  change (run ops).collateStats.registered + total ops - sinceReset ops = _
  rw [registered_collateStats]
  change (run ops).registered + total ops + total ops - sinceReset ops = _
  abel

lemma excess_reset : excess (ops ++ [.reset]) = total ops := by
  unfold excess
  rw [reported_eq, total_reset, run_append, sinceReset, foldl_append]
  change 0 + total ops - 0 = _
  abel

end

/-! ### The counts of events -/

/-- How many packets and flits were counted. -/
def events (c : Counters vnets) : ℤ := ∑ v, (c (.flitsInjected v) + c (.flitsReceived v) + c (.packetsInjected v))

lemma events_add (c c' : Counters vnets) : events (c + c') = events c + events c' := by
  unfold events
  rw [← Finset.sum_add_distrib]
  refine Finset.sum_congr rfl fun v _ => ?_
  simp only [Pi.add_apply]
  ring

lemma events_amount (e : TrafficEvent vnets) : events e.amount = 1 := by
  unfold events
  cases e with
  | packetInjected v => simp [TrafficEvent.amount, Pi.single_apply]
  | flitInjected v => simp [TrafficEvent.amount, Pi.single_apply]
  | flitReceived v f curTick clockPeriod => simp [TrafficEvent.amount, incrementStats]

section

variable (ops : List (StatsOp nodes vnets))
include ops

lemma events_total : events (total ops) = ops.countP isEvent := by
  induction ops using reverseRecOn with
  | nil => simp [events, total, run, TrafficStats.init]
  | append_singleton ops op ih =>
    rw [countP_append]
    cases op with
    | event n e => rw [total_event, events_add, ih, events_amount]; rfl
    | dump => rw [total_dump, ih]; rfl
    | reset => rw [total_reset, ih]; rfl

lemma total_eq_zero_iff : total ops = 0 ↔ ∀ x ∈ ops, x.isEvent = false := by
  constructor
  · intro h
    have hcount := events_total ops
    rw [h] at hcount
    have hzero : ops.countP isEvent = 0 := by
      simp only [events, Pi.zero_apply, add_zero, Finset.sum_const_zero] at hcount
      omega
    intro x hx
    simpa using countP_eq_zero.mp hzero x hx
  · intro h
    induction ops using reverseRecOn with
    | nil => simp [total, run, TrafficStats.init]
    | append_singleton ops op ih =>
      have hops := ih fun x hx => h x (mem_append_left _ hx)
      cases op with
      | event n e => exact absurd (h (.event n e) (by simp)) (by simp [isEvent])
      | dump => rw [total_dump, hops]
      | reset => rw [total_reset, hops]

lemma events_excess_nonneg : 0 ≤ events (excess ops) := by
  induction ops using reverseRecOn with
  | nil => simp [events, excess, reported_eq, total, run, TrafficStats.init, sinceReset]
  | append_singleton ops op ih =>
    have htotal := events_total ops
    cases op with
    | event n e => rwa [excess_event]
    | dump =>
      rw [excess_dump, events_add]
      omega
    | reset =>
      rw [excess_reset]
      omega

lemma noneBefore_append (op : StatsOp nodes vnets) :
    NoneBefore (ops ++ [op]) ↔ NoneBefore ops ∧ (op.isEvent = false → ∀ x ∈ ops, x.isEvent = false) := by
  constructor
  · intro h
    exact ⟨fun pre x post hx => h pre x (post ++ [op]) (by simp [hx]), fun hop => h ops op [] rfl hop⟩
  · rintro ⟨h1, h2⟩ pre x post hx hop
    rcases eq_nil_or_concat post with rfl | ⟨post, y, rfl⟩
    · obtain ⟨rfl, h⟩ := append_inj' hx rfl
      cases h
      exact h2 hop
    · rw [concat_eq_append, ← cons_append, ← append_assoc] at hx
      exact h1 pre x post (append_inj' hx rfl).1 hop

lemma excess_eq_zero_iff : excess ops = 0 ↔ NoneBefore ops := by
  induction ops using reverseRecOn with
  | nil =>
    refine iff_of_true ?_ fun pre op post h => by simp at h
    simp [excess, reported_eq, total, run, TrafficStats.init, sinceReset]
  | append_singleton ops op ih =>
    rw [noneBefore_append, ← ih, ← total_eq_zero_iff]
    cases op with
    | event n e =>
      rw [excess_event]
      exact ⟨fun h => ⟨h, fun h => by cases h⟩, fun h => h.1⟩
    | dump =>
      rw [excess_dump]
      constructor
      · intro h
        -- both counts are not negative
        have hsum := congrArg events h
        rw [events_add] at hsum
        have h1 := events_excess_nonneg ops
        have h2 := events_total ops
        have h3 : events (0 : Counters vnets) = 0 := by simp [events]
        have hcount : ops.countP isEvent = 0 := by omega
        have htotal : total ops = 0 := (total_eq_zero_iff ops).mpr fun x hx => by
          simpa using countP_eq_zero.mp hcount x hx
        rw [htotal, add_zero] at h
        exact ⟨h, fun _ => htotal⟩
      · rintro ⟨h1, h2⟩
        rw [h1, h2 rfl, add_zero]
    | reset =>
      rw [excess_reset]
      constructor
      · intro h
        refine ⟨?_, fun _ => h⟩
        exact ih.mpr fun pre x post hx _ y hy => (total_eq_zero_iff ops).mp h y (by rw [hx]; simp [hy])
      · rintro ⟨-, h⟩
        exact h rfl

end

/-- The dumps of a sequence all report the totals since the last reset just when no dump comes after a dump or reset that
comes after an event. -/
theorem dumps_exact_iff (ops : List (StatsOp nodes vnets)) :
    (∀ pre post, ops = pre ++ .dump :: post → reported pre = sinceReset pre) ↔
      ∀ pre post, ops = pre ++ .dump :: post → NoneBefore pre := by
  refine forall₂_congr fun pre post => imp_congr_right fun _ => ?_
  rw [← excess_eq_zero_iff, excess, sub_eq_zero]

/-- A flit is injected, and the statistics are dumped. -/
def injectDump : List (StatsOp 1 1) := [.event 0 (.flitInjected 0), .dump]

/-- A flit is injected, and the statistics are reset. -/
def injectReset : List (StatsOp 1 1) := [.event 0 (.flitInjected 0), .reset]

/-- The second of two dumps reports a flit twice, and a dump after a reset reports one from before it. -/
theorem injected_counted_again :
    (reported injectDump (.flitsInjected 0) = 2 ∧ sinceReset injectDump (.flitsInjected 0) = 1) ∧
      (reported injectReset (.flitsInjected 0) = 1 ∧ sinceReset injectReset (.flitsInjected 0) = 0) := by
  decide +kernel

end StatsOp

end Gem5.Garnet
