import Gem5.Garnet.WakeupRing

/-!
# Runs of the wakeup ring

The ring with the calls that fill it and the event that empties it, on one clock: a router asks for
a wakeup in the next cycle (`InputUnit::wakeup`, `SwitchAllocator::check_for_wakeup`) or when a flit
has waited for its pipeline (`InputUnit::wakeup`), an interface that sends a flit asks for its router
in the next cycle (`NetworkInterface::scheduleFlit`), and `globalWakeup` runs when its event fires.

`globalWakeupEvent` has the priority after `Default_Pri`, that of the events in which routers and
interfaces run, so what is registered at a tick is registered before `globalWakeup` runs there, or
by the routers it runs itself, before it moves its event. The event moves to the earliest slot that
is then registered, so a registration of a later cycle that is due earlier waits too long.
`dispatched_on_time_iff` says exactly when that cannot happen: when no router waits longer than two
cycles in its pipeline.
-/

namespace Gem5.Garnet

open Sim List WakeupRing Nat

structure RingConfig where
  /-- The period of the clock. -/
  P : ℕ
  numRouters : ℕ
  /-- The pipeline stages of each router. -/
  latency : ℕ → ℕ
  P_pos : 0 < P
  /-- `fatal_if(m_routers.size() > 64)`. -/
  numRouters_le : numRouters ≤ 64

structure RingSys where
  now : ℕ
  ring : WakeupRing
  /-- When `globalWakeupEvent` is scheduled; it always is. -/
  event : ℕ
  /-- The calls of `registerWakeup`: router and target tick. -/
  registered : List (ℕ × ℕ)
  /-- The executions of `globalWakeup`: tick and mask taken out. -/
  executed : List (ℕ × BitVec 64)

/-- A wakeup that router `r` can ask for, that many cycles ahead. -/
inductive Wakes (cfg : RingConfig) (r : ℕ) : ℕ → Prop where
  /-- `schedule_wakeup(Cycles(1))` of the router, or `scheduleFlit` of an interface at it. -/
  | nextCycle (hr : r < cfg.numRouters) : Wakes cfg r 1
  /-- `schedule_wakeup(wait_time)` of a router with more than one pipeline stage. -/
  | pipeline (hr : r < cfg.numRouters) (hl : 1 < cfg.latency r) : Wakes cfg r (cfg.latency r - 1)

lemma Wakes.lt {cfg : RingConfig} {r k : ℕ} (h : Wakes cfg r k) : r < cfg.numRouters := by
  cases h <;> assumption

lemma Wakes.le_two {cfg : RingConfig} {r k : ℕ} (h : Wakes cfg r k)
    (hl : ∀ r < cfg.numRouters, cfg.latency r ≤ 3) : 1 ≤ k ∧ k ≤ 2 := by
  cases h with
  | nextCycle hr => omega
  | pipeline hr h =>
    have := hl r hr
    omega

namespace RingSys

/-- `init()`: the first execution is in the next cycle. -/
def init (cfg : RingConfig) : RingSys := ⟨0, {}, clockEdge cfg.P 0 1, [], []⟩

/-- `registerWakeup(r, clockEdge(cycles))`. -/
def register (cfg : RingConfig) (s : RingSys) (r cycles : ℕ) : RingSys :=
  let t := clockEdge cfg.P s.now cycles
  { s with ring := s.ring.registerWakeup cfg.P r t, registered := s.registered ++ [(r, t)] }

/-- `globalWakeup` takes the mask of the current tick out of the ring. -/
def takeNow (cfg : RingConfig) (s : RingSys) : RingSys :=
  let (mask, ring) := s.ring.takeMask cfg.P s.now
  { s with ring, executed := s.executed ++ [(s.now, mask)] }

/-- The registrations `calls`, router and cycles, one after the other. -/
def registerAll (cfg : RingConfig) (calls : List (ℕ × ℕ)) (s : RingSys) : RingSys :=
  calls.foldl (fun s x => s.register cfg x.1 x.2) s

/-- `globalWakeup()`; `calls` are made by the routers it runs. -/
def globalWakeup (cfg : RingConfig) (calls : List (ℕ × ℕ)) (s : RingSys) : RingSys :=
  let s' := (s.takeNow cfg).registerAll cfg calls
  { s' with event := s'.ring.computeNextWakeupTick (slot cfg.P s.now) s.now cfg.P }

/-- `globalWakeup` has not run at the current tick. -/
def Early (s : RingSys) : Prop := ∀ x ∈ s.executed, x.1 < s.now

/-- One step of the system. The calls are made at clock edges, those of the consumers' events before
`globalWakeup`, and time does not pass the scheduled event. -/
inductive Step (cfg : RingConfig) (s : RingSys) : RingSys → Prop where
  /-- Simulated time goes on to `t`. -/
  | advance {t : ℕ} (h : s.now ≤ t) (h' : t ≤ s.event) : Step cfg s { s with now := t }
  | register {r k : ℕ} (hr : Wakes cfg r k) (h : cfg.P ∣ s.now) (he : s.Early) : Step cfg s (s.register cfg r k)
  | globalWakeup {calls : List (ℕ × ℕ)} (h : s.event = s.now) (hc : ∀ x ∈ calls, Wakes cfg x.1 x.2) :
      Step cfg s (s.globalWakeup cfg calls)

inductive Reachable (cfg : RingConfig) : RingSys → Prop where
  | init : Reachable cfg (init cfg)
  | step {s s' : RingSys} : Reachable cfg s → Step cfg s s' → Reachable cfg s'

/-- `globalWakeup` ran at `t` and took out a mask with bit `r`. -/
def Dispatched (s : RingSys) (r t : ℕ) : Prop := ∃ m, (t, m) ∈ s.executed ∧ m.getLsbD r = true

/-- Every registration has been dispatched at its tick, or it is still in the ring, its tick has not passed
and the event is not scheduled later. -/
def OnTime (cfg : RingConfig) (s : RingSys) : Prop := ∀ r t, (r, t) ∈ s.registered → s.Dispatched r t ∨
  (s.now ≤ t ∧ s.event ≤ t ∧ (s.ring.mask (slot cfg.P t)).getLsbD r = true)

variable {cfg : RingConfig} {s s' : RingSys}

lemma register_ring (s : RingSys) (r k : ℕ) :
    (s.register cfg r k).ring = s.ring.registerWakeup cfg.P r (clockEdge cfg.P s.now k) := rfl

lemma clockEdge_of_dvd {now : ℕ} (h : cfg.P ∣ now) (k : ℕ) : clockEdge cfg.P now k = now + k * cfg.P := by
  rw [clockEdge, ceilTo_of_dvd cfg.P_pos h, mul_comm]

/-! ### Short pipelines -/

/-- What is registered and not dispatched is for a cycle from `lo` to `hi`, and only the slots of
these cycles are in use. -/
structure Within (cfg : RingConfig) (s : RingSys) (lo hi : ℕ) : Prop where
  active : ∀ i < 128, s.ring.active i = true → ∃ j, lo ≤ j ∧ j ≤ hi ∧ i = j % 128
  /-- A slot is active when it has a mask. -/
  mask : ∀ i < 128, s.ring.active i = true ↔ s.ring.mask i ≠ 0
  registered : ∀ r t, (r, t) ∈ s.registered → s.Dispatched r t ∨
    ∃ j, lo ≤ j ∧ j ≤ hi ∧ t = j * cfg.P ∧ (s.ring.mask (j % 128)).getLsbD r = true

variable {c lo hi r d k : ℕ}

lemma Within.mono (h : Within cfg s lo hi) {hi' : ℕ} (hle : hi ≤ hi') : Within cfg s lo hi' where
  active i hi ha := by
    obtain ⟨j, h1, h2, h3⟩ := h.active i hi ha
    exact ⟨j, h1, h2.trans hle, h3⟩
  mask := h.mask
  registered r t hm := by
    rcases h.registered r t hm with hd | ⟨j, h1, h2, h3⟩
    · exact Or.inl hd
    · exact Or.inr ⟨j, h1, h2.trans hle, h3⟩

lemma Within.register (h : Within cfg s lo hi) (hr : Wakes cfg r k) (hnow : s.now = c * cfg.P)
    (hlo : lo ≤ c + k) (hhi : c + k ≤ hi) : Within cfg (s.register cfg r k) lo hi := by
  have hr64 : r < 64 := hr.lt.trans_le cfg.numRouters_le
  have ht : clockEdge cfg.P s.now k = (c + k) * cfg.P := by
    rw [clockEdge_of_dvd ⟨c, hnow.trans (mul_comm _ _)⟩, hnow, add_mul]
  have hslot : slot cfg.P (clockEdge cfg.P s.now k) = (c + k) % 128 := by
    rw [ht, slot_mul cfg.P_pos]
  have hold : ∀ i r', (s.ring.mask i).getLsbD r' = true → ((s.register cfg r k).ring.mask i).getLsbD r' = true := by
    intro i r' hb
    rw [register_ring, registerWakeup_mask]
    split_ifs
    · rw [BitVec.getLsbD_or, hb, Bool.true_or]
    · exact hb
  have hnew : ((s.register cfg r k).ring.mask ((c + k) % 128)).getLsbD r = true := by
    rw [register_ring, registerWakeup_mask, hslot, if_pos rfl, BitVec.getLsbD_or, getLsbD_bit]
    simp [hr64]
  refine ⟨fun i hi' ha => ?_, fun i hi' => ?_, fun r' t' hm => ?_⟩
  · rw [register_ring, registerWakeup_active _ _ _ _ hi', hslot, Bool.or_eq_true, decide_eq_true_eq] at ha
    rcases ha with ha | ha
    · exact h.active i hi' ha
    · exact ⟨c + k, hlo, hhi, ha⟩
  · rw [register_ring, registerWakeup_active _ _ _ _ hi', registerWakeup_mask, hslot]
    split_ifs with hi
    · rw [decide_eq_true hi, Bool.or_true]
      exact iff_of_true rfl (bit_or_ne_zero hr64 _)
    · simpa [hi] using h.mask i hi'
  · rcases mem_append.mp hm with hm | hm
    · rcases h.registered r' t' hm with hd | ⟨j, h1, h2, h3, hb⟩
      · exact Or.inl hd
      · exact Or.inr ⟨j, h1, h2, h3, hold _ _ hb⟩
    · obtain ⟨rfl, rfl⟩ := Prod.mk.inj (mem_singleton.mp hm)
      exact Or.inr ⟨c + k, hlo, hhi, ht, hnew⟩

/-- The execution in cycle `c` dispatches what is registered for it. -/
lemma Within.takeNow (h : Within cfg s c hi) (hnow : s.now = c * cfg.P) (hhi : hi < c + 128) :
    Within cfg (s.takeNow cfg) (c + 1) hi := by
  have hslot : slot cfg.P s.now = c % 128 := by rw [hnow, slot_mul cfg.P_pos]
  have hmask (i : ℕ) : (s.takeNow cfg).ring.mask i = if i = c % 128 then 0 else s.ring.mask i :=
    hslot ▸ takeMask_mask s.ring cfg.P s.now i
  have hactive (i : ℕ) (hi : i < 128) : (s.takeNow cfg).ring.active i =
      (s.ring.active i && !(decide (s.ring.mask (c % 128) ≠ 0) && decide (i = c % 128))) :=
    hslot ▸ takeMask_active s.ring cfg.P s.now hi
  refine ⟨fun i hi ha => ?_, fun i hi => ?_, fun r t hm => ?_⟩
  · rw [hactive i hi, Bool.and_eq_true] at ha
    obtain ⟨j, h1, h2, rfl⟩ := h.active i hi ha.1
    have hne : j ≠ c := by
      rintro rfl
      rw [decide_eq_true ((h.mask _ hi).mp ha.1), decide_eq_true rfl] at ha
      exact absurd ha.2 (by decide)
    exact ⟨j, by omega, h2, rfl⟩
  · rw [hactive i hi, hmask]
    split_ifs with hic
    · subst hic
      by_cases hz : s.ring.mask (c % 128) = 0
      · simpa [hz] using h.mask _ hi
      · rw [decide_eq_true hz, decide_eq_true rfl]
        simp
    · simpa [hic] using h.mask i hi
  · rcases h.registered r t hm with ⟨m, hm', hb⟩ | ⟨j, h1, h2, rfl, hb⟩
    · exact Or.inl ⟨m, mem_append_left _ hm', hb⟩
    · rcases Nat.eq_or_lt_of_le h1 with rfl | hlt
      · refine Or.inl ⟨s.ring.mask (slot cfg.P s.now), mem_append_right _ ?_, hslot ▸ hb⟩
        rw [← hnow]
        exact mem_singleton_self _
      · refine Or.inr ⟨j, hlt, h2, rfl, ?_⟩
        rw [hmask, if_neg (by omega)]
        exact hb

lemma Within.active_of_mask (h : Within cfg s lo hi) {j : ℕ} (hb : (s.ring.mask (j % 128)).getLsbD r = true) :
    s.ring.active (j % 128) = true := by
  rw [h.mask _ (mod_lt _ (by decide))]
  intro hz
  simp [hz] at hb

lemma Within.next (h : Within cfg s (c + 1) (c + 2)) (t : ℕ) :
    ∃ k, 1 ≤ k ∧ k ≤ 2 ∧ s.ring.computeNextWakeupTick (c % 128) t cfg.P = t + k * cfg.P ∧
      Within cfg s (c + k) (c + 2) := by
  have hc : c % 128 < 128 := mod_lt _ (by decide)
  have hnear (e : ℕ) : (c % 128 + e) % 128 = (c + e) % 128 := by rw [mod_add_mod]
  by_cases h1 : s.ring.active ((c + 1) % 128) = true
  · refine ⟨1, le_rfl, by omega, ?_, h⟩
    refine computeNextWakeupTick_nearest _ hc one_pos (by omega) (hnear 1 ▸ h1) fun e he he' => ?_
    omega
  · have hskip {j : ℕ} (hj : c + 1 ≤ j) (ha : s.ring.active (j % 128) = true) : c + 2 ≤ j := by
      rcases Nat.eq_or_lt_of_le hj with rfl | hlt
      · exact absurd ha h1
      · exact hlt
    by_cases h2 : s.ring.active ((c + 2) % 128) = true
    · refine ⟨2, by omega, le_rfl, ?_, ?_, h.mask, ?_⟩
      · refine computeNextWakeupTick_nearest _ hc two_pos (by omega) (hnear 2 ▸ h2) fun e he he' => ?_
        obtain rfl : e = 1 := by omega
        rw [hnear]
        exact eq_false_of_ne_true h1
      · intro i hi ha
        obtain ⟨j, hj, hj', rfl⟩ := h.active i hi ha
        exact ⟨j, hskip hj ha, hj', rfl⟩
      · intro r t hm
        rcases h.registered r t hm with hd | ⟨j, hj, hj', ht, hb⟩
        · exact Or.inl hd
        · exact Or.inr ⟨j, hskip hj (h.active_of_mask hb), hj', ht, hb⟩
    · refine ⟨1, le_rfl, by omega, ?_, h⟩
      rw [one_mul]
      refine computeNextWakeupTick_none _ hc fun i hi => ?_
      by_contra ha
      obtain ⟨j, hj, hj', rfl⟩ := h.active i hi (by simpa using ha)
      have : j = c + 2 := le_antisymm hj' (hskip hj (by simpa using ha))
      exact h2 (this ▸ by simpa using ha)

/-- The invariant when every registration is one or two cycles ahead: the event is in cycle `c`, which
is the current one or the next while registrations can come. -/
structure Inv (cfg : RingConfig) (s : RingSys) (c : ℕ) : Prop where
  event : s.event = c * cfg.P
  now_le : s.now ≤ c * cfg.P
  le_now : c * cfg.P ≤ s.now + 2 * cfg.P
  early : s.Early → c * cfg.P < s.now + 2 * cfg.P
  within : Within cfg s c (c + 2)

lemma init_event (cfg : RingConfig) : (init cfg).event = cfg.P := by
  simp [init, clockEdge, ceilTo_of_dvd cfg.P_pos (dvd_zero _)]

lemma inv_init (cfg : RingConfig) : Inv cfg (init cfg) 1 where
  event := (init_event cfg).trans (one_mul _).symm
  now_le := zero_le _
  le_now := by simp only [init]; omega
  early _ := by
    have := cfg.P_pos
    simp only [init]
    omega
  within := {
    active := fun i _ h => by simp [init, active] at h
    mask := fun i _ => by simp [init, active]
    registered := fun r t h => by simp [init] at h }

lemma Inv.register (h : Inv cfg s c) (hr : Wakes cfg r k) (hk : 1 ≤ k ∧ k ≤ 2) (hd : cfg.P ∣ s.now)
    (he : s.Early) : Inv cfg (s.register cfg r k) c := by
  refine ⟨h.event, h.now_le, h.le_now, h.early, ?_⟩
  obtain ⟨q, hq⟩ := hd
  have hq' : s.now = q * cfg.P := hq.trans (mul_comm _ _)
  have h1 : q * cfg.P ≤ c * cfg.P := hq' ▸ h.now_le
  have h2 : c * cfg.P < (q + 2) * cfg.P := by
    rw [add_mul, ← hq']
    exact h.early he
  have h3 := le_of_mul_le_mul_right h1 cfg.P_pos
  have h4 := lt_of_mul_lt_mul_right h2
  exact h.within.register hr hq' (by omega) (by omega)

lemma Within.registerAll {calls : List (ℕ × ℕ)} (h : Within cfg s (c + 1) (c + 2)) (hnow : s.now = c * cfg.P)
    (hc : ∀ x ∈ calls, Wakes cfg x.1 x.2) (hl : ∀ r < cfg.numRouters, cfg.latency r ≤ 3) :
    Within cfg (s.registerAll cfg calls) (c + 1) (c + 2) ∧ (s.registerAll cfg calls).now = s.now ∧
      (s.registerAll cfg calls).executed = s.executed := by
  induction calls generalizing s with
  | nil => exact ⟨h, rfl, rfl⟩
  | cons x calls ih =>
    have hx := hc x (mem_cons_self ..)
    obtain ⟨hk, hk'⟩ := hx.le_two hl
    exact ih (h.register hx hnow (by omega) (by omega)) hnow fun y hy => hc y (mem_cons_of_mem _ hy)

lemma Inv.globalWakeup {calls : List (ℕ × ℕ)} (h : Inv cfg s c) (he : s.event = s.now)
    (hc : ∀ x ∈ calls, Wakes cfg x.1 x.2) (hl : ∀ r < cfg.numRouters, cfg.latency r ≤ 3) :
    ∃ c', Inv cfg (s.globalWakeup cfg calls) c' := by
  have hnow : s.now = c * cfg.P := he.symm.trans h.event
  have hslot : slot cfg.P s.now = c % 128 := by rw [hnow, slot_mul cfg.P_pos]
  obtain ⟨hw, hnow', hex⟩ := (h.within.takeNow hnow (by omega)).registerAll hnow hc hl
  obtain ⟨k, hk, hk', hev, hw'⟩ := hw.next s.now
  have hle : k * cfg.P ≤ 2 * cfg.P := mul_le_mul_right _ hk'
  have heq : (c + k) * cfg.P = s.now + k * cfg.P := by rw [add_mul, hnow]
  refine ⟨c + k, ?_, ?_, ?_, fun hearly => ?_, ?_⟩
  · rw [heq, ← hev, ← hslot]
    rfl
  · rw [heq]
    exact hnow'.le.trans (le_add_right _ _)
  · rw [heq]
    exact (Nat.add_le_add_left hle _).trans (Nat.add_le_add_right hnow'.ge _)
  · -- nothing is registered any more in the tick of the execution
    have hmem : (s.now, s.ring.mask (slot cfg.P s.now)) ∈ ((s.takeNow cfg).registerAll cfg calls).executed :=
      hex ▸ mem_append_right _ (mem_singleton_self _)
    exact absurd ((hearly _ hmem).trans_eq hnow') (Nat.lt_irrefl _)
  · have hmono := hw'.mono (show c + 2 ≤ c + k + 2 by omega)
    exact ⟨hmono.active, hmono.mask, hmono.registered⟩

lemma Inv.onTime (h : Inv cfg s c) : OnTime cfg s := by
  intro r t hm
  rcases h.within.registered r t hm with hd | ⟨j, hj, -, rfl, hb⟩
  · exact Or.inl hd
  · have hle : c * cfg.P ≤ j * cfg.P := mul_le_mul_right _ hj
    rw [slot_mul cfg.P_pos]
    exact Or.inr ⟨h.now_le.trans hle, h.event.le.trans hle, hb⟩

lemma Reachable.exists_inv (hl : ∀ r < cfg.numRouters, cfg.latency r ≤ 3) (h : Reachable cfg s) :
    ∃ c, Inv cfg s c := by
  induction h with
  | init => exact ⟨1, inv_init cfg⟩
  | @step s s' _ hs ih =>
    obtain ⟨c, hc⟩ := ih
    cases hs with
    | @advance t h1 h2 =>
      have h3 := hc.le_now
      refine ⟨c, hc.event, h2.trans hc.event.le, by dsimp only; omega, fun he => ?_,
        hc.within.active, hc.within.mask, hc.within.registered⟩
      rcases Nat.eq_or_lt_of_le h1 with rfl | hlt
      · exact hc.early he
      · dsimp only
        omega
    | register hr hd he => exact ⟨c, hc.register hr (hr.le_two hl) hd he⟩
    | globalWakeup he hcalls => exact hc.globalWakeup he hcalls hl

/-! ### Long pipelines -/

lemma Reachable.advance (h : Reachable cfg s) {t : ℕ} (h1 : s.now ≤ t) (h2 : t ≤ s.event) :
    Reachable cfg { s with now := t } := h.step (.advance h1 h2)

lemma Reachable.globalWakeup (h : Reachable cfg s) (he : s.event = s.now) : Reachable cfg (s.globalWakeup cfg []) :=
  h.step (.globalWakeup he fun _ hx => absurd hx not_mem_nil)

/-- A registration is lost if `globalWakeup` runs in its slot before its tick. -/
lemma late_of_taken {t : ℕ} (h : Reachable cfg s) (he : s.event = s.now) (hslot : slot cfg.P t = slot cfg.P s.now)
    (hreg : (r, t) ∈ s.registered) (ht : s.now < t) (hex : ∀ x ∈ s.executed, x.1 < t) :
    ∃ s, Reachable cfg s ∧ ¬ OnTime cfg s := by
  refine ⟨_, h.globalWakeup he, fun hon => ?_⟩
  rcases hon r t hreg with ⟨m, hm, -⟩ | ⟨-, -, hb⟩
  · rcases mem_append.mp (show (t, m) ∈ s.executed ++ [(s.now, _)] from hm) with hm | hm
    · exact absurd (hex _ hm) (Nat.lt_irrefl t)
    · rw [(Prod.mk.inj (mem_singleton.mp hm)).1] at ht
      exact absurd ht (Nat.lt_irrefl _)
  · change ((s.ring.takeMask cfg.P s.now).2.mask _).getLsbD r = true at hb
    rw [takeMask_mask, if_pos hslot] at hb
    simp at hb

/-- The state in the first cycle, before `globalWakeup`: router `r` registered `d` cycles ahead. -/
def first (cfg : RingConfig) (r d : ℕ) : RingSys := RingSys.register cfg { init cfg with now := cfg.P } r d

lemma first_reachable (hr : Wakes cfg r d) : Reachable cfg (first cfg r d) :=
  (Reachable.init.advance (zero_le _) (init_event cfg).ge).step
    (.register hr (dvd_refl _) fun _ hx => absurd hx not_mem_nil)

lemma clockEdge_first (cfg : RingConfig) (d : ℕ) : clockEdge cfg.P cfg.P d = (1 + d) * cfg.P := by
  rw [clockEdge_of_dvd (dvd_refl _), add_mul, one_mul]

lemma first_registered (cfg : RingConfig) (r d : ℕ) : (r, (1 + d) * cfg.P) ∈ (first cfg r d).registered :=
  mem_append_right _ (mem_singleton.mpr (by rw [← clockEdge_first cfg d]))

lemma slot_period (cfg : RingConfig) : slot cfg.P cfg.P = 1 := by
  have := slot_mul cfg.P_pos 1
  rwa [one_mul] at this

/-- `globalWakeup` finds nothing in the first cycle, and moves its event to the slot. -/
lemma afterFirst (cfg : RingConfig) (r : ℕ) (hd : 0 < d % 128) :
    ((first cfg r d).globalWakeup cfg []).event = (1 + d % 128) * cfg.P := by
  have hne : ¬ (1 + d) % 128 = 1 := by omega
  change ((first cfg r d).ring.takeMask cfg.P cfg.P).2.computeNextWakeupTick (slot cfg.P cfg.P) cfg.P cfg.P = _
  rw [slot_period, add_mul, one_mul]
  refine computeNextWakeupTick_single _ (by omega) hd (by omega) fun i hi => ?_
  rw [takeMask_active _ _ _ hi, slot_period, first, register_ring, registerWakeup_active _ _ _ _ hi, clockEdge_first,
    slot_mul cfg.P_pos, add_mod_mod]
  simp +contextual [init, active, hne]

/-- If the slot is not one of the next two, the event skips the third cycle, for which a registration
can still come in the second. -/
lemma late_of_far (hr : Wakes cfg r d) (hd : 3 ≤ d % 128) : ∃ s, Reachable cfg s ∧ ¬ OnTime cfg s := by
  have hP := cfg.P_pos
  have hev := afterFirst cfg r (show 0 < d % 128 by omega)
  set s := (first cfg r d).globalWakeup cfg []
  have hs : Reachable cfg s := (first_reachable hr).globalWakeup (init_event cfg)
  have hle : 4 * cfg.P ≤ s.event := hev ▸ mul_le_mul_right _ (by omega)
  have hu : Reachable cfg { s with now := 2 * cfg.P } := by
    refine hs.advance ?_ (by omega)
    change cfg.P ≤ _
    omega
  have hearly : Early { s with now := 2 * cfg.P } := by
    intro x hx
    rw [mem_singleton.mp (show x ∈ [(cfg.P, _)] from hx)]
    change cfg.P < 2 * cfg.P
    omega
  have hdvd : cfg.P ∣ 2 * cfg.P := dvd_mul_left _ _
  refine ⟨_, hu.step (.register (.nextCycle hr.lt) hdvd hearly), fun hon => ?_⟩
  have hreg : (r, 3 * cfg.P) ∈ (RingSys.register cfg { s with now := 2 * cfg.P } r 1).registered := by
    refine mem_append_right _ (mem_singleton.mpr ?_)
    rw [clockEdge_of_dvd hdvd, ← add_mul]
  rcases hon r _ hreg with ⟨m, hm, -⟩ | ⟨-, hle', -⟩
  · have := (Prod.mk.inj (mem_singleton.mp (show (3 * cfg.P, m) ∈ [(cfg.P, _)] from hm))).1
    omega
  · have : s.event ≤ 3 * cfg.P := hle'
    omega

lemma late_of_wrap (hr : Wakes cfg r d) (hd : 128 ≤ d) : ∃ s, Reachable cfg s ∧ ¬ OnTime cfg s := by
  have hP := cfg.P_pos
  have hlater (k : ℕ) (hk : k < 129) : k * cfg.P < (1 + d) * cfg.P := mul_lt_mul_of_pos_right (by omega) hP
  have h1 : cfg.P < (1 + d) * cfg.P := by
    have := hlater 1 (by omega)
    rwa [one_mul] at this
  have hslot : slot cfg.P ((1 + d) * cfg.P) = (1 + d % 128) % 128 := by rw [slot_mul hP, add_mod_mod]
  rcases Nat.eq_zero_or_pos (d % 128) with hz | hpos
  · -- the slot is that of the first cycle
    refine late_of_taken (first_reachable hr) (init_event cfg) ?_ (first_registered cfg r d) h1
      fun _ hx => absurd hx not_mem_nil
    rw [hslot, hz]
    exact (slot_period cfg).symm
  · have hev := afterFirst cfg r hpos
    set s := (first cfg r d).globalWakeup cfg []
    have hs : Reachable cfg s := (first_reachable hr).globalWakeup (init_event cfg)
    have hle : s.now ≤ s.event := by
      rw [hev, add_mul, one_mul]
      exact le_add_right cfg.P _
    refine late_of_taken (hs.advance hle le_rfl) rfl ?_ (first_registered cfg r d) ?_ fun x hx => ?_
    · change _ = slot cfg.P s.event
      rw [hslot, hev, slot_mul hP]
    · change s.event < _
      rw [hev]
      exact hlater _ (by omega)
    · rw [mem_singleton.mp (show x ∈ [(cfg.P, _)] from hx)]
      exact h1

/-- Every registered wakeup is dispatched on time in every run exactly when no router has more than
three pipeline stages. -/
theorem dispatched_on_time_iff (cfg : RingConfig) :
    (∀ s, Reachable cfg s → OnTime cfg s) ↔ ∀ r < cfg.numRouters, cfg.latency r ≤ 3 := by
  constructor
  · intro h r hr
    by_contra hl
    have hw : Wakes cfg r (cfg.latency r - 1) := .pipeline hr (by omega)
    obtain ⟨s, hs, hlate⟩ : ∃ s, Reachable cfg s ∧ ¬ OnTime cfg s := by
      rcases Nat.lt_or_ge (cfg.latency r - 1) 128 with hk | hk
      · exact late_of_far hw (by omega)
      · exact late_of_wrap hw hk
    exact hlate (h s hs)
  · intro hl s hs
    obtain ⟨c, hc⟩ := hs.exists_inv hl
    exact hc.onTime

/-- One router with four pipeline stages and a clock period of 500. -/
def fourStages : RingConfig := ⟨500, 1, fun _ => 4, by decide, by decide⟩

/-- Its state at tick 1000, after it registered for tick 2000 at 500 and `globalWakeup` moved its event
there, and after it registered for tick 1500. -/
def lateState : RingSys :=
  RingSys.register fourStages { (first fourStages 0 3).globalWakeup fourStages [] with now := 1000 } 0 1

/-- Nothing will run at 1500. -/
theorem fourStages_late : Reachable fourStages lateState ∧
    lateState.registered = [(0, 2000), (0, 1500)] ∧ ¬ lateState.Dispatched 0 1500 ∧ lateState.event = 2000 ∧
    ¬ OnTime fourStages lateState := by
  have hw : Wakes fourStages 0 3 := .pipeline (by decide) (by decide)
  have hs : Reachable fourStages lateState := by
    have hu := ((first_reachable hw).globalWakeup (init_event _)).advance (show 500 ≤ 1000 by decide)
      (show 1000 ≤ 2000 by decide)
    refine hu.step (.register (.nextCycle (by decide)) (by decide) fun x hx => ?_)
    rw [mem_singleton.mp (show x ∈ [(500, 0)] from hx)]
    decide
  have hreg : lateState.registered = [(0, 2000), (0, 1500)] := by decide
  have hev : lateState.event = 2000 := by decide
  have hdis : ¬ lateState.Dispatched 0 1500 := by
    rintro ⟨m, hm, -⟩
    have := (Prod.mk.inj (mem_singleton.mp (show (1500, m) ∈ [(500, _)] from hm))).1
    omega
  refine ⟨hs, hreg, hdis, hev, fun hon => ?_⟩
  rcases hon 0 1500 (by simp [hreg]) with h | ⟨-, h, -⟩
  · exact hdis h
  · omega

end RingSys

end Gem5.Garnet
