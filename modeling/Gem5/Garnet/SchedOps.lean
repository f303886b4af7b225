import Gem5.Garnet.Network

/-!
# What a wakeup can do to the schedule

A wakeup of a component schedules other components, and itself, in a few ways only. `SchedOps`
collects them: any sequence of calls of `scheduleEvent` and `scheduleEventAbsolute` with a delay of at
least a cycle or the latency of a link, of `Router::schedule_wakeup` by the router that is running, of
`registerWakeup`, of deferred schedules, and of `rand()`. What holds of the schedule after a wakeup
follows from this alone.
-/

namespace Gem5.Garnet

open Sim Ruby Lib Sched

/-- A number of cycles by which components schedule each other. -/
def Net.IsDelay (net : Net) (k : ℕ) : Prop :=
  1 ≤ k ∨ ∃ l < net.links.length, k = (net.link l).latency ∨ k = (net.link l).creditLatency

/-- What a wakeup of `self` can do to the schedule. -/
inductive SchedOps (net : Net) (now : ℕ) (self : ConsumerId) (σ : Sched) : Sched → Prop where
  | refl : SchedOps net now self σ σ
  | absolute {σ' : Sched} (c : ConsumerId) (o : Object) (k : ℕ) (hc : c ∈ net.consumerList) (hk : net.IsDelay k)
      (h : SchedOps net now self σ σ') :
      SchedOps net now self σ (σ'.scheduleEventAbsolute net now c (clockEdge (net.clockPeriod o) now k))
  | event {σ' : Sched} (c : ConsumerId) (k : ℕ) (hc : c ∈ net.consumerList) (hk : net.IsDelay k)
      (h : SchedOps net now self σ σ') : SchedOps net now self σ (σ'.scheduleEvent net now c k)
  | wakeup {σ' : Sched} (r k : ℕ) (hr : self = .router r) (hk : 1 ≤ k) (h : SchedOps net now self σ σ') :
      SchedOps net now self σ (σ'.scheduleWakeup net now r k)
  | register {σ' : Sched} (r t : ℕ) (h : SchedOps net now self σ σ') :
      SchedOps net now self σ (σ'.registerWakeup net r t)
  | defer {σ' : Sched} (c : ConsumerId) (t : ℕ) (hp : σ'.parallelActive = true) (h : SchedOps net now self σ σ') :
      SchedOps net now self σ (σ'.deferOrSchedule net now c t)
  | draw {σ' : Sched} (h : SchedOps net now self σ σ') :
      SchedOps net now self σ { σ' with draws := σ'.draws + 1 }

variable {net : Net} {now : ℕ} {self : ConsumerId} {σ σ' σ'' : Sched}

lemma isDelay_one (net : Net) : net.IsDelay 1 := Or.inl le_rfl

namespace SchedOps

lemma trans (h : SchedOps net now self σ σ') (h' : SchedOps net now self σ' σ'') : SchedOps net now self σ σ'' := by
  induction h' with
  | refl => exact h
  | absolute c o k hc hk _ ih => exact ih.absolute c o k hc hk
  | event c k hc hk _ ih => exact ih.event c k hc hk
  | wakeup r k hr hk _ ih => exact ih.wakeup r k hr hk
  | register r t _ ih => exact ih.register r t
  | defer c t hp _ ih => exact ih.defer c t hp
  | draw _ ih => exact ih.draw

lemma deferOrSchedule (h : SchedOps net now self σ σ') {c : ConsumerId} (o : Object) {k : ℕ}
    (hc : c ∈ net.consumerList) (hk : net.IsDelay k) :
    SchedOps net now self σ (σ'.deferOrSchedule net now c (clockEdge (net.clockPeriod o) now k)) := by
  by_cases hp : σ'.parallelActive = true
  · exact h.defer c _ hp
  · have : σ'.deferOrSchedule net now c (clockEdge (net.clockPeriod o) now k) =
        σ'.scheduleEventAbsolute net now c (clockEdge (net.clockPeriod o) now k) := by
      rw [Sched.deferOrSchedule, if_neg hp]
    rw [this]
    exact h.absolute c o k hc hk

end SchedOps

/-! ### Single calls -/

namespace Sched

variable (net now) (σ : Sched)

@[simp] lemma modify_self (c : ConsumerId) (f : Consumer → Consumer) :
    (σ.modify c f).consumers c = f (σ.consumers c) := Function.update_self ..

lemma modify_of_ne {c c' : ConsumerId} (h : c' ≠ c) (f : Consumer → Consumer) :
    (σ.modify c f).consumers c' = σ.consumers c' := Function.update_of_ne h ..

lemma scheduleWakeup_consumers (r k : ℕ) : (σ.scheduleWakeup net now r k).consumers =
    (σ.modify (.router r) (·.recordEvent (net.period (.router r)) now k)).consumers := rfl

lemma deferOrSchedule_of_seq (h : σ.parallelActive = false) (c : ConsumerId) (t : ℕ) :
    σ.deferOrSchedule net now c t = σ.scheduleEventAbsolute net now c t := by
  rw [deferOrSchedule, if_neg (by simp [h])]

lemma deferOrSchedule_of_par (h : σ.parallelActive = true) (c : ConsumerId) (t : ℕ) :
    (σ.deferOrSchedule net now c t).consumers = σ.consumers := by
  rw [deferOrSchedule, if_pos h]

@[simp] lemma deferOrSchedule_parallelActive (c : ConsumerId) (t : ℕ) :
    (σ.deferOrSchedule net now c t).parallelActive = σ.parallelActive := by
  unfold deferOrSchedule
  split_ifs <;> rfl

def ticks (c : ConsumerId) : List ℕ := (σ.consumers c).wakeupTicks

lemma ticks_scheduleEventAbsolute (c : ConsumerId) (t : ℕ) :
    (σ.scheduleEventAbsolute net now c t).ticks c = insertSorted (σ.ticks c) (ceilTo (net.period c) t) := by
  simp [ticks, scheduleEventAbsolute]

lemma ticks_scheduleEvent (c : ConsumerId) (k : ℕ) :
    (σ.scheduleEvent net now c k).ticks c = insertSorted (σ.ticks c) (clockEdge (net.period c) now k) := by
  simp [ticks, scheduleEvent]

lemma ticks_scheduleWakeup (r k : ℕ) : (σ.scheduleWakeup net now r k).ticks (.router r) =
    insertSorted (σ.ticks (.router r)) (clockEdge (net.period (.router r)) now k) := by
  simp [ticks, scheduleWakeup_consumers]

lemma ticks_modify_of_ne {c c' : ConsumerId} (h : c' ≠ c) (f : Consumer → Consumer) :
    (σ.modify c f).ticks c' = σ.ticks c' := by
  rw [ticks, modify_of_ne σ h, ticks]

end Sched

/-! ### What follows -/

namespace SchedOps

section

variable (h : SchedOps net now self σ σ')
include h

lemma ticks_iff : (∀ c t, t ∈ σ.ticks c → t ∈ σ'.ticks c) ∧ ∀ c t, t ∈ σ'.ticks c → t ∈ σ.ticks c ∨
        (c ∈ net.consumerList ∧ ∃ o k, net.IsDelay k ∧ t = ceilTo (net.period c) (clockEdge (net.clockPeriod o) now k)) ∨
        c = self ∧ ∃ k, 1 ≤ k ∧ t = clockEdge (net.period c) now k := by
  induction h with
  | refl => exact ⟨fun c t h => h, fun c t h => Or.inl h⟩
  | @absolute σ' c o k hc hk _ ih =>
    refine ⟨fun c' t ht => ?_, fun c' t ht => ?_⟩
    · by_cases hcc : c' = c
      · subst hcc
        rw [ticks_scheduleEventAbsolute]
        exact mem_insertSorted.mpr (Or.inr (ih.1 _ t ht))
      · rw [scheduleEventAbsolute, ticks_modify_of_ne _ hcc]
        exact ih.1 c' t ht
    · by_cases hcc : c' = c
      · subst hcc
        rw [ticks_scheduleEventAbsolute] at ht
        rcases mem_insertSorted.mp ht with rfl | ht
        · exact Or.inr (Or.inl ⟨hc, o, k, hk, rfl⟩)
        · exact ih.2 _ t ht
      · rw [scheduleEventAbsolute, ticks_modify_of_ne _ hcc] at ht
        exact ih.2 c' t ht
  | @event σ' c k hc hk _ ih =>
    refine ⟨fun c' t ht => ?_, fun c' t ht => ?_⟩
    · by_cases hcc : c' = c
      · subst hcc
        rw [ticks_scheduleEvent]
        exact mem_insertSorted.mpr (Or.inr (ih.1 _ t ht))
      · rw [scheduleEvent, ticks_modify_of_ne _ hcc]
        exact ih.1 c' t ht
    · by_cases hcc : c' = c
      · subst hcc
        rw [ticks_scheduleEvent] at ht
        rcases mem_insertSorted.mp ht with rfl | ht
        · refine Or.inr (Or.inl ⟨hc, net.object c', k, hk, ?_⟩)
          exact (ceilTo_of_dvd (net.period_pos c') (dvd_clockEdge _ now k)).symm
        · exact ih.2 _ t ht
      · rw [scheduleEvent, ticks_modify_of_ne _ hcc] at ht
        exact ih.2 c' t ht
  | @wakeup σ' r k hr hk _ ih =>
    have hmod : ∀ c', c' ≠ .router r → (σ'.scheduleWakeup net now r k).ticks c' = σ'.ticks c' := fun c' hcc =>
      ticks_modify_of_ne σ' hcc _
    refine ⟨fun c' t ht => ?_, fun c' t ht => ?_⟩
    · by_cases hcc : c' = .router r
      · subst hcc
        rw [ticks_scheduleWakeup]
        exact mem_insertSorted.mpr (Or.inr (ih.1 _ t ht))
      · rw [hmod c' hcc]
        exact ih.1 c' t ht
    · by_cases hcc : c' = .router r
      · subst hcc
        rw [ticks_scheduleWakeup] at ht
        rcases mem_insertSorted.mp ht with rfl | ht
        · exact Or.inr (Or.inr ⟨hr.symm, k, hk, rfl⟩)
        · exact ih.2 _ t ht
      · rw [hmod c' hcc] at ht
        exact ih.2 c' t ht
  | register r t _ ih => exact ih
  | @defer σ' c t hp _ ih =>
    have he : ∀ c', (σ'.deferOrSchedule net now c t).ticks c' = σ'.ticks c' := fun c' => by
      rw [ticks, deferOrSchedule_of_par net now σ' hp, ticks]
    simp only [he]
    exact ih
  | draw _ ih => exact ih

lemma ticks_subset {c : ConsumerId} {t : ℕ} (ht : t ∈ σ.ticks c) : t ∈ σ'.ticks c := h.ticks_iff.1 c t ht

lemma parallelActive : σ'.parallelActive = σ.parallelActive := by
  induction h with
  | refl => rfl
  | absolute _ _ _ _ _ _ ih => exact ih
  | event _ _ _ _ _ ih => exact ih
  | wakeup _ _ _ _ _ ih => exact ih
  | register _ _ _ ih => exact ih
  | defer _ _ _ _ ih => rw [deferOrSchedule_parallelActive]; exact ih
  | draw _ ih => exact ih

/-- The consumers stay well formed, and armed, except that the one that is running may have asked
for wakeups that its event does not know of yet. -/
lemma ok_armed (hok : ∀ c, (σ.consumers c).Ok (net.period c) now) (harm : ∀ c, c ≠ self → (σ.consumers c).Armed) :
    (∀ c, (σ'.consumers c).Ok (net.period c) now) ∧ ∀ c, c ≠ self → (σ'.consumers c).Armed := by
  have hset : ∀ (σ' : Sched) (c : ConsumerId) (f : Consumer → Consumer),
      ((∀ c, (σ'.consumers c).Ok (net.period c) now) ∧ ∀ c, c ≠ self → (σ'.consumers c).Armed) →
      ((f (σ'.consumers c)).Ok (net.period c) now) → (c ≠ self → (f (σ'.consumers c)).Armed) →
      (∀ c', ((σ'.modify c f).consumers c').Ok (net.period c') now) ∧
        ∀ c', c' ≠ self → ((σ'.modify c f).consumers c').Armed := by
    intro σ' c f ih h1 h2
    refine ⟨fun c' => ?_, fun c' hne => ?_⟩
    · by_cases hcc : c' = c
      · subst hcc; rw [modify_self]; exact h1
      · rw [modify_of_ne _ hcc]; exact ih.1 c'
    · by_cases hcc : c' = c
      · subst hcc; rw [modify_self]; exact h2 hne
      · rw [modify_of_ne _ hcc]; exact ih.2 c' hne
  induction h with
  | refl => exact ⟨hok, harm⟩
  | absolute c o k hc hk _ ih =>
    have hle : now ≤ clockEdge (net.clockPeriod o) now k := le_clockEdge (net.clockPeriod_pos o) now k
    have hs := Consumer.scheduleEventAbsolute_spec (net.period_pos c) (ih.1 c) hle
    exact hset _ c _ ih hs.1 fun _ => hs.2
  | event c k hc hk _ ih =>
    have hs := Consumer.scheduleEvent_spec (net.period_pos c) (ih.1 c) k
    exact hset _ c _ ih hs.1 fun _ => hs.2
  | wakeup r k hr hk _ ih =>
    exact hset _ (.router r) _ ih (Consumer.recordEvent_ok (net.period_pos _) (ih.1 _) k) fun hne => absurd hr.symm hne
  | register r t _ ih => exact ih
  | defer c t hp _ ih =>
    rw [deferOrSchedule_of_par net now _ hp]
    exact ih
  | draw _ ih => exact ih

end

end SchedOps

end Gem5.Garnet
