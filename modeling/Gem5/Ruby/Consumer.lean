import Gem5.Sim.Clock

/-!
# Consumers

A `Consumer` (`mem/ruby/common/Consumer.{hh,cc}`) is an object that is woken at clock edges.
It keeps the edges at which it is to be woken in a sorted vector, `m_wakeup_ticks`, and one
event, `m_wakeup_event`, in the event queue. This module models the class: the sorted-vector
helpers, the calls that add and remove ticks, `scheduleNextWakeup` and the part of
`processCurrentEvent` that comes before the call of `wakeup()`.

The event is modelled by the tick it is scheduled at, if it is. `EventQueue::serviceOne` marks
an event as not scheduled before it calls `process()`, which is why `takeCurrent` starts from a
consumer without an event.
-/

namespace Gem5.Ruby

open Sim List

/-! ### Sorted vectors of ticks -/

/-- `insertSorted`: put `t` before the first element that is not less, unless it is there. -/
def insertSorted : List ℕ → ℕ → List ℕ
  | [], t => [t]
  | x :: v, t => if x < t then x :: insertSorted v t else if x = t then x :: v else t :: x :: v

/-- `containsSorted`: the first element that is not less than `t` is `t`. -/
def containsSorted (v : List ℕ) (t : ℕ) : Bool := v.find? (fun x => decide (t ≤ x)) == some t

/-- `eraseSorted`: remove the first element that is not less than `t`, if it is `t`. -/
def eraseSorted : List ℕ → ℕ → List ℕ
  | [], _ => []
  | x :: v, t => if x < t then x :: eraseSorted v t else if x = t then v else x :: v

abbrev Ascending (v : List ℕ) : Prop := v.Pairwise (· < ·)

@[simp] lemma mem_insertSorted {v : List ℕ} {t x : ℕ} : x ∈ insertSorted v t ↔ x = t ∨ x ∈ v := by
  induction v with
  | nil => simp [insertSorted]
  | cons y v ih =>
    unfold insertSorted
    split_ifs with h h'
    · simp only [mem_cons, ih]; tauto
    · subst h'; simp
    · simp

section

variable {v : List ℕ} (h : Ascending v)
include h

lemma Ascending.insertSorted (t : ℕ) : Ascending (insertSorted v t) := by
  induction v with
  | nil => simp [Ruby.insertSorted]
  | cons y v ih =>
    have hy := pairwise_cons.mp h
    unfold Ruby.insertSorted
    split_ifs with h1 h2
    · refine pairwise_cons.mpr ⟨fun x hx => ?_, ih hy.2⟩
      rcases mem_insertSorted.mp hx with rfl | hx
      · exact h1
      · exact hy.1 x hx
    · exact h
    · refine pairwise_cons.mpr ⟨fun x hx => ?_, h⟩
      rcases mem_cons.mp hx with rfl | hx
      · omega
      · have := hy.1 x hx; omega

lemma Ascending.mem_eraseSorted {t x : ℕ} : x ∈ eraseSorted v t ↔ x ∈ v ∧ x ≠ t := by
  induction v with
  | nil => simp [eraseSorted]
  | cons y v ih =>
    have hy := pairwise_cons.mp h
    have hlt : x ∈ v → y < x := hy.1 x
    unfold eraseSorted
    split_ifs with h1 h2
    · simp only [mem_cons, ih hy.2]
      constructor
      · rintro (rfl | ⟨hx, hne⟩)
        · exact ⟨Or.inl rfl, by omega⟩
        · exact ⟨Or.inr hx, hne⟩
      · rintro ⟨rfl | hx, hne⟩
        · exact Or.inl rfl
        · exact Or.inr ⟨hx, hne⟩
    · subst h2
      simp only [mem_cons]
      constructor
      · intro hx; have := hlt hx; exact ⟨Or.inr hx, by omega⟩
      · rintro ⟨rfl | hx, hne⟩
        · exact absurd rfl hne
        · exact hx
    · simp only [mem_cons]
      constructor
      · rintro (rfl | hx)
        · exact ⟨Or.inl rfl, h2⟩
        · have := hlt hx; exact ⟨Or.inr hx, by omega⟩
      · rintro ⟨hx, -⟩; exact hx

lemma Ascending.eraseSorted (t : ℕ) : Ascending (eraseSorted v t) := by
  induction v with
  | nil => simp [Ruby.eraseSorted]
  | cons y v ih =>
    have hy := pairwise_cons.mp h
    unfold Ruby.eraseSorted
    split_ifs with h1 h2
    · refine pairwise_cons.mpr ⟨fun x hx => ?_, ih hy.2⟩
      exact hy.1 x ((Ascending.mem_eraseSorted hy.2).mp hx).1
    · exact hy.2
    · exact h

lemma Ascending.containsSorted_iff {t : ℕ} : containsSorted v t = true ↔ t ∈ v := by
  induction v with
  | nil => simp [containsSorted]
  | cons y v ih =>
    have hy := pairwise_cons.mp h
    by_cases h1 : t ≤ y
    · simp only [containsSorted, h1, decide_true, find?_cons_of_pos, beq_iff_eq, Option.some.injEq, mem_cons]
      constructor
      · rintro rfl; exact Or.inl rfl
      · rintro (rfl | hx)
        · rfl
        · have := hy.1 t hx; omega
    · have := ih hy.2
      unfold containsSorted at this ⊢
      rw [find?_cons_of_neg (by simpa using h1), this, mem_cons]
      constructor
      · exact Or.inr
      · rintro (rfl | hx)
        · exact absurd le_rfl h1
        · exact hx

end

/-! ### The class -/

/-- A `Consumer`: its pending ticks and the tick its event is scheduled at. -/
@[ext]
structure Consumer where
  /-- `m_wakeup_ticks`. -/
  wakeupTicks : List ℕ := []
  /-- `m_wakeup_event`: `when()`, if it is scheduled. -/
  wakeupEvent : Option ℕ := none
  deriving DecidableEq, Repr, Inhabited

namespace Consumer

/-- `alreadyScheduled(time)`. -/
def alreadyScheduled (t : ℕ) (c : Consumer) : Bool := containsSorted c.wakeupTicks t

/-- `scheduleNextWakeup()`: arm the event for the first pending tick that is not in the past,
unless it is armed for an earlier one. -/
def scheduleNextWakeup (P now : ℕ) (c : Consumer) : Consumer :=
  match c.wakeupTicks.find? (fun x => decide (clockEdge P now ≤ x)) with
  | none => c
  | some t =>
    match c.wakeupEvent with
    | some w => if t < w then { c with wakeupEvent := some t } else c
    | none => { c with wakeupEvent := some t }

/-- `recordEvent(timeDelta)`: remember the tick, without touching the event. -/
def recordEvent (P now cycles : ℕ) (c : Consumer) : Consumer :=
  { c with wakeupTicks := insertSorted c.wakeupTicks (clockEdge P now cycles) }

/-- `scheduleEvent(timeDelta)`. -/
def scheduleEvent (P now cycles : ℕ) (c : Consumer) : Consumer :=
  scheduleNextWakeup P now { c with wakeupTicks := insertSorted c.wakeupTicks (clockEdge P now cycles) }

/-- `scheduleEventAbsolute(evt_time)`. -/
def scheduleEventAbsolute (P now t : ℕ) (c : Consumer) : Consumer :=
  scheduleNextWakeup P now { c with wakeupTicks := insertSorted c.wakeupTicks (ceilTo P t) }

/-- `descheduleTick(tick)`. -/
def descheduleTick (t : ℕ) (c : Consumer) : Consumer :=
  { c with wakeupTicks := Ruby.eraseSorted c.wakeupTicks t }

/-- `tryConsumeTick(tick)`: remove the tick if it is pending, and say whether it was. -/
def tryConsumeTick (t : ℕ) (c : Consumer) : Bool × Consumer :=
  match c.wakeupTicks with
  | [] => (false, c)
  | x :: v =>
    if x = t then (true, { c with wakeupTicks := v })
    else if containsSorted (x :: v) t then (true, { c with wakeupTicks := Ruby.eraseSorted (x :: v) t })
    else (false, c)

/-- The beginning of `processCurrentEvent()`, up to the call of `wakeup()`: remove the current
tick if it is pending, and say whether it was. -/
def takeCurrent (P now : ℕ) (c : Consumer) : Bool × Consumer :=
  let c := { c with wakeupEvent := none }
  let t := clockEdge P now
  match c.wakeupTicks with
  | [] => (false, c)
  | x :: v =>
    if x = t then (true, { c with wakeupTicks := v })
    else if containsSorted (x :: v) t then (true, { c with wakeupTicks := Ruby.eraseSorted (x :: v) t })
    else (false, c)

/-! ### What the calls do to the ticks -/

@[simp] lemma scheduleNextWakeup_ticks (P now : ℕ) (c : Consumer) :
    (c.scheduleNextWakeup P now).wakeupTicks = c.wakeupTicks := by
  unfold scheduleNextWakeup
  split
  · rfl
  · split
    · split_ifs <;> rfl
    · rfl

@[simp] lemma recordEvent_ticks (P now k : ℕ) (c : Consumer) :
    (c.recordEvent P now k).wakeupTicks = insertSorted c.wakeupTicks (clockEdge P now k) := rfl

@[simp] lemma scheduleEvent_ticks (P now k : ℕ) (c : Consumer) :
    (c.scheduleEvent P now k).wakeupTicks = insertSorted c.wakeupTicks (clockEdge P now k) := by
  simp [scheduleEvent]

@[simp] lemma scheduleEventAbsolute_ticks (P now t : ℕ) (c : Consumer) :
    (c.scheduleEventAbsolute P now t).wakeupTicks = insertSorted c.wakeupTicks (ceilTo P t) := by
  simp [scheduleEventAbsolute]

/-- `tryConsumeTick` on a sorted vector: a membership test and a removal. -/
lemma tryConsumeTick_spec {c : Consumer} (h : Ascending c.wakeupTicks) (t : ℕ) :
    (c.tryConsumeTick t).1 = decide (t ∈ c.wakeupTicks) ∧ (c.tryConsumeTick t).2.wakeupEvent = c.wakeupEvent ∧
      Ascending (c.tryConsumeTick t).2.wakeupTicks ∧
      ∀ x, x ∈ (c.tryConsumeTick t).2.wakeupTicks ↔ x ∈ c.wakeupTicks ∧ x ≠ t := by
  obtain ⟨v, w⟩ := c
  cases v with
  | nil => simp [tryConsumeTick]
  | cons y v =>
    simp only at h
    have hy := pairwise_cons.mp h
    simp only [tryConsumeTick]
    split_ifs with h1 h2
    · subst h1
      refine ⟨by simp, rfl, hy.2, fun x => ?_⟩
      simp only [mem_cons]
      constructor
      · intro hx; have := hy.1 x hx; exact ⟨Or.inr hx, by omega⟩
      · rintro ⟨rfl | hx, hne⟩
        · exact absurd rfl hne
        · exact hx
    · exact ⟨by simpa using h.containsSorted_iff.mp h2, rfl, h.eraseSorted t, fun x => h.mem_eraseSorted⟩
    · have hn : t ∉ y :: v := fun hm => h2 (h.containsSorted_iff.mpr hm)
      refine ⟨by simpa using hn, rfl, h, fun x => ⟨fun hx => ⟨hx, ?_⟩, fun hx => hx.1⟩⟩
      rintro rfl
      exact hn hx

/-- A tick that is not pending: `tryConsumeTick` says so and changes nothing. -/
lemma tryConsumeTick_of_not_mem {c : Consumer} (h : Ascending c.wakeupTicks) {t : ℕ}
    (ht : t ∉ c.wakeupTicks) : c.tryConsumeTick t = (false, c) := by
  obtain ⟨v, w⟩ := c
  cases v with
  | nil => rfl
  | cons y v =>
    simp only at h ht
    have hc : ¬ containsSorted (y :: v) t = true := fun hc => ht (h.containsSorted_iff.mp hc)
    have hy : y ≠ t := by rintro rfl; simp at ht
    simp only [tryConsumeTick, if_neg hy, if_neg hc]

/-- The beginning of `processCurrentEvent` is `tryConsumeTick` of the current edge, without the
event. -/
lemma takeCurrent_eq (P now : ℕ) (c : Consumer) :
    c.takeCurrent P now = ({ c with wakeupEvent := none } : Consumer).tryConsumeTick (clockEdge P now) := rfl

/-! ### The event is armed -/

/-- What holds of a consumer's ticks at tick `now`, whoever is running: ascending clock edges,
none of them in the past, and an event, if scheduled, at an edge that is not in the past. -/
structure Ok (P now : ℕ) (c : Consumer) : Prop where
  /-- Strictly ascending. -/
  asc : Ascending c.wakeupTicks
  /-- Clock edges. -/
  edge : ∀ t ∈ c.wakeupTicks, P ∣ t
  /-- Not in the past. -/
  le : ∀ t ∈ c.wakeupTicks, now ≤ t
  /-- The event is at an edge. -/
  eventEdge : ∀ w, c.wakeupEvent = some w → P ∣ w
  /-- The event is not in the past. -/
  eventLe : ∀ w, c.wakeupEvent = some w → now ≤ w

/-- The event is scheduled, no later than any pending tick, whenever there is one. -/
def Armed (c : Consumer) : Prop :=
  c.wakeupTicks ≠ [] → ∃ w, c.wakeupEvent = some w ∧ ∀ t ∈ c.wakeupTicks, w ≤ t

variable {P now : ℕ} {c : Consumer}

lemma ok_empty (P now : ℕ) : Ok P now {} := by
  constructor <;> simp

lemma armed_empty : Armed {} := fun h => absurd rfl h

lemma Ok.insert (h : c.Ok P now) {e : ℕ} (he : P ∣ e) (hle : now ≤ e) :
    Ok P now { c with wakeupTicks := insertSorted c.wakeupTicks e } where
  asc := h.asc.insertSorted e
  edge t ht := by
    rcases mem_insertSorted.mp ht with rfl | ht
    · exact he
    · exact h.edge t ht
  le t ht := by
    rcases mem_insertSorted.mp ht with rfl | ht
    · exact hle
    · exact h.le t ht
  eventEdge := h.eventEdge
  eventLe := h.eventLe

section

variable (hP : 0 < P) (h : c.Ok P now)
include hP h

/-- Nothing pending is in the past, so `scheduleNextWakeup` looks at the first tick. -/
lemma Ok.find_head : c.wakeupTicks.find? (fun x => decide (clockEdge P now ≤ x)) = c.wakeupTicks.head? := by
  cases hv : c.wakeupTicks with
  | nil => rfl
  | cons y v =>
    have hy : y ∈ c.wakeupTicks := by rw [hv]; exact mem_cons_self ..
    have : clockEdge P now ≤ y := ceilTo_le hP (h.edge y hy) (h.le y hy)
    rw [find?_cons_of_pos (by simpa using this), head?_cons]

/-- `scheduleNextWakeup` arms the event, whatever it was before. -/
lemma scheduleNextWakeup_spec : (c.scheduleNextWakeup P now).Ok P now ∧ (c.scheduleNextWakeup P now).Armed := by
  cases hv : c.wakeupTicks with
  | nil =>
    have e : c.scheduleNextWakeup P now = c := by
      unfold scheduleNextWakeup; rw [h.find_head hP, hv]; rfl
    rw [e]
    exact ⟨h, fun hne => absurd hv hne⟩
  | cons y v =>
    have hasc := h.asc
    rw [hv] at hasc
    have hy : ∀ t ∈ c.wakeupTicks, y ≤ t := by
      intro t ht
      rw [hv] at ht
      rcases mem_cons.mp ht with rfl | ht
      · exact le_rfl
      · exact ((pairwise_cons.mp hasc).1 t ht).le
    have hmem : y ∈ c.wakeupTicks := by rw [hv]; exact mem_cons_self ..
    have hset : Ok P now { c with wakeupEvent := some y } ∧ Armed { c with wakeupEvent := some y } := by
      refine ⟨⟨h.asc, h.edge, h.le, ?_, ?_⟩, fun _ => ⟨y, rfl, hy⟩⟩
      · rintro w ⟨rfl⟩; exact h.edge y hmem
      · rintro w ⟨rfl⟩; exact h.le y hmem
    rw [hv] at hset
    unfold scheduleNextWakeup
    rw [h.find_head hP, hv, head?_cons]
    dsimp only
    cases hw : c.wakeupEvent with
    | none => exact hset
    | some w =>
      dsimp only
      split_ifs with hlt
      · exact hset
      · refine ⟨h, fun _ => ⟨w, hw, fun t ht => ?_⟩⟩
        have := hy t ht
        omega

lemma scheduleEvent_spec (k : ℕ) : (c.scheduleEvent P now k).Ok P now ∧ (c.scheduleEvent P now k).Armed :=
  scheduleNextWakeup_spec hP (h.insert (dvd_clockEdge P now k) (le_clockEdge hP now k))

lemma scheduleEventAbsolute_spec {t : ℕ} (ht : now ≤ t) :
    (c.scheduleEventAbsolute P now t).Ok P now ∧ (c.scheduleEventAbsolute P now t).Armed :=
  scheduleNextWakeup_spec hP (h.insert (dvd_ceilTo P t) (ht.trans (le_ceilTo hP t)))

lemma recordEvent_ok (k : ℕ) : (c.recordEvent P now k).Ok P now :=
  h.insert (dvd_clockEdge P now k) (le_clockEdge hP now k)

end

lemma Armed.remove {c c' : Consumer} (h : c.Armed) (he : c'.wakeupEvent = c.wakeupEvent)
    (ht : ∀ x ∈ c'.wakeupTicks, x ∈ c.wakeupTicks) : c'.Armed := by
  intro hne
  obtain ⟨x, hx⟩ := exists_mem_of_ne_nil _ hne
  obtain ⟨w, hw, hle⟩ := h (ne_nil_of_mem (ht x hx))
  exact ⟨w, he.trans hw, fun t htt => hle t (ht t htt)⟩

lemma Ok.remove {c c' : Consumer} (h : c.Ok P now)
    (he : ∀ w, c'.wakeupEvent = some w → c.wakeupEvent = some w) (hasc : Ascending c'.wakeupTicks)
    (ht : ∀ x ∈ c'.wakeupTicks, x ∈ c.wakeupTicks) : c'.Ok P now :=
  ⟨hasc, fun t h' => h.edge t (ht t h'), fun t h' => h.le t (ht t h'),
    fun w hw => h.eventEdge w (he w hw), fun w hw => h.eventLe w (he w hw)⟩

end Consumer

end Gem5.Ruby
