import Gem5.Sim.EventQueueRun

/-!
# The checker of the event queue

`EventQueue::debugVerify` of `sim/eventq.cc` walks through all bins and looks whether time goes
backwards, whether a priority is inverted and whether an event comes twice. The walk starts with time
0 and priority 0, so the first event of a legal queue fails it when it is at tick 0 with a negative
priority; that is the only way a legal queue can fail (**`debugVerify_iff`**).

The walk goes through the events of the bins in order, so it is a check of that list (`checkAll`).
-/

namespace Gem5.Sim

open Lib List

/-- The variables of `debugVerify`. -/
structure Verifier where
  time : ℕ := 0
  priority : ℤ := 0
  /-- The events with an entry in `map`. -/
  seen : List ℕ := []
  deriving DecidableEq, Repr

namespace Verifier

variable (ev : ℕ → Stamp)

/-- The checks of one event; `none` if they return `false`. -/
def check (v : Verifier) (event : ℕ) : Option Verifier :=
  if (ev event).when < v.time then none
  else if (ev event).when = v.time ∧ (ev event).priority < v.priority then none
  else if event ∈ v.seen then none
  else some { time := (ev event).when, priority := (ev event).priority, seen := event :: v.seen }

def verifyInBin (s : EventLists) : ℕ → Option ℕ → Verifier → Except EventqFault (Option Verifier)
  | _, none, v => .ok (some v)
  | 0, some _, _ => .error .outOfFuel
  | fuel + 1, some event, v =>
    match v.check ev event with
    | none => .ok none
    | some v => verifyInBin s fuel (s.nextInBin event) v

/-- The outer loop, where the inner one is given `steps`. -/
def verifyBins (s : EventLists) (steps : ℕ) : ℕ → Option ℕ → Verifier → Except EventqFault Bool
  | _, none, _ => .ok true
  | 0, some _, _ => .error .outOfFuel
  | fuel + 1, some top, v => do
    match ← verifyInBin ev s steps (some top) v with
    | none => pure false
    | some v => do
      let nextBin ← s.followBin top
      verifyBins s steps fuel nextBin v

/-- The time and the priority, as events are compared. -/
def key (v : Verifier) : ℕ ×ₗ ℤ := (Stamp.mk v.time v.priority).key

/-- The events of a list are checked one after the other. -/
def checkAll (v : Verifier) : List ℕ → Option Verifier
  | [] => some v
  | event :: l => (v.check ev event).bind fun v => v.checkAll l

end Verifier

/-- `debugVerify()`. -/
def EventQueue.debugVerify (fuel : ℕ) (q : EventQueue) : Except EventqFault Bool :=
  Verifier.verifyBins q.stamp q.lists fuel fuel q.lists.head {}

namespace Verifier

variable {ev : ℕ → Stamp} {s : EventLists} {v v' : Verifier} {event : ℕ} {l : List ℕ}

lemma check_eq_some_iff : v.check ev event = some v' ↔ v.key ≤ (ev event).key ∧ event ∉ v.seen ∧
    v' = { time := (ev event).when, priority := (ev event).priority, seen := event :: v.seen } := by
  rw [check, key, ← Stamp.le_iff]
  simp only [Stamp.le, Bool.or_eq_true, Bool.and_eq_true, decide_eq_true_eq]
  split_ifs with htime hprio hseen
  · simp only [false_iff]
    omega
  · simp only [false_iff]
    omega
  · simp [hseen]
  · simp only [Option.some.injEq, hseen, not_false_eq_true, true_and]
    rw [and_iff_right (by omega)]
    exact eq_comm

lemma checkAll_append (l' : List ℕ) : v.checkAll ev (l ++ l') = (v.checkAll ev l).bind fun v => v.checkAll ev l' := by
  induction l generalizing v with
  | nil => rfl
  | cons event l ih =>
    simp only [cons_append, checkAll]
    cases v.check ev event with
    | none => rfl
    | some v => exact ih

lemma verifyInBin_eq {p : Option ℕ} (h : IsList s.nextInBin p l) {fuel : ℕ} (hfuel : l.length ≤ fuel) :
    verifyInBin ev s fuel p v = .ok (v.checkAll ev l) := by
  induction l generalizing p v fuel with
  | nil =>
    rw [h]
    cases fuel <;> rfl
  | cons event l ih =>
    obtain ⟨rfl, hrest⟩ := h
    rw [length_cons] at hfuel
    obtain ⟨fuel, rfl⟩ : ∃ k, fuel = k + 1 := ⟨fuel - 1, by omega⟩
    rw [verifyInBin, checkAll]
    cases v.check ev event with
    | none => rfl
    | some v => exact ih hrest (by omega)

lemma verifyBins_eq {pre post : List (Bin ℕ)} (h : s.Rep (pre ++ post)) {steps fuel : ℕ}
    (hsteps : (Bin.allItems post).length ≤ steps) (hfuel : post.length ≤ fuel) :
    verifyBins ev s steps fuel (post.map Bin.top).head? v = .ok (v.checkAll ev (Bin.allItems post)).isSome := by
  induction post generalizing pre v fuel with
  | nil => cases fuel <;> rfl
  | cons b post ih =>
    rw [length_cons] at hfuel
    obtain ⟨fuel, rfl⟩ : ∃ k, fuel = k + 1 := ⟨fuel - 1, by omega⟩
    rw [Bin.allItems_cons, length_append] at hsteps
    have hmem : b ∈ pre ++ b :: post := mem_append_right _ (mem_cons_self ..)
    have hlist : IsList s.nextInBin (some b.top) b.items := ⟨rfl, h.inBin b hmem⟩
    rw [map_cons, head?_cons, verifyBins, verifyInBin_eq hlist (by omega), Bin.allItems_cons, checkAll_append]
    cases v.checkAll ev b.items with
    | none => rfl
    | some v =>
      show (s.followBin b.top >>= _) = _
      rw [h.followBin_eq hmem, h.nextBin_eq]
      have hrest : s.Rep ((pre ++ [b]) ++ post) := by simpa using h
      exact ih hrest (by omega) (by omega)

lemma checkAll_isSome (hsorted : l.Pairwise fun x y => (ev x).key ≤ (ev y).key) (hnodup : l.Nodup)
    (hkey : ∀ x ∈ l, v.key ≤ (ev x).key) (hseen : ∀ x ∈ l, x ∉ v.seen) : (v.checkAll ev l).isSome := by
  induction l generalizing v with
  | nil => rfl
  | cons event l ih =>
    obtain ⟨hle, hsorted⟩ := pairwise_cons.mp hsorted
    obtain ⟨hnot, hnodup⟩ := nodup_cons.mp hnodup
    have hcheck := check_eq_some_iff.mpr ⟨hkey event (mem_cons_self ..), hseen event (mem_cons_self ..), rfl⟩
    rw [checkAll, hcheck]
    refine ih hsorted hnodup hle fun x hx => ?_
    rw [mem_cons, not_or]
    exact ⟨fun heq => hnot (heq ▸ hx), hseen x (mem_cons_of_mem _ hx)⟩

lemma pairwise_allItems {bins : List (Bin ℕ)} (h : Bin.Ordered (fun e => (ev e).key) bins) :
    (Bin.allItems bins).Pairwise fun x y => (ev x).key ≤ (ev y).key := by
  induction bins with
  | nil => exact .nil
  | cons b bins ih =>
    have hsame := h.same b (mem_cons_self ..)
    rw [Bin.allItems_cons, pairwise_append]
    refine ⟨pairwise_of_forall_mem_list fun x hx y hy => ?_, ih h.tail, fun x hx y hy => ?_⟩
    · exact le_of_eq ((hsame x hx).trans (hsame y hy).symm)
    · rw [hsame x hx]
      exact h.first_le (mem_append_right _ hy)

end Verifier

namespace EventQueue

variable {q : EventQueue} {log : List ℕ}

/-- On every queue that calls lead to, `debugVerify` returns, and it returns `true` iff no event is scheduled at tick 0
with a negative priority. -/
theorem debugVerify_iff (h : Reachable q log) : ∃ accepts, (∃ N, ∀ fuel ≥ N, q.debugVerify fuel = .ok accepts) ∧
      (accepts = true ↔ ∀ x, q.scheduled x = true → (q.stamp x).when = 0 → 0 ≤ (q.stamp x).priority) := by
  obtain ⟨bins, hg⟩ := h.good
  have hrep : q.lists.Rep ([] ++ bins) := hg.holds.rep
  refine ⟨(Verifier.checkAll q.stamp {} (Bin.allItems bins)).isSome, ⟨(Bin.allItems bins).length, fun fuel hfuel => ?_⟩, ?_⟩
  · rw [debugVerify, hrep.tops.head?_eq]
    exact Verifier.verifyBins_eq hrep hfuel ((Bin.length_le_allItems bins).trans hfuel)
  · have hzero (x : ℕ) : ({} : Verifier).key ≤ (q.stamp x).key ↔ ((q.stamp x).when = 0 → 0 ≤ (q.stamp x).priority) := by
      rw [Verifier.key, ← Stamp.le_iff]
      simp only [Stamp.le, Bool.or_eq_true, Bool.and_eq_true, decide_eq_true_eq]
      omega
    simp only [← hzero, hg.scheduled]
    have hsorted := Verifier.pairwise_allItems hg.holds.ordered
    refine ⟨fun hsome x hx => ?_, fun hkey => ?_⟩
    · cases hitems : Bin.allItems bins with
      | nil =>
        rw [hitems] at hx
        cases hx
      | cons first l =>
        rw [hitems] at hsome hx hsorted
        obtain ⟨v, hv⟩ := Option.isSome_iff_exists.mp (Option.isSome_of_isSome_bind hsome)
        have hfirst := (Verifier.check_eq_some_iff.mp hv).1
        rcases mem_cons.mp hx with rfl | hx
        · exact hfirst
        · exact hfirst.trans ((pairwise_cons.mp hsorted).1 x hx)
    · exact Verifier.checkAll_isSome hsorted hg.holds.rep.nodup hkey fun x _ => not_mem_nil

/-- Two events with priority 0 are scheduled on a new queue, at ticks 5 and 3, so in two bins. -/
theorem debugVerify_iff_two : ∃ q, Reachable q [1, 0] ∧ q.stamp 0 ≠ q.stamp 1 ∧
    ∃ N, ∀ fuel ≥ N, q.debugVerify fuel = .ok true := by
  have hnew : Reachable { stamp := fun _ => ⟨0, 0⟩ } [] := .new _ _
  have hfirst := Reachable.call (.schedule 0 5) hnew ⟨0, fun _ _ => rfl⟩
  have hreach := Reachable.call (.schedule 1 3) hfirst ⟨1, fun _ _ => rfl⟩
  obtain ⟨accepts, hreturns, hiff⟩ := debugVerify_iff hreach
  have haccepts : accepts = true := by
    refine hiff.mpr fun x _ _ => ?_
    by_cases h0 : x = 0 <;> by_cases h1 : x = 1 <;> simp [setWhen, h0, h1]
  exact ⟨_, hreach, by simp [setWhen], haccepts ▸ hreturns⟩

/-- An event with priority -1 is scheduled at tick 0 on a new queue. -/
theorem debugVerify_rejects : ∃ q, Reachable q [0] ∧ ∀ fuel ≥ 1, q.debugVerify fuel = .ok false := by
  have hnew : Reachable { stamp := fun _ => ⟨0, -1⟩ } [] := .new _ _
  refine ⟨_, .call (.schedule 0 0) hnew ⟨0, fun _ _ => rfl⟩, fun fuel hfuel => ?_⟩
  obtain ⟨fuel, rfl⟩ : ∃ k, fuel = k + 1 := ⟨fuel - 1, by omega⟩
  rfl

end EventQueue

end Gem5.Sim
