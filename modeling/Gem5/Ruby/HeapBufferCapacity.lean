import Gem5.Ruby.HeapBuffer

/-!
# Room in a bounded buffer

`areNSlotsAvailable` does not count messages: once something has been dequeued in the current cycle
it adds up what was noted at the first dequeue of the cycle and the messages enqueued in the cycle.
`Registers` are the data it does this from, and `Registers.Covers` says that the sum is at least what
the buffer holds, whatever was enqueued before the first dequeue and after it. Messages that move to
the stall map and back do not count, since both containers do. In one cycle the sum only grows.

The sum and the number of slots asked for are added in 32 bits, so a very large number can be found available in a full
buffer (`slots_wrap`).
-/

namespace Gem5.Ruby

open Lib List Sat

/-- What a buffer keeps about the cycle of its last enqueue and of its last dequeue. -/
structure Registers where
  /-- `m_time_last_time_enqueue`. -/
  lastEnqueue : ℕ
  /-- `m_msgs_this_cycle`. -/
  msgs : ℕ
  /-- `m_time_last_time_pop`. -/
  lastPop : ℕ
  /-- `m_size_at_cycle_start` and `m_stalled_at_cycle_start` together. -/
  atStart : ℕ

namespace Registers

/-- The registers after an enqueue at `t`. -/
def push (t : ℕ) (r : Registers) : Registers :=
  { r with
    lastEnqueue := if r.lastEnqueue < t then t else r.lastEnqueue
    msgs := (if r.lastEnqueue < t then 0 else r.msgs) + 1 }

/-- The registers after a dequeue at `t` from a buffer of `size` messages. -/
def pop (t size : ℕ) (r : Registers) : Registers :=
  { r with
    lastPop := if r.lastPop < t then t else r.lastPop
    atStart := if r.lastPop < t then size else r.atStart }

/-- The size that `areNSlotsAvailable` sees at `t` of a buffer of `size` messages. -/
def visible (t size : ℕ) (r : Registers) : ℕ :=
  if r.lastPop < t then size else if r.lastEnqueue < t then r.atStart else r.atStart + r.msgs

/-- The registers of a buffer of `size` messages account for all of them, and are not ahead of `now`. -/
structure Covers (now size : ℕ) (r : Registers) : Prop where
  enqueued : r.lastEnqueue ≤ now
  popped : r.lastPop ≤ now
  popsOnly : r.lastEnqueue < r.lastPop → size ≤ r.atStart
  both : r.lastEnqueue = r.lastPop → size ≤ r.atStart + r.msgs

variable {r : Registers} {t size size' : ℕ}

lemma Covers.mono {now : ℕ} (h : r.Covers now size) (ht : now ≤ t) (hsize : size' ≤ size) : r.Covers t size' where
  enqueued := h.enqueued.trans ht
  popped := h.popped.trans ht
  popsOnly hlt := hsize.trans (h.popsOnly hlt)
  both heq := hsize.trans (h.both heq)

lemma Covers.push (h : r.Covers t size) : (r.push t).Covers t (size + 1) := by
  obtain ⟨henq, hpop, honly, hboth⟩ := h
  simp only [Registers.push]
  split_ifs with hfirst
  · refine ⟨Nat.le_refl _, hpop, ?_, ?_⟩
    · grind
    · -- The first enqueue of the cycle of the last dequeue.
      grind
  · refine ⟨henq, hpop, ?_, ?_⟩
    · grind
    grind

lemma Covers.pop (h : r.Covers t size) : (r.pop t size).Covers t size := by
  obtain ⟨henq, hpop, honly, hboth⟩ := h
  simp only [Registers.pop]
  split_ifs with hfirst
  · exact ⟨henq, Nat.le_refl _, fun _ => Nat.le_refl _, fun _ => Nat.le_add_right _ _⟩
  · exact ⟨henq, hpop, honly, hboth⟩

lemma Covers.le_visible (h : r.Covers t size) : size ≤ r.visible t size := by
  obtain ⟨henq, hpop, honly, hboth⟩ := h
  simp only [visible]
  grind

lemma visible_push (r : Registers) (t size : ℕ) : r.visible t size + 1 ≤ (r.push t).visible t (size + 1) := by
  by_cases hpop : r.lastPop < t
  · simp [visible, push, hpop]
  · by_cases henq : r.lastEnqueue < t
    · simp [visible, push, hpop, henq]
    · simp [visible, push, hpop, henq, Nat.add_assoc]

lemma visible_pop (r : Registers) (t size size' : ℕ) : r.visible t size ≤ (r.pop t size).visible t size' := by
  by_cases hpop : r.lastPop < t
  · by_cases henq : r.lastEnqueue < t
    · simp [visible, pop, hpop, henq]
    · simp [visible, pop, hpop, henq]
  · simp [visible, pop, hpop]

end Registers

namespace HeapBuffer

variable {b b' : HeapBuffer}

def registers (b : HeapBuffer) : Registers where
  lastEnqueue := b.timeLastTimeEnqueue
  msgs := b.msgsThisCycle
  lastPop := b.timeLastTimePop
  atStart := b.sizeAtCycleStart + b.stalledAtCycleStart

lemma visibleSize_eq (t : ℕ) (b : HeapBuffer) : b.visibleSize t = b.registers.visible t b.occupancy := by
  by_cases hpop : b.timeLastTimePop < t
  · simp [visibleSize, Registers.visible, registers, occupancy, hpop]
  · by_cases henq : b.timeLastTimeEnqueue < t
    · simp [visibleSize, Registers.visible, registers, hpop, henq]
    · simp [visibleSize, Registers.visible, registers, hpop, henq, Nat.add_right_comm]

lemma areNSlotsAvailable_iff {n t : ℕ} {b : HeapBuffer} (h : b.visibleSize t + n < 2 ^ 32) :
    b.areNSlotsAvailable n t = true ↔ b.maxSize = 0 ∨ b.visibleSize t + n ≤ b.maxSize := by
  rw [areNSlotsAvailable, Nat.mod_eq_of_lt h]
  split_ifs with hmax <;> simp [hmax]

lemma Valid.occupancy_eq (hb : b.Valid) : b.occupancy = b.contents.length := by
  simp [occupancy, contents, hb.size]

variable {t : ℕ} {c : Call}

lemma Valid.occupancy_performed (hb : b.Valid) (h : Performed t b c b') :
    (b.left c).length + b'.occupancy = (b.sent c).length + b.occupancy := by
  have hlen := (hb.performed_perm h).length_eq
  rw [hb.occupancy_eq, (hb.performed h).occupancy_eq]
  simpa using hlen

lemma maxSize_performed (h : Performed t b c b') : b'.maxSize = b.maxSize := by
  cases h <;> rfl

lemma registers_afterPop (t : ℕ) (b : HeapBuffer) : (b.afterPop t).registers = b.registers.pop t b.occupancy := by
  by_cases hpop : b.timeLastTimePop < t <;> simp [registers, Registers.pop, afterPop, occupancy, hpop]

inductive Ticked (t : ℕ) (b : HeapBuffer) : Call → HeapBuffer → Prop
  | push {c : Call} {b' : HeapBuffer} : b'.registers = b.registers.push t → b'.occupancy = b.occupancy + 1 →
      (b.sent c).length = 1 → Ticked t b c b'
  | pop {c : Call} {b' : HeapBuffer} : b'.registers = b.registers.pop t b.occupancy → b'.occupancy ≤ b.occupancy →
      (b.sent c).length = 0 → Ticked t b c b'
  | keep {c : Call} {b' : HeapBuffer} : b'.registers = b.registers → b'.occupancy = b.occupancy →
      (b.sent c).length = 0 → Ticked t b c b'

lemma Valid.ticked (hb : b.Valid) (h : Performed t b c b') : Ticked t b c b' := by
  have hocc := hb.occupancy_performed h
  cases h with
  | enqueue =>
    simp only [left, sent, length_nil, length_singleton] at hocc
    exact .push rfl (by omega) rfl
  | dequeue =>
    simp only [left, sent, length_nil, length_singleton] at hocc
    exact .pop (registers_afterPop t b) (by omega) rfl
  | stallMessage =>
    simp only [left, sent, length_nil] at hocc
    exact .pop (registers_afterPop t b) (by omega) rfl
  | reanalyzeMessages =>
    simp only [left, sent, length_nil] at hocc
    exact .keep rfl (by omega) rfl
  | reanalyzeAllMessages =>
    simp only [left, sent, length_nil] at hocc
    exact .keep rfl (by omega) rfl
  | recycle =>
    simp only [left, sent, length_nil] at hocc
    exact .keep rfl (by omega) rfl

lemma Ticked.covers (h : Ticked t b c b') {now : ℕ} (ht : now ≤ t)
    (hcov : b.registers.Covers now b.occupancy) : b'.registers.Covers t b'.occupancy := by
  have hcov' := hcov.mono ht (Nat.le_refl _)
  cases h with
  | push hreg hocc =>
    rw [hreg, hocc]
    exact hcov'.push
  | pop hreg hocc =>
    rw [hreg]
    exact hcov'.pop.mono (Nat.le_refl _) hocc
  | keep hreg hocc =>
    rw [hreg, hocc]
    exact hcov'

lemma Ticked.visible_le (h : Ticked t b c b') :
    b.registers.visible t b.occupancy ≤ b'.registers.visible t b'.occupancy := by
  cases h with
  | push hreg hocc => grind [Registers.visible_push]
  | pop hreg hocc =>
    rw [hreg]
    exact Registers.visible_pop ..
  | keep hreg hocc =>
    rw [hreg, hocc]

lemma Ticked.occupancy_le (h : Ticked t b c b') : b'.occupancy ≤ b.occupancy + (b.sent c).length := by
  cases h <;> omega

/-! ## Runs -/

lemma covers_run (hb : b.Valid) {now : ℕ} (hcov : b.registers.Covers now b.occupancy) {log : List (ℕ × Call)}
    {j : Journal} (htimes : (now :: (log.map Prod.fst ++ [t])).Pairwise (· ≤ ·)) (h : b.run log = .ok (b', j)) :
    b'.registers.Covers t b'.occupancy := by
  induction log generalizing b now j with
  | nil =>
    cases h
    exact hcov.mono (rel_of_pairwise_cons htimes (mem_singleton_self t)) (Nat.le_refl _)
  | cons x log ih =>
    obtain ⟨t1, c⟩ := x
    obtain ⟨b1, j1, hperf, hrun, -, -⟩ := run_cons h
    have hle : now ≤ t1 := rel_of_pairwise_cons htimes (mem_cons_self ..)
    exact ih (hb.performed hperf) ((hb.ticked hperf).covers hle hcov) htimes.of_cons hrun

/-- How many of the calls are `enqueue`s. -/
def enqueues (calls : List Call) : ℕ := calls.countP fun c => match c with
  | .enqueue .. => true
  | _ => false

lemma enqueues_cons (c : Call) (calls : List Call) : enqueues (c :: calls) = (b.sent c).length + enqueues calls := by
  cases c <;> simp [enqueues, sent, Nat.add_comm]

/-- The calls, all made at `t`. -/
def callsAt (t : ℕ) (calls : List Call) : List (ℕ × Call) := calls.map fun c => (t, c)

lemma visible_run (hb : b.Valid) {calls : List Call} {j : Journal} (h : b.run (callsAt t calls) = .ok (b', j)) :
    b'.maxSize = b.maxSize ∧ b.registers.visible t b.occupancy ≤ b'.registers.visible t b'.occupancy ∧
      b'.occupancy ≤ b.occupancy + enqueues calls := by
  induction calls generalizing b j with
  | nil =>
    cases h
    exact ⟨rfl, Nat.le_refl _, Nat.le_refl _⟩
  | cons c calls ih =>
    obtain ⟨b1, j1, hperf, hrun, -, -⟩ := run_cons h
    have htick := hb.ticked hperf
    obtain ⟨hmax, hvis, hocc⟩ := ih (hb.performed hperf) hrun
    have hstep := htick.occupancy_le
    rw [enqueues_cons (b := b)]
    exact ⟨hmax.trans (maxSize_performed hperf), htick.visible_le.trans hvis, by omega⟩

/-! ## The check of `enqueue` -/

lemma assertReady_sat (t : ℕ) (b : HeapBuffer) :
    Sat (fun e => e ≠ .check .overfull) (fun _ => True) (b.assertReady t) := by
  refine Sat.bind (Q := fun _ => True) ?_ fun r _ => (Sat.ensure (by simp)).mono fun _ _ => trivial
  exact Sat.bind (Sat.ensure (by simp)) fun _ _ => trivial

lemma dequeue_sat (t : ℕ) (b : HeapBuffer) : Sat (fun e => e ≠ .check .overfull) (fun _ => True) (b.dequeue t) :=
  (assertReady_sat t b).bind fun _ _ => trivial

lemma reanalyzeList_sat (t : ℕ) (lt : List Message) (b : HeapBuffer) :
    Sat (fun e => e ≠ .check .overfull) (fun _ => True) (reanalyzeList t lt b) := by
  induction lt generalizing b with
  | nil => trivial
  | cons m lt ih =>
    refine bind (ensure (by simp)) fun _ _ => ?_
    exact (ih _).bind fun _ _ => trivial

lemma reanalyzeEntries_sat (t : ℕ) (entries : List (ℕ × List Message)) (b : HeapBuffer) :
    Sat (fun e => e ≠ .check .overfull) (fun _ => True) (reanalyzeEntries t entries b) := by
  induction entries generalizing b with
  | nil => trivial
  | cons x rest ih =>
    refine bind (ensure (by simp)) fun _ _ => ?_
    refine (reanalyzeList_sat t x.2 _).bind fun _ _ => ?_
    exact (ih _).bind fun _ _ => trivial

/-- Only an `enqueue` into a full buffer is stopped by the check of the size. -/
lemma perform_sat (t : ℕ) (b : HeapBuffer) (c : Call) :
    Sat (fun e => e = .check .overfull → b.maxSize ≠ 0 ∧ b.maxSize < b.occupancy + (b.sent c).length)
      (fun _ => True) (b.perform t c) := by
  have hlift : ∀ {α : Type} {x : Except HeapFault (HeapBuffer × α)},
      Sat (fun e => e ≠ .check .overfull) (fun _ => True) x →
      Sat (fun e => e = .check .overfull → b.maxSize ≠ 0 ∧ b.maxSize < b.occupancy + (b.sent c).length) (fun _ => True)
        (x >>= fun r => pure r.1) := by
    intro α x hx
    cases x with
    | ok r => trivial
    | error e => exact fun he => absurd he hx
  cases c with
  | enqueue message delta isRandom warmup draw bypass =>
    refine bind (Q := fun _ => True) ?_ fun _ _ => trivial
    refine bind (ensure (by simp)) fun _ _ => ?_
    refine bind (ensure (by simp)) fun _ _ => ?_
    refine bind (ensure (by simp)) fun _ _ => ?_
    refine bind (ensure ?_) fun _ _ => trivial
    intro hfull _
    simp only [Bool.or_eq_false_iff, beq_eq_false_iff_ne, decide_eq_false_iff_not, Nat.not_le, occupancy, afterPush,
      BinaryHeap.size_push] at hfull
    refine ⟨hfull.1, ?_⟩
    simp only [sent, length_singleton, occupancy]
    omega
  | dequeue => exact hlift (dequeue_sat t b)
  | stallMessage addr =>
    refine hlift ((assertReady_sat t b).bind fun _ _ => ?_)
    exact (dequeue_sat t b).bind fun _ _ => trivial
  | reanalyzeMessages addr =>
    refine hlift (bind (ensure (by simp)) fun _ _ => ?_)
    refine bind (ensure (by simp)) fun _ _ => ?_
    exact (reanalyzeList_sat t _ _).bind fun _ _ => trivial
  | reanalyzeAllMessages => exact hlift ((reanalyzeEntries_sat t _ _).bind fun _ _ => trivial)
  | recycle latency => exact hlift ((assertReady_sat t b).bind fun _ _ => trivial)

/-- Calls with no more `enqueue`s than there is room for are not stopped by the check of the size. -/
lemma Valid.run_ne_overfull (hb : b.Valid) {calls : List Call}
    (hroom : b.occupancy + enqueues calls ≤ b.maxSize) : b.run (callsAt t calls) ≠ .error (.check .overfull) := by
  induction calls generalizing b with
  | nil =>
    intro h
    cases h
  | cons c calls ih =>
    intro h
    change (b.perform t c >>= fun b1 => (b1.run (callsAt t calls) >>= fun r => pure _)) = _ at h
    rw [enqueues_cons (b := b)] at hroom
    have hsat := perform_sat t b c
    cases hperf : b.perform t c with
    | error e =>
      rw [hperf] at h hsat
      cases h
      have := (hsat rfl).2
      omega
    | ok b1 =>
      rw [hperf] at h
      have hstep := performed_of_ok hperf
      have hocc := (hb.ticked hstep).occupancy_le
      have hmax := maxSize_performed hstep
      have hrest := ih (hb.performed hstep) (by omega)
      cases hrun : b1.run (callsAt t calls) with
      | ok r =>
        change (b1.run (callsAt t calls) >>= _) = _ at h
        rw [hrun] at h
        cases h
      | error e =>
        change (b1.run (callsAt t calls) >>= _) = _ at h
        simp_all

/-- Over any sequence of calls on a new buffer whose times do not decrease and are not after `t`:

* `m_stall_map_size` is the number of messages in the stall map,
* if `n` slots are available at `t`, calls at `t` with at most `n` `enqueue`s among them, dequeues
  and moves to the stall map and back in any order, keep the bound and never fail its check,
* what is reported available at `t` after such calls was available before them: the slots that
  dequeues free are not reported at the same time,

the latter two if what `areNSlotsAvailable` adds is less than `2 ^ 32`. -/
theorem slots_available {b₀ : HeapBuffer} (hnew : b₀.IsNew) {log : List (ℕ × Call)} {j : Journal} {t : ℕ}
    (htimes : (log.map Prod.fst ++ [t]).Pairwise (· ≤ ·)) (hrun : b₀.run log = .ok (b, j)) :
    b.stallMapSize = (b.stallMsgMap.entries.map fun x => x.2.length).sum ∧
    (∀ n calls, b.maxSize ≠ 0 → b.visibleSize t + n < 2 ^ 32 → b.areNSlotsAvailable n t = true → enqueues calls ≤ n →
      b.run (callsAt t calls) ≠ .error (.check .overfull) ∧
      ∀ b' j', b.run (callsAt t calls) = .ok (b', j') → b'.prioHeap.size + b'.stallMapSize ≤ b'.maxSize) ∧
    ∀ n calls b' j', b.run (callsAt t calls) = .ok (b', j') → b'.visibleSize t + n < 2 ^ 32 →
      b'.areNSlotsAvailable n t = true → b.areNSlotsAvailable n t = true := by
  have hvalid := hnew.valid.run hrun
  have hcovers₀ : b₀.registers.Covers 0 b₀.occupancy := by
    rw [hnew]
    exact ⟨Nat.le_refl _, Nat.le_refl _, fun h => absurd h (Nat.lt_irrefl 0), fun _ => Nat.le_refl _⟩
  have hcovers := covers_run hnew.valid hcovers₀ (pairwise_cons.mpr ⟨fun _ _ => Nat.zero_le _, htimes⟩) hrun
  refine ⟨?_, ?_, ?_⟩
  · rw [hvalid.size, ListMap.values, length_flatMap]
  · intro n calls hmax hfit hslots hcalls
    have hroom : b.occupancy + enqueues calls ≤ b.maxSize := by
      rcases (areNSlotsAvailable_iff hfit).mp hslots with h | h
      · exact absurd h hmax
      · have := hcovers.le_visible
        rw [visibleSize_eq] at h
        omega
    refine ⟨hvalid.run_ne_overfull hroom, ?_⟩
    intro b' j' hrun'
    obtain ⟨hmax', -, hocc⟩ := visible_run hvalid hrun'
    have hsize := (hvalid.run hrun').size
    simp only [occupancy] at hocc hroom
    omega
  · intro n calls b' j' hrun' hfit hslots
    obtain ⟨hmax', hvis, -⟩ := visible_run hvalid hrun'
    rw [← visibleSize_eq, ← visibleSize_eq] at hvis
    rw [areNSlotsAvailable_iff hfit, hmax'] at hslots
    rw [areNSlotsAvailable_iff (by omega)]
    omega

/-- A message is enqueued for the next tick. -/
def plainEnqueue : Call :=
  .enqueue { payload := 0, destination := [], size := 0, time := 0 } 1 false false 0 false

/-- A buffer of two slots with one message: a second one still fits in the cycle in which the first is
dequeued, a third does not. -/
theorem slots_available_two : ∃ b j b' j', run [(0, plainEnqueue)] { maxSize := 2 } = .ok (b, j) ∧
    b.areNSlotsAvailable 1 1 = true ∧ b.areNSlotsAvailable 2 1 = false ∧ b.run (callsAt 1 [.dequeue]) = .ok (b', j') ∧
      b'.areNSlotsAvailable 2 1 = false := by
  have hnew : IsNew { maxSize := 2 } := rfl
  have hrun : ∃ b j b' j', run [(0, plainEnqueue)] { maxSize := 2 } = .ok (b, j) ∧
      b.areNSlotsAvailable 1 1 = true ∧ b.areNSlotsAvailable 2 1 = false ∧
      b.run (callsAt 1 [.dequeue]) = .ok (b', j') ∧ b'.visibleSize 1 + 2 < 2 ^ 32 :=
    ⟨_, _, _, _, rfl, rfl, rfl, rfl, by decide⟩
  obtain ⟨b, j, b', j', hrun, hone, htwo, hdeq, hfit⟩ := hrun
  refine ⟨b, j, b', j', hrun, hone, htwo, hdeq, ?_⟩
  have hmono := (slots_available hnew (by decide) hrun).2.2 2 [.dequeue] b' j' hdeq hfit
  rw [htwo] at hmono
  simpa using hmono

/-- In a full buffer of one slot, `2 ^ 32 - 1` slots are found available, and the next message fails the check. -/
theorem slots_wrap : ∃ b j, run [(0, plainEnqueue)] { maxSize := 1 } = .ok (b, j) ∧
    b.areNSlotsAvailable (2 ^ 32 - 1) 1 = true ∧ b.run (callsAt 1 [plainEnqueue]) = .error (.check .overfull) :=
  ⟨_, _, rfl, by decide +kernel, rfl⟩

end HeapBuffer

end Gem5.Ruby
