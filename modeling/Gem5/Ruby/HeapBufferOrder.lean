import Gem5.Ruby.HeapBuffer

/-!
# The order in which messages leave a buffer

Over any sequence of calls a message is in exactly one place: in the heap, in the stall map, or out
(`run_perm`). `dequeue` takes the least message of the heap. In a strict FIFO buffer the keys of the
messages are in the order in which they were enqueued (`InOrder`), as long as no message bypasses the
check, is recycled or arrives in warmup. So a message that leaves is the oldest one of those that are
not put aside at that moment, and two messages can leave in the wrong order only when the later one to
leave was stalled while the other left (`InOrder.left_pairwise`).
-/

namespace Gem5.Ruby.HeapBuffer

open Lib List
open BinaryHeap (entry IsHeap)
open MessageBuffer (before)

variable {b b' : HeapBuffer}

/-! ## No message is lost or doubled -/

/-- The messages that the `enqueue`s of the log add to a buffer that has given out `n` counts. -/
def sentBy : ℕ → List (ℕ × Call) → List Message
  | _, [] => []
  | n, (_, .enqueue message _ _ _ _ _) :: log => body { message with msgCounter := n + 1 } :: sentBy (n + 1) log
  | n, _ :: log => sentBy n log

lemma sentBy_cons (t : ℕ) (c : Call) (log : List (ℕ × Call)) :
    sentBy b.msgCounter ((t, c) :: log) = b.sent c ++ sentBy (b.msgCounter + (b.sent c).length) log := by
  cases c <;> rfl

variable {log : List (ℕ × Call)} {j : Journal} {m : Message} {t : ℕ} {c : Call}

lemma Valid.run_perm (hb : b.Valid) (h : b.run log = .ok (b', j)) :
    ((j.left ++ b'.contents).map body).Perm (sentBy b.msgCounter log ++ b.contents.map body) := by
  induction log generalizing b j with
  | nil =>
    cases h
    exact .refl _
  | cons x log ih =>
    obtain ⟨t, c⟩ := x
    obtain ⟨b1, j1, hperf, hrun, hleft, -⟩ := run_cons h
    have hrest := ih (hb.performed hperf) hrun
    have hstep := hb.performed_perm hperf
    rw [hleft, sentBy_cons, ← msgCounter_performed hperf, append_assoc, map_append]
    refine (hrest.append_left _).trans ?_
    rw [map_append] at hstep
    -- What left at this call is with the contents before it.
    grind [perm_append_comm_assoc, List.Perm.append_left, append_assoc]

lemma lt_of_mem_sentBy {n : ℕ} (hm : m ∈ sentBy n log) : n < m.msgCounter := by
  induction log generalizing n with
  | nil => cases hm
  | cons x log ih =>
    obtain ⟨t, c⟩ := x
    cases c with
    | enqueue message =>
      rcases mem_cons.mp hm with rfl | hm
      · exact Nat.lt_succ_self n
      · exact Nat.lt_of_succ_lt (ih hm)
    | dequeue => exact ih hm
    | stallMessage => exact ih hm
    | reanalyzeMessages => exact ih hm
    | reanalyzeAllMessages => exact ih hm
    | recycle => exact ih hm

lemma nodup_sentBy (n : ℕ) (log : List (ℕ × Call)) : ((sentBy n log).map Message.msgCounter).Nodup := by
  induction log generalizing n with
  | nil => exact nodup_nil
  | cons x log ih =>
    obtain ⟨t, c⟩ := x
    cases c with
    | enqueue message =>
      refine nodup_cons.mpr ⟨?_, ih (n + 1)⟩
      intro hmem
      obtain ⟨m, hm, heq⟩ := mem_map.mp hmem
      have hlt := lt_of_mem_sentBy hm
      change m.msgCounter = n + 1 at heq
      omega
    | dequeue => exact ih n
    | stallMessage => exact ih n
    | reanalyzeMessages => exact ih n
    | reanalyzeAllMessages => exact ih n
    | recycle => exact ih n

lemma Valid.mem_of_left (hb : b.Valid) (h : b.run log = .ok (b', j))
    (hm : m ∈ j.left) : m.msgCounter ∈ b.contents.map Message.msgCounter ∨ b.msgCounter < m.msgCounter := by
  have hmem : body m ∈ sentBy b.msgCounter log ++ b.contents.map body := by
    apply (hb.run_perm h).mem_iff.mp
    exact mem_map_of_mem (mem_append_left _ hm)
  rcases mem_append.mp hmem with hsent | hold
  · have hlt := lt_of_mem_sentBy hsent
    exact .inr hlt
  · obtain ⟨m', hm', heq⟩ := mem_map.mp hold
    refine .inl (mem_map.mpr ⟨m', hm', ?_⟩)
    change (body m').msgCounter = (body m).msgCounter
    rw [heq]

/-! ## Strict FIFO -/

/-- The call is not one of those that give up the order. -/
def Plain : Call → Prop
  | .enqueue _ _ _ rubyWarmup _ bypassStrictFifo => rubyWarmup = false ∧ bypassStrictFifo = false
  | .recycle _ => False
  | _ => True

/-- The arrival times of the messages of a strict FIFO buffer are in the order of their counts. -/
structure InOrder (b : HeapBuffer) : Prop where
  strict : b.strictFifo = true
  checked : b.lastMessageStrictFifoBypassed = false
  arrived : ∀ m ∈ b.contents, m.lastEnqueueTime ≤ b.lastArrivalTime
  ordered : ∀ m ∈ b.contents, ∀ m' ∈ b.contents, m.msgCounter < m'.msgCounter → m.lastEnqueueTime ≤ m'.lastEnqueueTime

lemma IsNew.inOrder (h : b.IsNew) (hstrict : b.strictFifo = true) : b.InOrder := by
  rw [h]
  refine ⟨hstrict, rfl, ?_, ?_⟩
  · intro m hm
    cases hm
  · intro m hm
    cases hm

lemma InOrder.of_subset (ho : b.InOrder) (hstrict : b'.strictFifo = b.strictFifo)
    (hchecked : b'.lastMessageStrictFifoBypassed = b.lastMessageStrictFifoBypassed)
    (harrival : b'.lastArrivalTime = b.lastArrivalTime) (hsub : ∀ m ∈ b'.contents, m ∈ b.contents) : b'.InOrder where
  strict := hstrict.trans ho.strict
  checked := hchecked.trans ho.checked
  arrived m hm := harrival ▸ ho.arrived m (hsub m hm)
  ordered m hm m' hm' := ho.ordered m (hsub m hm) m' (hsub m' hm')

lemma le_lastArrival (t : ℕ) (isRandom : Bool) (b : HeapBuffer) : b.lastArrivalTime ≤ b.lastArrival t isRandom := by
  simp only [lastArrival]
  grind

lemma InOrder.afterPush (ho : b.InOrder) (hb : b.Valid) {message : Message} {arrival last : ℕ}
    (h : b.lastArrivalTime ≤ arrival) : (b.afterPush message t arrival last false false).InOrder := by
  have hmem : ∀ m ∈ (b.afterPush message t arrival last false false).contents,
      m = b.stamp message arrival ∨ m ∈ b.contents := by grind [contents_afterPush]
  refine ⟨ho.strict, rfl, ?_, ?_⟩
  · intro m hm
    change m.lastEnqueueTime ≤ arrival
    rcases hmem m hm with rfl | hm
    · exact Nat.le_refl _
    · exact (ho.arrived m hm).trans h
  · intro m hm m' hm' hlt
    rcases hmem m' hm' with rfl | hm'
    · change m.lastEnqueueTime ≤ arrival
      rcases hmem m hm with rfl | hm
      · exact Nat.le_refl _
      · exact (ho.arrived m hm).trans h
    · rcases hmem m hm with rfl | hm
      · -- The new message has the greatest count.
        have hfresh := hb.fresh m' hm'
        change b.msgCounter + 1 < m'.msgCounter at hlt
        omega
      · exact ho.ordered m hm m' hm' hlt

lemma InOrder.performed (ho : b.InOrder) (hb : b.Valid) (hc : Plain c) (h : Performed t b c b') : b'.InOrder := by
  cases h with
  | enqueue message delta isRandom warmup draw bypass hfifo =>
    obtain ⟨rfl, rfl⟩ := hc
    apply ho.afterPush hb
    grind [InOrder.strict, InOrder.checked, le_lastArrival]
  | dequeue _ hpos =>
    refine ho.of_subset rfl rfl rfl ?_
    grind [Valid.contents_afterPop]
  | stallMessage addr _ hpos =>
    refine ho.of_subset rfl rfl rfl ?_
    grind [Valid.contents_afterStall]
  | reanalyzeMessages addr =>
    refine ho.of_subset rfl rfl rfl ?_
    grind [contents_afterRequeue, ListMap.values_erase]
  | reanalyzeAllMessages =>
    refine ho.of_subset rfl rfl rfl ?_
    intro m hm
    exact (contents_afterRequeue values_all).mem_iff.mp hm
  | recycle => exact hc.elim

lemma InOrder.front_lt (ho : b.InOrder) (hb : b.Valid) (hpos : 0 < b.prioHeap.size) (t : ℕ)
    (hm : m ∈ (b.afterPop t).prioHeap.toList) : b.front.msgCounter < m.msgCounter := by
  have hheap : m ∈ b.prioHeap.toList := (hb.heap_perm hpos).mem_iff.mpr (mem_cons_of_mem _ hm)
  have hfront : b.front ∈ b.prioHeap.toList := (hb.heap_perm hpos).mem_iff.mpr (mem_cons_self ..)
  have hne : b.front.msgCounter ≠ m.msgCounter := by
    have hnodup := ((hb.contents_afterPop hpos t).map Message.msgCounter).nodup_iff.mp hb.nodup
    rw [map_cons, nodup_cons] at hnodup
    intro heq
    apply hnodup.1
    rw [heq]
    exact mem_map_of_mem (mem_append_left _ hm)
  have hle := before_iff.mp (hb.front_le hheap)
  have hord := ho.ordered m (mem_append_left _ hheap) b.front (mem_append_left _ hfront)
  omega

lemma mem_stalled_performed (h : Performed t b c b')
    (hm : m ∈ b'.stallMsgMap.values) : m ∈ b.stallMsgMap.values ∨ m ∈ b.stalled c := by
  cases h with
  | enqueue => exact .inl hm
  | dequeue => exact .inl hm
  | stallMessage addr =>
    rcases mem_cons.mp ((ListMap.values_pushBack addr b.front b.stallMsgMap).mem_iff.mp hm) with rfl | hm
    · exact .inr (mem_singleton_self _)
    · exact .inl hm
  | reanalyzeMessages addr =>
    exact .inl ((ListMap.values_erase addr b.stallMsgMap).mem_iff.mpr (mem_append_right _ hm))
  | reanalyzeAllMessages => cases hm
  | recycle => exact .inl hm

/-- The counts of the messages put aside at the start of a run or in it. -/
def AsideIn (b : HeapBuffer) (j : Journal) (k : ℕ) : Prop :=
  k ∈ b.stallMsgMap.values.map Message.msgCounter ∨ k ∈ j.stalled.map Message.msgCounter

lemma AsideIn.of_performed {b1 : HeapBuffer} {j1 : Journal} {k : ℕ} (h : Performed t b c b1)
    (hj : j.stalled = b.stalled c ++ j1.stalled) (haside : AsideIn b1 j1 k) : AsideIn b j k := by
  rcases haside with hk | hk
  · obtain ⟨m, hm, rfl⟩ := mem_map.mp hk
    rcases mem_stalled_performed h hm with hm | hm
    · exact .inl (mem_map_of_mem hm)
    · refine .inr (mem_map_of_mem ?_)
      rw [hj]
      exact mem_append_left _ hm
  · refine .inr ?_
    simp_all

section

variable (ho : b.InOrder) (hb : b.Valid) (hplain : ∀ x ∈ log, Plain x.2) (h : b.run log = .ok (b', j))
include ho hb hplain h

/-- In a strict FIFO buffer a message leaves after every older one that left, unless it was put aside
before. -/
lemma InOrder.left_pairwise :
    j.left.Pairwise fun x y => ¬ AsideIn b j y.msgCounter → x.msgCounter < y.msgCounter := by
  induction log generalizing b j with
  | nil =>
    cases h
    exact .nil
  | cons x log ih =>
    obtain ⟨t, c⟩ := x
    obtain ⟨b1, j1, hperf, hrun, hleft, hstalled⟩ := run_cons h
    have hb1 := hb.performed hperf
    have hrest := ih (ho.performed hb (hplain _ (mem_cons_self ..)) hperf) hb1
      (fun y hy => hplain y (mem_cons_of_mem _ hy)) hrun
    have hrest' : j1.left.Pairwise fun x y => ¬ AsideIn b j y.msgCounter → x.msgCounter < y.msgCounter := by
      grind [List.Pairwise.imp, AsideIn.of_performed]
    rw [hleft]
    cases hperf with
    | enqueue => exact hrest'
    | stallMessage => exact hrest'
    | reanalyzeMessages => exact hrest'
    | reanalyzeAllMessages => exact hrest'
    | recycle => exact hrest'
    | dequeue hpop hpos =>
      refine pairwise_cons.mpr ⟨?_, hrest'⟩
      intro y hy hnot
      rcases hb1.mem_of_left hrun hy with hold | hnew
      · obtain ⟨m, hm, heq⟩ := mem_map.mp hold
        rw [← heq]
        rcases mem_append.mp hm with hm | hm
        · exact ho.front_lt hb hpos t hm
        · -- The stall map is that of before the call.
          refine absurd (.inl ?_) hnot
          rw [← heq]
          exact mem_map_of_mem hm
      · have hfront : b.front ∈ b.contents :=
          (hb.contents_afterPop hpos t).mem_iff.mpr (mem_cons_self ..)
        exact Nat.lt_of_le_of_lt (hb.fresh _ hfront) hnew

lemma InOrder.run : b'.InOrder := by
  induction log generalizing b j with
  | nil =>
    cases h
    exact ho
  | cons x log ih => grind [run_cons, InOrder.performed, Valid.performed]

end

/-- The call puts the messages stalled on an address back. -/
def Reanalyzes (addr : ℕ) : Call → Prop
  | .reanalyzeMessages addr' => addr' = addr
  | .reanalyzeAllMessages => True
  | _ => False

lemma Valid.not_stalled_of_reanalyzes (hb : b.Valid) {addr : ℕ} (hc : Reanalyzes addr c)
    (h : Performed t b c b') (hm : m ∈ b.stallMsgMap.get addr) :
    m.msgCounter ∉ b'.stallMsgMap.values.map Message.msgCounter := by
  have hvalues := (ListMap.values_erase addr b.stallMsgMap).map Message.msgCounter
  cases h with
  | enqueue => exact hc.elim
  | dequeue => exact hc.elim
  | stallMessage => exact hc.elim
  | recycle => exact hc.elim
  | reanalyzeAllMessages => exact not_mem_nil
  | reanalyzeMessages addr' =>
    obtain rfl : addr' = addr := hc
    have hnodup := hb.nodup
    rw [contents, map_append] at hnodup
    have hsplit := hvalues.nodup_iff.mp (nodup_append.mp hnodup).2.1
    rw [map_append] at hsplit
    intro hmem
    exact (nodup_append.mp hsplit).2.2 _ (mem_map_of_mem hm) _ hmem rfl

/-- Over any sequence of calls on a new buffer:

* the heap is a heap, whose front, which is what `dequeue` takes, is least in arrival time and then
  in the order of the `enqueue`s,
* each message enqueued is in the heap, in the stall map or out, and in one place only,
* in a strict FIFO buffer without warmup, bypass and `recycle`, the messages that are never stalled
  leave in the order in which they were enqueued, and so do those stalled on one address from the
  call that reanalyzes them, if they are not stalled again. -/
theorem messages_in_order {b₀ : HeapBuffer} (hnew : b₀.IsNew) {log : List (ℕ × Call)} {j : Journal}
    (hrun : b₀.run log = .ok (b, j)) :
    (IsHeap before b.prioHeap.size b.prioHeap ∧ ∀ t b' called, b.dequeue t = .ok (b', called) →
        b.prioHeap.toList.Perm (b.front :: b'.prioHeap.toList) ∧ b'.stallMsgMap = b.stallMsgMap ∧
          ∀ m ∈ b.prioHeap.toList, b.front.lastEnqueueTime < m.lastEnqueueTime ∨
            (b.front.lastEnqueueTime = m.lastEnqueueTime ∧ b.front.msgCounter ≤ m.msgCounter)) ∧
    (((j.left ++ b.prioHeap.toList ++ b.stallMsgMap.values).map body).Perm (sentBy 0 log) ∧
      ((j.left ++ b.prioHeap.toList ++ b.stallMsgMap.values).map Message.msgCounter).Nodup) ∧
    (b₀.strictFifo = true → (∀ x ∈ log, Plain x.2) →
      (j.left.filter fun m => decide (m.msgCounter ∉ j.stalled.map Message.msgCounter)).Pairwise
        (fun m m' => m.msgCounter < m'.msgCounter) ∧
      ∀ log₁ t addr c log₂ b₁ j₁ b₂ j₂, log = log₁ ++ (t, c) :: log₂ → Reanalyzes addr c →
        b₀.run log₁ = .ok (b₁, j₁) → b₁.perform t c = .ok b₂ → b₂.run log₂ = .ok (b, j₂) →
        (j₂.left.filter fun m => decide (m.msgCounter ∈ (b₁.stallMsgMap.get addr).map Message.msgCounter ∧
          m.msgCounter ∉ j₂.stalled.map Message.msgCounter)).Pairwise (fun m m' => m.msgCounter < m'.msgCounter)) := by
  have hempty : b₀.contents = [] ∧ b₀.msgCounter = 0 ∧ b₀.stallMsgMap.values = [] := by
    rw [hnew]
    exact ⟨rfl, rfl, rfl⟩
  have hvalid₀ := hnew.valid
  have hvalid := hvalid₀.run hrun
  refine ⟨⟨hvalid.heap, ?_⟩, ?_, ?_⟩
  · intro t b' called hdeq
    obtain ⟨-, hpos, rfl⟩ := dequeue_ok hdeq
    refine ⟨hvalid.heap_perm hpos, rfl, ?_⟩
    intro m hm
    exact before_iff.mp (hvalid.front_le hm)
  · have hperm := hvalid₀.run_perm hrun
    rw [hempty.1, hempty.2.1, map_nil, append_nil] at hperm
    rw [append_assoc]
    refine ⟨hperm, ?_⟩
    have hcounts := (hperm.map Message.msgCounter).nodup_iff.mpr (nodup_sentBy 0 log)
    rw [map_map] at hcounts
    exact hcounts
  · intro hstrict hplain
    have hord₀ := hnew.inOrder hstrict
    refine ⟨?_, ?_⟩
    · have hpair := hord₀.left_pairwise hvalid₀ hplain hrun
      refine (hpair.filter _).imp_of_mem ?_
      intro m m' _ hm' hlt
      apply hlt
      rintro (haside | haside)
      · rw [hempty.2.2] at haside
        cases haside
      · exact of_decide_eq_true (mem_filter.mp hm').2 haside
    · rintro log₁ t addr c log₂ b₁ j₁ b₂ j₂ rfl hc hrun₁ hperf hrun₂
      have hvalid₁ := hvalid₀.run hrun₁
      have hord₁ := hord₀.run hvalid₀ (fun x hx => hplain x (mem_append_left _ hx)) hrun₁
      have hplain₂ : ∀ x ∈ (t, c) :: log₂, Plain x.2 := fun x hx => hplain x (mem_append_right _ hx)
      have hstep := performed_of_ok hperf
      have hord₂ := hord₁.performed hvalid₁ (hplain₂ _ (mem_cons_self ..)) hstep
      have hpair := hord₂.left_pairwise (hvalid₁.performed hstep)
        (fun x hx => hplain₂ x (mem_cons_of_mem _ hx)) hrun₂
      refine (hpair.filter _).imp_of_mem ?_
      intro m m' _ hm' hlt
      obtain ⟨hfrom, hnot⟩ := of_decide_eq_true (mem_filter.mp hm').2
      apply hlt
      rintro (haside | haside)
      · obtain ⟨m₁, hm₁, heq⟩ := mem_map.mp hfrom
        rw [← heq] at haside
        exact hvalid₁.not_stalled_of_reanalyzes hc hstep hm₁ haside
      · exact hnot haside

/-- Two messages are enqueued, stalled on one address, reanalyzed and dequeued. -/
def stallPair : List (ℕ × Call) :=
  [(0, .enqueue { payload := 0, destination := [], size := 0, time := 0 } 1 false false 0 false),
    (0, .enqueue { payload := 1, destination := [], size := 0, time := 0 } 1 false false 0 false),
    (1, .stallMessage 5), (1, .stallMessage 5), (2, .reanalyzeMessages 5), (2, .dequeue), (2, .dequeue)]

theorem messages_in_order_stallPair :
    ∃ b j, run stallPair { strictFifo := true } = .ok (b, j) ∧ j.left.map Message.msgCounter = [1, 2] ∧
      IsHeap before b.prioHeap.size b.prioHeap := by
  have hnew : IsNew { strictFifo := true } := rfl
  have hrun : ∃ b j, run stallPair { strictFifo := true } = .ok (b, j) ∧ j.left.map Message.msgCounter = [1, 2] :=
    ⟨_, _, rfl, rfl⟩
  obtain ⟨b, j, hrun, hleft⟩ := hrun
  exact ⟨b, j, hrun, hleft, (messages_in_order hnew hrun).1.1⟩

end Gem5.Ruby.HeapBuffer
