import Gem5.Sim.EventQueue

/-!
# Scheduling on the event queue

`schedule`, `deschedule`, `reschedule` and `serviceOne` of `sim/eventq.hh`, for one queue in one
thread, so that an event is always put into the queue itself and not into its list of asynchronous
insertions. What the `process` function of an event does to the queue are the calls that come right
after the `serviceOne` that takes it: nothing else is done to the queue in that `serviceOne`.

The loops run along linked lists. A call returns when it returns for all large enough numbers of
steps (`Returns`).
-/

namespace Gem5.Sim

open Lib Function List Bin

/-- An `EventQueue`, with the data of the events. -/
structure EventQueue where
  /-- `head`, and the pointers of the events. -/
  lists : EventLists := {}
  /-- `_curTick`. -/
  curTick : ℕ := 0
  /-- `_when` and `_priority` of the events. -/
  stamp : ℕ → Stamp
  /-- The flag `Scheduled` of the events. -/
  scheduled : ℕ → Bool := fun _ => false
  /-- The flag `Squashed` of the events. -/
  squashed : ℕ → Bool := fun _ => false

namespace EventQueue

/-- `event->setWhen(when, this)`. -/
def setWhen (event when : ℕ) (q : EventQueue) : EventQueue :=
  { q with stamp := update q.stamp event { q.stamp event with when := when } }

/-- `insert(event)`. -/
def insert (fuel event : ℕ) (q : EventQueue) : Except EventqFault EventQueue := do
  let lists ← q.lists.insert q.stamp fuel event
  pure { q with lists := lists }

/-- `remove(event)`. -/
def remove (fuel event : ℕ) (q : EventQueue) : Except EventqFault EventQueue := do
  let lists ← q.lists.remove q.stamp fuel event
  pure { q with lists := lists }

/-- `schedule(event, when)`. -/
def schedule (fuel event when : ℕ) (q : EventQueue) : Except EventqFault EventQueue := do
  ensure (decide (q.curTick ≤ when)) .pastTick
  ensure (!q.scheduled event) .alreadyScheduled
  let q ← (q.setWhen event when).insert fuel event
  pure { q with scheduled := update q.scheduled event true }

/-- `deschedule(event)`. -/
def deschedule (fuel event : ℕ) (q : EventQueue) : Except EventqFault EventQueue := do
  ensure (q.scheduled event) .notScheduled
  let q ← q.remove fuel event
  pure { q with
    squashed := update q.squashed event false
    scheduled := update q.scheduled event false }

/-- `reschedule(event, when, always)`. -/
def reschedule (fuel event when : ℕ) (always : Bool) (q : EventQueue) : Except EventqFault EventQueue := do
  ensure (decide (q.curTick ≤ when)) .pastTick
  ensure (always || q.scheduled event) .notScheduled
  let q ← if q.scheduled event then q.remove fuel event else pure q
  let q ← (q.setWhen event when).insert fuel event
  pure { q with
    squashed := update q.squashed event false
    scheduled := update q.scheduled event true }

/-- `event->squash()`. -/
def squash (event : ℕ) (q : EventQueue) : EventQueue :=
  { q with squashed := update q.squashed event true }

/-- `serviceOne()` without what the event's `process` does: the event it takes. -/
def serviceOne (q : EventQueue) : Except EventqFault (ℕ × EventQueue) := do
  let (event, lists) ← q.lists.popHead
  let q := { q with lists := lists, scheduled := update q.scheduled event false }
  if q.squashed event then pure (event, { q with squashed := update q.squashed event false })
  else pure (event, { q with curTick := (q.stamp event).when })

inductive Call where
  | schedule (event when : ℕ)
  | deschedule (event : ℕ)
  | reschedule (event when : ℕ) (always : Bool)
  | squash (event : ℕ)
  | serviceOne
  deriving DecidableEq, Repr

def perform (fuel : ℕ) (q : EventQueue) : Call → Except EventqFault EventQueue
  | .schedule event when => q.schedule fuel event when
  | .deschedule event => q.deschedule fuel event
  | .reschedule event when always => q.reschedule fuel event when always
  | .squash event => pure (q.squash event)
  | .serviceOne => do
    let (_, q') ← q.serviceOne
    pure q'

/-- The call returns `q'` once its loops are given steps enough. -/
def Returns (q : EventQueue) (c : Call) (q' : EventQueue) : Prop := ∃ N, ∀ fuel ≥ N, q.perform fuel c = .ok q'

/-- The asserts of the call, and that `serviceOne` is called on a queue with events only. -/
def Allows (q : EventQueue) : Call → Prop
  | .schedule event when => q.curTick ≤ when ∧ q.scheduled event = false
  | .deschedule event => q.scheduled event = true
  | .reschedule event when always => q.curTick ≤ when ∧ (always = true ∨ q.scheduled event = true)
  | .squash _ => True
  | .serviceOne => q.lists.head ≠ none

def Call.inserted : Call → List ℕ
  | .schedule event _ => [event]
  | .reschedule event _ _ => [event]
  | _ => []

/-- Reached from a new queue by calls. The list is of the events inserted, the latest first. -/
inductive Reachable : EventQueue → List ℕ → Prop
  | new (stamp : ℕ → Stamp) (curTick : ℕ) : Reachable { stamp, curTick } []
  | call {q q' : EventQueue} {log : List ℕ} (c : Call) : Reachable q log → q.Returns c q' →
      Reachable q' (c.inserted ++ log)

/-- `(when, priority)` of an event. -/
def key (q : EventQueue) (event : ℕ) : ℕ ×ₗ ℤ := (q.stamp event).key

/-! ## Bins with the time and the order of insertion -/

/-- The bins hold events of the future, and those of a bin are in the order of their insertion, the
latest first. -/
structure Holds (lists : EventLists) (stamp : ℕ → Stamp) (curTick : ℕ) (log : List ℕ) (bins : List (Bin ℕ)) : Prop where
  rep : lists.Rep bins
  ordered : Bin.Ordered (fun e => (stamp e).key) bins
  future : ∀ e ∈ allItems bins, curTick ≤ (stamp e).when
  latest : ∀ b ∈ bins, b.items.Pairwise fun x y => log.idxOf x < log.idxOf y

variable {lists : EventLists} {stamp : ℕ → Stamp} {curTick : ℕ} {log : List ℕ} {bins : List (Bin ℕ)} {e : ℕ}

lemma mem_insert_bins (key : ℕ → ℕ ×ₗ ℤ) {b : Bin ℕ} (hb : b ∈ Bin.insert key e bins) :
    b ∈ bins ∨ b.items = [e] ∨ ∃ c ∈ bins, b.items = e :: c.items := by
  induction bins with
  | nil =>
    rw [Bin.insert, mem_singleton] at hb
    exact .inr (.inl (by rw [hb]; rfl))
  | cons c bins ih =>
    simp only [Bin.insert] at hb
    split_ifs at hb
    · rcases mem_cons.mp hb with rfl | hb
      · exact .inr (.inl rfl)
      · exact .inl hb
    · grind
    · rcases mem_cons.mp hb with rfl | hb
      · exact .inr (.inr ⟨c, mem_cons_self .., rfl⟩)
      · exact .inl (mem_cons_of_mem _ hb)

lemma pairwise_idxOf_cons {l : List ℕ} (h : l.Pairwise fun x y => log.idxOf x < log.idxOf y) (he : e ∉ l) :
    l.Pairwise fun x y => (e :: log).idxOf x < (e :: log).idxOf y := by
  refine h.imp_of_mem ?_
  intro x y hx hy hlt
  have hxe : e ≠ x := fun heq => he (heq ▸ hx)
  have hye : e ≠ y := fun heq => he (heq ▸ hy)
  rw [idxOf_cons_ne _ hxe, idxOf_cons_ne _ hye]
  omega

lemma Holds.insert (h : Holds lists stamp curTick log bins) (he : e ∉ allItems bins) {when : ℕ}
    (hwhen : curTick ≤ when) :
    let stamp' := update stamp e { stamp e with when := when }
    ∃ lists', (∀ fuel, bins.length ≤ fuel → lists.insert stamp' fuel e = .ok lists') ∧
      Holds lists' stamp' curTick (e :: log) (Bin.insert (fun x => (stamp' x).key) e bins) := by
  intro stamp'
  have hsame : ∀ x ∈ allItems bins, stamp' x = stamp x := by grind
  have hins : ∃ lists', (∀ fuel, bins.length ≤ fuel → lists.insert stamp' fuel e = .ok lists') ∧
      lists'.Rep (Bin.insert (fun x => (stamp' x).key) e bins) := h.rep.insert he
  obtain ⟨lists', hlists', hrep⟩ := hins
  refine ⟨lists', hlists', hrep, ?_, ?_, ?_⟩
  · exact (h.ordered.congr fun x hx => by rw [hsame x hx]).insert
  · intro x hx
    rcases mem_cons.mp ((allItems_insert_perm _ e bins).mem_iff.mp hx) with rfl | hx
    · simpa [stamp'] using hwhen
    · rw [hsame x hx]
      exact h.future x hx
  · intro b hb
    rcases mem_insert_bins _ hb with hb | hb | ⟨c, hc, hb⟩
    · exact pairwise_idxOf_cons (h.latest b hb) fun hmem => he (mem_allItems.mpr ⟨b, hb, hmem⟩)
    · rw [hb]
      exact pairwise_singleton _ _
    · have hnot : e ∉ c.items := fun hmem => he (mem_allItems.mpr ⟨c, hc, hmem⟩)
      rw [hb]
      refine pairwise_cons.mpr ⟨?_, pairwise_idxOf_cons (h.latest c hc) hnot⟩
      grind

lemma Holds.remove (h : Holds lists stamp curTick log bins) (he : e ∈ allItems bins) :
    ∃ lists', (∀ fuel, (allItems bins).length ≤ fuel → lists.remove stamp fuel e = .ok lists') ∧
      Holds lists' stamp curTick log (erase (fun x => (stamp x).key) e bins) := by
  obtain ⟨lists', hlists', hrep⟩ := h.rep.remove h.ordered he
  refine ⟨lists', hlists', hrep, h.ordered.erase, ?_, ?_⟩
  · intro x hx
    exact h.future x ((h.ordered.allItems_erase_perm he).mem_iff.mpr (mem_cons_of_mem _ hx))
  · intro b hb
    obtain ⟨c, hc, hsub⟩ := mem_erase hb
    exact (h.latest c hc).sublist hsub

lemma when_le_of_key_le {s s' : Stamp} (h : s.key ≤ s'.key) : s.when ≤ s'.when := by
  rcases Prod.Lex.toLex_le_toLex.mp h with hlt | heq
  · exact hlt.le
  · exact heq.1.le

lemma Holds.popHead {b : Bin ℕ} {post : List (Bin ℕ)} (h : Holds lists stamp curTick log (b :: post)) :
    curTick ≤ (stamp b.top).when ∧ ∃ lists', lists.popHead = .ok (b.top, lists') ∧
      ∀ t, t = curTick ∨ t = (stamp b.top).when →
        Holds lists' stamp t log (erase (fun x => (stamp x).key) b.top (b :: post)) := by
  have htop : b.top ∈ allItems (b :: post) := mem_append_left _ b.top_mem_items
  have hrest : ∀ x ∈ allItems (erase (fun x => (stamp x).key) b.top (b :: post)),
      x ∈ allItems (b :: post) := fun x hx =>
    (h.ordered.allItems_erase_perm htop).mem_iff.mpr (mem_cons_of_mem _ hx)
  obtain ⟨lists', hlists', hrep⟩ := h.rep.popHead_eq
  refine ⟨h.future _ htop, lists', hlists', ?_⟩
  intro t ht
  have herase : erase (fun x => (stamp x).key) b.top (b :: post) = ofList b.below ++ post := erase_top b post
  rw [← herase] at hrep
  refine ⟨hrep, h.ordered.erase, ?_, ?_⟩
  · intro x hx
    rcases ht with rfl | rfl
    · exact h.future x (hrest x hx)
    · exact when_le_of_key_le (h.ordered.first_le (hrest x hx))
  · intro b' hb'
    obtain ⟨c, hc, hsub⟩ := mem_erase hb'
    exact (h.latest c hc).sublist hsub

/-! ## Calls -/

/-- The events of the bins are the scheduled ones. -/
structure Good (q : EventQueue) (log : List ℕ) (bins : List (Bin ℕ)) : Prop where
  holds : Holds q.lists q.stamp q.curTick log bins
  scheduled : ∀ x, q.scheduled x = true ↔ x ∈ allItems bins

variable {q q' : EventQueue}

section

variable {f : ℕ → Bool} {l l' : List ℕ} (hf : ∀ x, f x = true ↔ x ∈ l)
include hf

lemma update_iff_of_perm (h : l'.Perm (e :: l)) (x : ℕ) : update f e true x = true ↔ x ∈ l' := by grind

lemma update_iff_of_perm_cons (h : l.Perm (e :: l')) (hnodup : l.Nodup) (x : ℕ) :
    update f e false x = true ↔ x ∈ l' := by
  have hmem := h.mem_iff (a := x)
  rw [mem_cons, ← hf x] at hmem
  rcases eq_or_ne x e with rfl | hx
  · grind
  · rw [update_of_ne hx, hmem]
    simp [hx]

end

section

variable (hg : q.Good log bins)
include hg

lemma Good.schedule {when : ℕ} (hwhen : q.curTick ≤ when) (hnot : q.scheduled e = false) :
    ∃ q' bins', (∀ fuel, bins.length ≤ fuel → q.schedule fuel e when = .ok q') ∧ q'.Good (e :: log) bins' ∧
      q'.curTick = q.curTick := by
  have he : e ∉ allItems bins := by grind [Good.scheduled]
  obtain ⟨lists', hlists', hholds⟩ := hg.holds.insert he hwhen
  refine ⟨{ q.setWhen e when with lists := lists', scheduled := update q.scheduled e true }, _,
    fun fuel hfuel => ?_, ⟨hholds, ?_⟩, rfl⟩
  · refine bind_eq_ok.mpr ⟨⟨⟩, ensure_eq_ok.mpr (by simpa using hwhen), ?_⟩
    refine bind_eq_ok.mpr ⟨⟨⟩, ensure_eq_ok.mpr (by simp [hnot]), ?_⟩
    exact bind_eq_ok.mpr ⟨_, bind_eq_ok.mpr ⟨_, hlists' fuel hfuel, rfl⟩, rfl⟩
  · exact update_iff_of_perm hg.scheduled (Bin.allItems_insert_perm _ e bins)

lemma Good.deschedule (hsched : q.scheduled e = true) :
    ∃ q' bins', (∀ fuel, (allItems bins).length ≤ fuel → q.deschedule fuel e = .ok q') ∧ q'.Good log bins' ∧
      q'.curTick = q.curTick := by
  have he := (hg.scheduled e).mp hsched
  obtain ⟨lists', hlists', hholds⟩ := hg.holds.remove he
  refine ⟨{ q with
    lists := lists'
    squashed := update q.squashed e false
    scheduled := update q.scheduled e false }, _, fun fuel hfuel => ?_, ⟨hholds, ?_⟩, rfl⟩
  · refine bind_eq_ok.mpr ⟨⟨⟩, ensure_eq_ok.mpr hsched, ?_⟩
    exact bind_eq_ok.mpr ⟨_, bind_eq_ok.mpr ⟨_, hlists' fuel hfuel, rfl⟩, rfl⟩
  · exact update_iff_of_perm_cons hg.scheduled (hg.holds.ordered.allItems_erase_perm he) hg.holds.rep.nodup

lemma Good.reschedule {when : ℕ} {always : Bool} (hwhen : q.curTick ≤ when)
    (hc : always = true ∨ q.scheduled e = true) :
    ∃ q' bins', (∀ fuel, (allItems bins).length ≤ fuel → q.reschedule fuel e when always = .ok q') ∧
      q'.Good (e :: log) bins' ∧ q'.curTick = q.curTick := by
  have hcheck : (always || q.scheduled e) = true := by simpa using hc
  let after (lists' : EventLists) : EventQueue :=
    { q.setWhen e when with
      lists := lists'
      squashed := update q.squashed e false
      scheduled := update q.scheduled e true }
  cases hsched : q.scheduled e with
  | false =>
    have he : e ∉ allItems bins := by grind [Good.scheduled]
    obtain ⟨lists', hlists', hholds⟩ := hg.holds.insert he hwhen
    refine ⟨after lists', _, fun fuel hfuel => ?_, ⟨hholds, ?_⟩, rfl⟩
    · have hlen := (length_le_allItems bins).trans hfuel
      refine bind_eq_ok.mpr ⟨⟨⟩, ensure_eq_ok.mpr (by simpa using hwhen), ?_⟩
      refine bind_eq_ok.mpr ⟨⟨⟩, ensure_eq_ok.mpr hcheck, ?_⟩
      simp only [hsched, Bool.false_eq_true, if_false]
      refine bind_eq_ok.mpr ⟨q, rfl, ?_⟩
      exact bind_eq_ok.mpr ⟨_, bind_eq_ok.mpr ⟨_, hlists' fuel hlen, rfl⟩, rfl⟩
    · exact update_iff_of_perm hg.scheduled (Bin.allItems_insert_perm _ e bins)
  | true =>
    have he := (hg.scheduled e).mp hsched
    have hperm := hg.holds.ordered.allItems_erase_perm he
    obtain ⟨lists₁, hlists₁, hholds₁⟩ := hg.holds.remove he
    have hnot : e ∉ allItems (erase (fun x => (q.stamp x).key) e bins) :=
      (nodup_cons.mp (hperm.nodup_iff.mp hg.holds.rep.nodup)).1
    obtain ⟨lists', hlists', hholds⟩ := hholds₁.insert hnot hwhen
    refine ⟨after lists', _, fun fuel hfuel => ?_, ⟨hholds, ?_⟩, rfl⟩
    · have hlen : (erase (fun x => (q.stamp x).key) e bins).length ≤ fuel := by
        have hcount := hperm.length_eq
        have := length_le_allItems (erase (fun x => (q.stamp x).key) e bins)
        rw [length_cons] at hcount
        omega
      refine bind_eq_ok.mpr ⟨⟨⟩, ensure_eq_ok.mpr (by simpa using hwhen), ?_⟩
      refine bind_eq_ok.mpr ⟨⟨⟩, ensure_eq_ok.mpr hcheck, ?_⟩
      simp only [hsched, if_true]
      refine bind_eq_ok.mpr ⟨{ q with lists := lists₁ }, ?_, ?_⟩
      · exact bind_eq_ok.mpr ⟨_, hlists₁ fuel hfuel, rfl⟩
      · exact bind_eq_ok.mpr ⟨_, bind_eq_ok.mpr ⟨_, hlists' fuel hlen, rfl⟩, rfl⟩
    · -- The event was scheduled and is again.
      grind [allItems_insert_perm, Good.scheduled]

lemma Good.serviceOne (hhead : q.lists.head ≠ none) :
    ∃ b post q' bins', bins = b :: post ∧ q.serviceOne = .ok (b.top, q') ∧ q'.Good log bins' ∧
      q.curTick ≤ q'.curTick := by
  have htops := hg.holds.rep.tops.head?_eq
  cases bins with
  | nil => exact absurd htops hhead
  | cons b post =>
    obtain ⟨htime, lists', hlists', hholds⟩ := hg.holds.popHead
    have hperm := hg.holds.ordered.allItems_erase_perm (mem_append_left _ b.top_mem_items)
    have hsched := update_iff_of_perm_cons hg.scheduled hperm hg.holds.rep.nodup
    cases hsquash : q.squashed b.top with
    | true =>
      refine ⟨b, post, { q with
        lists := lists'
        scheduled := update q.scheduled b.top false
        squashed := update q.squashed b.top false }, _, rfl, ?_, ⟨hholds _ (.inl rfl), hsched⟩, Nat.le_refl _⟩
      refine bind_eq_ok.mpr ⟨_, hlists', ?_⟩
      simp [hsquash]
      rfl
    | false =>
      refine ⟨b, post, { q with
        lists := lists'
        scheduled := update q.scheduled b.top false
        curTick := (q.stamp b.top).when }, _, rfl, ?_, ⟨hholds _ (.inr rfl), hsched⟩, htime⟩
      refine bind_eq_ok.mpr ⟨_, hlists', ?_⟩
      simp [hsquash]
      rfl

lemma Good.perform {c : Call} (hc : q.Allows c) :
    ∃ q' bins', q.Returns c q' ∧ q'.Good (c.inserted ++ log) bins' ∧ q.curTick ≤ q'.curTick := by
  cases c with
  | schedule event when =>
    obtain ⟨q', bins', hret, hgood, htick⟩ := hg.schedule hc.1 hc.2
    exact ⟨q', bins', ⟨_, fun fuel hfuel => hret fuel hfuel⟩, hgood, htick.ge⟩
  | deschedule event =>
    obtain ⟨q', bins', hret, hgood, htick⟩ := hg.deschedule hc
    exact ⟨q', bins', ⟨_, fun fuel hfuel => hret fuel hfuel⟩, hgood, htick.ge⟩
  | reschedule event when always =>
    obtain ⟨q', bins', hret, hgood, htick⟩ := hg.reschedule hc.1 hc.2
    exact ⟨q', bins', ⟨_, fun fuel hfuel => hret fuel hfuel⟩, hgood, htick.ge⟩
  | squash event => exact ⟨_, bins, ⟨0, fun _ _ => rfl⟩, ⟨hg.holds, hg.scheduled⟩, Nat.le_refl _⟩
  | serviceOne =>
    obtain ⟨b, post, q', bins', -, hret, hgood, htick⟩ := hg.serviceOne hc
    exact ⟨q', bins', ⟨0, fun _ _ => bind_eq_ok.mpr ⟨_, hret, rfl⟩⟩, hgood, htick⟩

end

lemma allows_of_returns {c : Call} (h : q.Returns c q') : q.Allows c := by
  obtain ⟨N, hret⟩ := h
  have hret := hret N (Nat.le_refl N)
  cases c with
  | schedule event when =>
    obtain ⟨_, hwhen, hret⟩ := bind_eq_ok.mp hret
    obtain ⟨_, hnot, -⟩ := bind_eq_ok.mp hret
    rw [ensure_eq_ok] at hwhen hnot
    exact ⟨of_decide_eq_true hwhen, by simpa using hnot⟩
  | deschedule event =>
    obtain ⟨_, hsched, -⟩ := bind_eq_ok.mp hret
    exact ensure_eq_ok.mp hsched
  | reschedule event when always =>
    obtain ⟨_, hwhen, hret⟩ := bind_eq_ok.mp hret
    obtain ⟨_, hc, -⟩ := bind_eq_ok.mp hret
    rw [ensure_eq_ok] at hwhen hc
    exact ⟨of_decide_eq_true hwhen, by simpa using hc⟩
  | squash event => trivial
  | serviceOne =>
    intro hnone
    obtain ⟨_, hserv, -⟩ := bind_eq_ok.mp hret
    obtain ⟨_, hpop, -⟩ := bind_eq_ok.mp hserv
    rw [EventLists.popHead, hnone] at hpop
    cases hpop

lemma Returns.unique {c : Call} {q1 q2 : EventQueue} (h1 : q.Returns c q1) (h2 : q.Returns c q2) : q1 = q2 := by
  obtain ⟨N1, h1⟩ := h1
  obtain ⟨N2, h2⟩ := h2
  have h1 := h1 (max N1 N2) (Nat.le_max_left ..)
  grind

lemma Reachable.good (h : Reachable q log) : ∃ bins, q.Good log bins := by
  induction h with
  | new stamp curTick =>
    refine ⟨[], ⟨⟨rfl, ?_, ?_, nodup_nil⟩, ⟨?_, .nil⟩, ?_, ?_⟩, ?_⟩
    · intro b hb
      cases hb
    · intro e
      simp
    · intro b hb
      cases hb
    · intro e he
      cases he
    · intro b hb
      cases hb
    · intro x
      simp
  | call c _ hret ih =>
    obtain ⟨bins, hgood⟩ := ih
    obtain ⟨q1, bins', hret1, hgood₁, -⟩ := hgood.perform (allows_of_returns hret)
    grind [Returns.unique]

/-- In every queue that calls lead to, those of an event being processed among them:

* the pointers are those of bins, whose keys grow and each of which holds events of its key; each
  scheduled event is in one of them, once; the `nextBin` pointers that count are those of the tops,
* every call whose asserts hold returns: no event is missing, no stale pointer is followed, no loop
  goes on forever; the current tick does not go back,
* `serviceOne` takes a scheduled event with the least key, and of those the one inserted last. -/
theorem events_in_order (h : Reachable q log) :
    (∃ bins, q.lists.Rep bins ∧ Bin.Ordered q.key bins ∧ (Bin.allItems bins).Nodup ∧
      (∀ x, q.scheduled x = true ↔ x ∈ Bin.allItems bins) ∧
      ∀ x, q.lists.stale x = false ↔ x ∈ bins.map Bin.top) ∧
    (∀ c, q.Allows c → ∃ q', q.Returns c q' ∧ q.curTick ≤ q'.curTick) ∧
    ∀ event q', q.serviceOne = .ok (event, q') → q.scheduled event = true ∧ ∀ x, q.scheduled x = true →
        q.key event ≤ q.key x ∧ (q.key x = q.key event → x ≠ event → log.idxOf event < log.idxOf x) := by
  obtain ⟨bins, hg⟩ := h.good
  refine ⟨⟨bins, hg.holds.rep, hg.holds.ordered, hg.holds.rep.nodup, hg.scheduled, hg.holds.rep.fresh⟩, ?_, ?_⟩
  · intro c hc
    obtain ⟨q', bins', hret, -, htick⟩ := hg.perform hc
    exact ⟨q', hret, htick⟩
  · intro event q' hserv
    have hhead : q.lists.head ≠ none := by
      intro hnone
      obtain ⟨_, hpop, -⟩ := bind_eq_ok.mp hserv
      rw [EventLists.popHead, hnone] at hpop
      cases hpop
    obtain ⟨b, post, q₁, bins', rfl, hserv₁, -, -⟩ := hg.serviceOne hhead
    rw [hserv] at hserv₁
    cases hserv₁
    have hord := hg.holds.ordered
    refine ⟨(hg.scheduled _).mpr (mem_append_left _ b.top_mem_items), ?_⟩
    intro x hx
    have hmem := (hg.scheduled x).mp hx
    refine ⟨hord.first_le hmem, ?_⟩
    intro hkey hne
    have hitem := hord.mem_first hmem (by exact hkey.not_gt)
    have hlatest := pairwise_cons.mp (hg.holds.latest b (mem_cons_self ..))
    rcases mem_cons.mp hitem with heq | hbelow
    · exact absurd heq hne
    · exact hlatest.1 x hbelow

/-- Of two events at one time the one scheduled last is taken first. -/
theorem events_in_order_pair :
    ∃ q q', Reachable q [1, 0] ∧ q.serviceOne = .ok (1, q') ∧ q.key 1 ≤ q.key 0 ∧ [1, 0].idxOf 1 < [1, 0].idxOf 0 := by
  have hnew : Reachable { stamp := fun _ => ⟨0, 0⟩, curTick := 0 } [] := .new _ _
  have hrun : ∃ q, Reachable q [0] ∧ ∃ q₂, q.Returns (.schedule 1 5) q₂ ∧ ∃ q₃, q₂.serviceOne = .ok (1, q₃) ∧
      q₂.scheduled 0 = true ∧ q₂.key 0 = q₂.key 1 :=
    ⟨_, .call (.schedule 0 5) hnew ⟨0, fun _ _ => rfl⟩, _, ⟨0, fun _ _ => rfl⟩, _, rfl, rfl, rfl⟩
  obtain ⟨q, hq, q₂, hret, q₃, hserv, hsched, hkey⟩ := hrun
  have hreach : Reachable q₂ [1, 0] := .call (.schedule 1 5) hq hret
  obtain ⟨hle, hlast⟩ := ((events_in_order hreach).2.2 1 q₃ hserv).2 0 hsched
  exact ⟨q₂, q₃, hreach, hserv, hle, hlast hkey (by decide)⟩

end EventQueue

end Gem5.Sim
