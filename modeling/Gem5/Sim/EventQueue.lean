import Gem5.Lib.Except
import Gem5.Lib.Linked

/-!
# The event queue

`sim/eventq.cc`: a linked list of bins, one for each time and priority, each a linked list of events
itself. Only the top event of a bin links to the next bin; the `nextBin` pointers of the others are
left over from when they were on top. An event is a number, and the two pointers of all events are
functions.

`stale` is not in the code. It marks the events whose `nextBin` does not count, and following one is
an error of the model, so that a run without that error has followed none.
-/

namespace Gem5.Sim

open Lib Function List Bin

inductive EventqFault where
  /-- `assert(when >= getCurTick())`. -/
  | pastTick
  /-- `assert(!event->scheduled())`. -/
  | alreadyScheduled
  /-- `assert(event->scheduled())`. -/
  | notScheduled
  /-- `serviceOne` of an empty queue follows a null pointer. -/
  | emptyQueue
  /-- `panic("event not found!")`. -/
  | notFound
  /-- A pointer that does not count any more is followed. -/
  | staleFollowed
  /-- A loop has not ended. -/
  | outOfFuel
  deriving DecidableEq, Repr

structure Stamp where
  /-- `_when`. -/
  when : ℕ
  /-- `_priority`. -/
  priority : ℤ
  deriving DecidableEq, Repr

namespace Stamp

/-- `operator<`. -/
def lt (l r : Stamp) : Bool := decide (l.when < r.when) || (decide (l.when = r.when) && decide (l.priority < r.priority))

/-- `operator<=`. -/
def le (l r : Stamp) : Bool := decide (l.when < r.when) || (decide (l.when = r.when) && decide (l.priority ≤ r.priority))

/-- `operator==`. -/
def eq (l r : Stamp) : Bool := decide (l.when = r.when) && decide (l.priority = r.priority)

def key (s : Stamp) : ℕ ×ₗ ℤ := toLex (s.when, s.priority)

variable {l r : Stamp}

lemma lt_iff : l.lt r = true ↔ l.key < r.key := by
  simp [lt, key, Prod.Lex.toLex_lt_toLex]

lemma le_iff : l.le r = true ↔ l.key ≤ r.key := by
  simp [le, key, Prod.Lex.toLex_le_toLex]

lemma eq_iff : l.eq r = true ↔ l.key = r.key := by
  simp [eq, key, Prod.ext_iff]

end Stamp

/-- The head of a queue and the pointers of the events. -/
structure EventLists where
  /-- `head`. -/
  head : Option ℕ := none
  /-- `nextBin`. -/
  nextBin : ℕ → Option ℕ := fun _ => none
  /-- `nextInBin`. -/
  nextInBin : ℕ → Option ℕ := fun _ => none
  /-- The events whose `nextBin` does not count. -/
  stale : ℕ → Bool := fun _ => true

namespace EventLists

/-- `event->nextBin`, where it is read. -/
def followBin (event : ℕ) (s : EventLists) : Except EventqFault (Option ℕ) :=
  if s.stale event then .error .staleFollowed else .ok (s.nextBin event)

variable (ev : ℕ → Stamp)

/-- `Event::insertBefore(event, curr)`, which returns `event`. -/
def insertBefore (event : ℕ) (curr : Option ℕ) (s : EventLists) : Except EventqFault EventLists :=
  match curr with
  | none =>
    .ok { s with
      nextBin := update s.nextBin event none
      nextInBin := update s.nextInBin event none
      stale := update s.stale event false }
  | some c =>
    if (ev event).lt (ev c) then
      .ok { s with
        nextBin := update s.nextBin event (some c)
        nextInBin := update s.nextInBin event none
        stale := update s.stale event false }
    else do
      let nextBin ← s.followBin c
      pure { s with
        nextBin := update s.nextBin event nextBin
        nextInBin := update s.nextInBin event (some c)
        stale := update (update s.stale event false) c true }

/-- `while (curr && *curr < *event)` of `insert` and `remove`: `prev` and `curr` at its end. -/
def seekBin (s : EventLists) (event : ℕ) : ℕ → ℕ → Option ℕ → Except EventqFault (ℕ × Option ℕ)
  | _, prev, none => .ok (prev, none)
  | 0, prev, some c => if (ev c).lt (ev event) then .error .outOfFuel else .ok (prev, some c)
  | fuel + 1, prev, some c =>
    if (ev c).lt (ev event) then do
      let nextBin ← s.followBin c
      seekBin s event fuel c nextBin
    else .ok (prev, some c)

/-- `EventQueue::insert(event)`. -/
def insert (fuel event : ℕ) (s : EventLists) : Except EventqFault EventLists :=
  match s.head with
  | none => do
    let s' ← insertBefore ev event none s
    pure { s' with head := some event }
  | some h =>
    if (ev event).le (ev h) then do
      let s' ← insertBefore ev event (some h) s
      pure { s' with head := some event }
    else do
      let nextBin ← s.followBin h
      let (prev, curr) ← seekBin ev s event fuel h nextBin
      let s' ← insertBefore ev event curr s
      pure { s' with nextBin := update s'.nextBin prev (some event) }

/-- `while (event != next)` of `removeItem`: `curr` at its end. -/
def seekInBin (s : EventLists) (event : ℕ) : ℕ → ℕ → Option ℕ → Except EventqFault ℕ
  | _, _, none => .error .notFound
  | 0, curr, some n => if event = n then .ok curr else .error .outOfFuel
  | fuel + 1, curr, some n => if event = n then .ok curr else seekInBin s event fuel n (s.nextInBin n)

/-- `Event::removeItem(event, top)`: what it returns, and the pointers. -/
def removeItem (fuel event top : ℕ) (s : EventLists) : Except EventqFault (Option ℕ × EventLists) :=
  if event = top then
    match s.nextInBin top with
    | none => do
      let nextBin ← s.followBin top
      pure (nextBin, { s with stale := update s.stale top true })
    | some next => do
      let nextBin ← s.followBin top
      pure (some next, { s with
        nextBin := update s.nextBin next nextBin
        stale := update (update s.stale top true) next false })
  else do
    let curr ← seekInBin s event fuel top (s.nextInBin top)
    pure (some top, { s with nextInBin := update s.nextInBin curr (s.nextInBin event) })

/-- `EventQueue::remove(event)`. -/
def remove (fuel event : ℕ) (s : EventLists) : Except EventqFault EventLists :=
  match s.head with
  | none => .error .notFound
  | some h =>
    if (ev h).eq (ev event) then do
      let (top, s') ← removeItem fuel event h s
      pure { s' with head := top }
    else do
      let nextBin ← s.followBin h
      let (prev, curr) ← seekBin ev s event fuel h nextBin
      match curr with
      | none => .error .notFound
      | some c =>
        if (ev c).eq (ev event) then do
          let (top, s') ← removeItem fuel event c s
          pure { s' with nextBin := update s'.nextBin prev top }
        else .error .notFound

/-- What `serviceOne` does to the pointers: the event it takes. -/
def popHead (s : EventLists) : Except EventqFault (ℕ × EventLists) :=
  match s.head with
  | none => .error .emptyQueue
  | some event => do
    let nextBin ← s.followBin event
    match s.nextInBin event with
    | some next =>
      pure (event, { s with
        head := some next
        nextBin := update s.nextBin next nextBin
        stale := update (update s.stale event true) next false })
    | none => pure (event, { s with head := nextBin, stale := update s.stale event true })

/-! ## The lists are bins -/

/-- The pointers are those of the bins: the tops are linked by `nextBin`, the events of a bin by
`nextInBin`, and the `nextBin` pointers that count are those of the tops. -/
structure Rep (s : EventLists) (bins : List (Bin ℕ)) : Prop where
  tops : IsList s.nextBin s.head (bins.map top)
  inBin : ∀ b ∈ bins, IsList s.nextInBin (s.nextInBin b.top) b.below
  fresh : ∀ e, s.stale e = false ↔ e ∈ bins.map top
  nodup : (allItems bins).Nodup

variable {ev} {s s' : EventLists} {bins pre post : List (Bin ℕ)} {e : ℕ}

variable {b : Bin ℕ} {x : ℕ}

lemma Rep.followBin_eq (h : s.Rep bins) (hb : b ∈ bins) : s.followBin b.top = .ok (s.nextBin b.top) := by
  have hfresh : s.stale b.top = false := (h.fresh b.top).mpr (mem_map_of_mem hb)
  simp [followBin, hfresh]

lemma Rep.nextBin_eq (h : s.Rep (pre ++ b :: post)) : s.nextBin b.top = (post.map top).head? := by
  have htops := h.tops
  rw [map_append, map_cons] at htops
  exact htops.after.head?_eq

variable (pre) in
lemma Rep.seekBin_eq (h : s.Rep (pre ++ b :: post)) (hpre : ∀ x ∈ pre ++ [b], (ev x.top).key < (ev e).key) :
    ∃ pre' b' post', pre ++ b :: post = pre' ++ b' :: post' ∧ (∀ x ∈ pre' ++ [b'], (ev x.top).key < (ev e).key) ∧
      (∀ c ∈ post'.head?, ¬ (ev c.top).key < (ev e).key) ∧
      ∀ fuel, post.length ≤ fuel →
        seekBin ev s e fuel b.top (s.nextBin b.top) = .ok (b'.top, (post'.map top).head?) := by
  rw [h.nextBin_eq]
  induction post generalizing pre b with
  | nil =>
    refine ⟨pre, b, [], rfl, hpre, by simp, ?_⟩
    intro fuel _
    cases fuel <;> rfl
  | cons c post ih =>
    by_cases hlt : (ev c.top).key < (ev e).key
    · have hsplit : pre ++ b :: c :: post = (pre ++ [b]) ++ c :: post := by simp
      rw [hsplit] at h
      have hpre' : ∀ x ∈ pre ++ [b] ++ [c], (ev x.top).key < (ev e).key := by grind
      obtain ⟨pre', b', post', heq, hpre', hpost', hseek⟩ := ih (pre ++ [b]) h hpre'
      refine ⟨pre', b', post', hsplit.trans heq, hpre', hpost', ?_⟩
      intro fuel hfuel
      obtain ⟨fuel, rfl⟩ : ∃ k, fuel = k + 1 := ⟨fuel - 1, by simp at hfuel; omega⟩
      rw [← hseek fuel (by simpa using hfuel)]
      simp only [map_cons, head?_cons, seekBin, Stamp.lt_iff.mpr hlt, if_true]
      rw [h.followBin_eq (b := c) (by simp), h.nextBin_eq]
      rfl
    · refine ⟨pre, b, c :: post, rfl, hpre, by simpa using hlt, ?_⟩
      intro fuel _
      cases fuel <;> simp [seekBin, Stamp.lt_iff, hlt]

lemma Rep.inBin_congr (h : s.Rep bins) (hb : b ∈ bins) {next : ℕ → Option ℕ}
    (heq : ∀ x ∈ b.items, next x = s.nextInBin x) : IsList next (next b.top) b.below := by
  rw [heq b.top b.top_mem_items]
  exact (h.inBin b hb).congr fun x hx => heq x (mem_cons_of_mem _ hx)

lemma ne_of_not_mem (he : e ∉ allItems bins) (hb : b ∈ bins) (hx : x ∈ b.items) : x ≠ e := by
  grind [mem_allItems]

lemma top_ne_of_not_mem (he : e ∉ allItems bins) (hx : x ∈ bins.map top) : x ≠ e := by
  grind [tops_sublist]

/-- The bins after `pre` have been exchanged for `bins`, which start at `p`; nothing links to them yet. -/
structure Linked (s : EventLists) (pre : List (Bin ℕ)) (p : Option ℕ) (bins : List (Bin ℕ)) (s' : EventLists) : Prop where
  head : s'.head = s.head
  others : ∀ x ∈ pre.map top, s'.nextBin x = s.nextBin x
  tops : IsList s'.nextBin p (bins.map top)
  inBin : ∀ b ∈ pre ++ bins, IsList s'.nextInBin (s'.nextInBin b.top) b.below
  fresh : ∀ x, s'.stale x = false ↔ x ∈ (pre ++ bins).map top

lemma Linked.rep_head {p : Option ℕ} (h : Linked s [] p bins s') (hnodup : (allItems bins).Nodup) :
    Rep { s' with head := p } bins :=
  ⟨h.tops, h.inBin, h.fresh, hnodup⟩

lemma Linked.rep_relink {p : Option ℕ} (h : Linked s (pre ++ [b]) p bins s') (hrep : s.Rep (pre ++ b :: post))
    (hnodup : (allItems (pre ++ b :: bins)).Nodup) :
    Rep { s' with nextBin := update s'.nextBin b.top p } (pre ++ b :: bins) := by
  have htopsNodup : ((pre ++ b :: bins).map top).Nodup := (tops_sublist _).nodup hnodup
  rw [map_append, map_cons, nodup_middle, nodup_cons, mem_append, not_or] at htopsNodup
  refine ⟨?_, by simpa using h.inBin, by simpa using h.fresh, hnodup⟩
  have hold := hrep.tops
  rw [map_append, map_cons, ← h.head] at hold
  rw [map_append, map_cons]
  refine hold.splice ?_ ?_
  · grind [Linked.others]
  · dsimp only
    rw [update_self]
    refine h.tops.congr fun x hx => update_of_ne ?_ _ _
    rintro rfl
    exact htopsNodup.1.2 hx

lemma Rep.linked_new (h : s.Rep (pre ++ post)) (he : e ∉ allItems (pre ++ post)) :
    Linked s pre (some e) (⟨e, []⟩ :: post) { s with
        nextBin := update s.nextBin e (post.map top).head?
        nextInBin := update s.nextInBin e none
        stale := update s.stale e false } where
  head := rfl
  others x hx := by
    refine update_of_ne (top_ne_of_not_mem he ?_) _ _
    simp_all
  tops := by
    have htops := h.tops
    rw [map_append] at htops
    refine ⟨rfl, ?_⟩
    dsimp only
    rw [update_self]
    refine htops.drop.congr fun x hx => update_of_ne (top_ne_of_not_mem he ?_) _ _
    simp_all
  inBin b hb := by
    have hold : ∀ b ∈ pre ++ post, IsList (update s.nextInBin e none)
        (update s.nextInBin e none b.top) b.below := fun b hb =>
      h.inBin_congr hb fun x hx => update_of_ne (ne_of_not_mem he hb hx) _ _
    rcases mem_append.mp hb with hpre | hpost
    · exact hold b (mem_append_left _ hpre)
    · rcases mem_cons.mp hpost with rfl | hpost
      · exact update_self ..
      · exact hold b (mem_append_right _ hpost)
  fresh x := by
    rcases eq_or_ne x e with rfl | hx
    · simp
    · dsimp only
      rw [update_of_ne hx, h.fresh]
      simp [hx]

lemma Rep.linked_top {c : Bin ℕ} (h : s.Rep (pre ++ c :: post)) (he : e ∉ allItems (pre ++ c :: post)) :
    Linked s pre (some e) (⟨e, c.items⟩ :: post) { s with
        nextBin := update s.nextBin e (s.nextBin c.top)
        nextInBin := update s.nextInBin e (some c.top)
        stale := update (update s.stale e false) c.top true } where
  head := rfl
  others x hx := by
    refine update_of_ne (top_ne_of_not_mem he ?_) _ _
    simp_all
  tops := by
    have htops := h.tops
    rw [map_append, map_cons] at htops
    refine ⟨rfl, ?_⟩
    dsimp only
    rw [update_self]
    refine htops.after.congr fun x hx => update_of_ne (top_ne_of_not_mem he ?_) _ _
    simp_all
  inBin b hb := by
    have hold : ∀ b ∈ pre ++ c :: post, IsList (update s.nextInBin e (some c.top))
        (update s.nextInBin e (some c.top) b.top) b.below := fun b hb =>
      h.inBin_congr hb fun x hx => update_of_ne (ne_of_not_mem he hb hx) _ _
    rcases mem_append.mp hb with hpre | hpost
    · exact hold b (mem_append_left _ hpre)
    · rcases mem_cons.mp hpost with rfl | hpost
      · dsimp only
        rw [update_self]
        exact ⟨rfl, hold c (by simp)⟩
      · exact hold b (mem_append_right _ (mem_cons_of_mem _ hpost))
  fresh x := by
    have hec : c.top ≠ e := ne_of_not_mem he (by simp) c.top_mem_items
    have hnodup : ((pre ++ c :: post).map top).Nodup := (tops_sublist _).nodup h.nodup
    dsimp only
    rcases eq_or_ne x c.top with rfl | hxc
    · -- The old top is one no more.
      grind
    · rw [update_of_ne hxc]
      rcases eq_or_ne x e with rfl | hx
      · simp
      · grind [Rep.fresh]

variable (pre) in
lemma Rep.insertBefore_eq (h : s.Rep (pre ++ post)) (he : e ∉ allItems (pre ++ post))
    (hstop : ∀ c ∈ post.head?, ¬ (ev c.top).key < (ev e).key) :
    ∃ s', insertBefore ev e (post.map top).head? s = .ok s' ∧
      Linked s pre (some e) (Bin.insert (fun x => (ev x).key) e post) s' := by
  cases post with
  | nil => exact ⟨_, rfl, h.linked_new he⟩
  | cons c post =>
    have hge : ¬ (ev c.top).key < (ev e).key := hstop c rfl
    by_cases hlt : (ev e).key < (ev c.top).key
    · refine ⟨_, ?_, by simpa [Bin.insert, hlt] using h.linked_new he⟩
      simp [insertBefore, Stamp.lt_iff.mpr hlt]
    · refine ⟨_, ?_, by simpa [Bin.insert, hlt, hge] using h.linked_top he⟩
      simp [insertBefore, Stamp.lt_iff, hlt, h.followBin_eq (b := c) (by simp)]

lemma Rep.insert (h : s.Rep bins) (he : e ∉ allItems bins) :
    ∃ s', (∀ fuel, bins.length ≤ fuel → insert ev fuel e s = .ok s') ∧
      s'.Rep (Bin.insert (fun x => (ev x).key) e bins) := by
  have hnodup : (Bin.allItems (Bin.insert (fun x => (ev x).key) e bins)).Nodup :=
    (allItems_insert_perm _ e bins).nodup_iff.mpr (nodup_cons.mpr ⟨he, h.nodup⟩)
  have hhead := h.tops.head?_eq
  -- At the head: nothing is before the event.
  have hfront : (∀ c ∈ bins.head?, ¬ (ev c.top).key < (ev e).key) →
      ∃ s', (do let s' ← insertBefore ev e s.head s; pure { s' with head := some e }) = .ok s' ∧
        s'.Rep (Bin.insert (fun x => (ev x).key) e bins) := by
    intro hstop
    obtain ⟨s', hs', hl⟩ := Rep.insertBefore_eq [] h he hstop
    refine ⟨_, by rw [hhead, hs']; rfl, ?_⟩
    exact hl.rep_head hnodup
  cases bins with
  | nil =>
    obtain ⟨s', hs', hrep⟩ := hfront (by simp)
    refine ⟨s', fun fuel _ => ?_, hrep⟩
    rw [EventLists.insert, hhead]
    rw [hhead] at hs'
    exact hs'
  | cons b post =>
    by_cases hle : (ev e).key ≤ (ev b.top).key
    · obtain ⟨s', hs', hrep⟩ := hfront (by simpa using hle)
      refine ⟨s', fun fuel _ => ?_, hrep⟩
      rw [hhead] at hs'
      rw [EventLists.insert, hhead]
      simpa [Stamp.le_iff.mpr hle] using hs'
    · have hlt := not_le.mp hle
      have hfollow := h.followBin_eq (mem_cons_self ..)
      obtain ⟨pre', b', post', heq, hpre', hpost', hseek⟩ :=
        Rep.seekBin_eq [] h (by simpa using hlt)
      have hlen : (b :: post).length = post.length + 1 := rfl
      rw [nil_append] at heq
      rw [heq] at h he hnodup ⊢
      have hsplit : pre' ++ b' :: post' = (pre' ++ [b']) ++ post' := by simp
      obtain ⟨s', hs', hl⟩ := Rep.insertBefore_eq (pre' ++ [b']) (hsplit ▸ h) (hsplit ▸ he) hpost'
      have hins : Bin.insert (fun x => (ev x).key) e (pre' ++ b' :: post') =
          pre' ++ b' :: Bin.insert (fun x => (ev x).key) e post' := by
        rw [hsplit, insert_append _ hpre']
        simp
      rw [hins] at hnodup ⊢
      refine ⟨_, fun fuel hfuel => ?_, hl.rep_relink h hnodup⟩
      rw [EventLists.insert, hhead]
      simp only [map_cons, head?_cons]
      rw [if_neg (by simpa [Stamp.le_iff] using hle)]
      rw [← heq, hlen] at hfuel
      have hseek := hseek fuel (Nat.le_of_succ_le hfuel)
      exact bind_eq_ok.mpr ⟨_, hfollow, bind_eq_ok.mpr ⟨_, hseek, bind_eq_ok.mpr ⟨_, hs', rfl⟩⟩⟩

/-! ## Taking an event out -/

lemma seekInBin_eq {l : List ℕ} (hl : IsList s.nextInBin (s.nextInBin x) l) (hx : e ≠ x) (he : e ∈ l) :
    ∃ l1 y l2, x :: l = l1 ++ y :: e :: l2 ∧ e ∉ l1 ++ [y] ∧
      ∀ fuel, l.length ≤ fuel + 1 → seekInBin s e fuel x (s.nextInBin x) = .ok y := by
  induction l generalizing x with
  | nil => cases he
  | cons n l ih =>
    rw [hl.1]
    by_cases hen : e = n
    · subst hen
      refine ⟨[], x, l, rfl, by simpa using hx, ?_⟩
      intro fuel _
      cases fuel <;> simp [seekInBin]
    · have he' : e ∈ l := by simpa [hen] using he
      have hpos := length_pos_of_mem he'
      obtain ⟨l1, y, l2, heq, hnot, hseek⟩ := ih hl.2 hen he'
      refine ⟨x :: l1, y, l2, by rw [heq]; rfl, ?_, ?_⟩
      · simpa [hx] using hnot
      · intro fuel hfuel
        obtain ⟨fuel, rfl⟩ : ∃ k, fuel = k + 1 := ⟨fuel - 1, by simp at hfuel; omega⟩
        simpa [seekInBin, hen] using hseek fuel (by simpa using hfuel)

lemma Rep.nodup_items (h : s.Rep (pre ++ b :: post)) : b.items.Nodup := by
  grind [Rep.nodup, allItems_append, allItems_cons]

lemma Rep.not_mem_others (h : s.Rep (pre ++ b :: post)) (hx : x ∈ b.items) : x ∉ allItems (pre ++ post) := by
  have hnodup := h.nodup
  rw [allItems_append, allItems_cons] at hnodup
  have hperm := perm_append_comm_assoc (allItems pre) b.items (allItems post)
  rw [hperm.nodup_iff] at hnodup
  rw [allItems_append]
  intro hmem
  exact (nodup_append.mp hnodup).2.2 x hx x hmem rfl

variable (pre) in
lemma Rep.linked_last (h : s.Rep (pre ++ ⟨e, []⟩ :: post)) :
    Linked s pre (s.nextBin e) post { s with stale := update s.stale e true } where
  head := rfl
  others x hx := rfl
  tops := by
    have htops := h.tops
    grind [IsList.after]
  inBin b hb := by grind [Rep.inBin]
  fresh x := by
    have hnot : e ∉ (pre ++ post).map top := fun hmem =>
      h.not_mem_others (mem_singleton_self e) ((tops_sublist _).subset hmem)
    dsimp only
    rcases eq_or_ne x e with rfl | hx
    · simpa using hnot
    · rw [update_of_ne hx, h.fresh]
      simp [hx]

variable (pre) in
lemma Rep.linked_pop {n : ℕ} {l : List ℕ} (h : s.Rep (pre ++ ⟨e, n :: l⟩ :: post)) :
    Linked s pre (some n) (⟨n, l⟩ :: post) { s with
        nextBin := update s.nextBin n (s.nextBin e)
        stale := update (update s.stale e true) n false } where
  head := rfl
  others x hx := by
    refine update_of_ne (top_ne_of_not_mem (h.not_mem_others (x := n) (by simp [items])) ?_) _ _
    simp_all
  tops := by
    have htops := h.tops
    rw [map_append, map_cons] at htops
    refine ⟨rfl, ?_⟩
    dsimp only
    rw [update_self]
    refine htops.after.congr fun x hx => update_of_ne ?_ _ _
    refine top_ne_of_not_mem (h.not_mem_others (x := n) (by simp [items])) ?_
    simp_all
  inBin b hb := by
    rcases mem_append.mp hb with hb | hb
    · exact h.inBin b (mem_append_left _ hb)
    · rcases mem_cons.mp hb with rfl | hb
      · exact (h.inBin ⟨e, n :: l⟩ (by simp)).2
      · exact h.inBin b (mem_append_right _ (mem_cons_of_mem _ hb))
  fresh x := by
    have hen : e ≠ n := by
      have hnodup := h.nodup_items
      rintro rfl
      exact (nodup_cons.mp hnodup).1 (mem_cons_self ..)
    have hnot : e ∉ (pre ++ post).map top := fun hmem =>
      h.not_mem_others (top_mem_items _) ((tops_sublist _).subset hmem)
    dsimp only
    rcases eq_or_ne x n with rfl | hxn
    · simp
    · rw [update_of_ne hxn]
      rcases eq_or_ne x e with rfl | hx
      · simpa [hxn] using hnot
      · rw [update_of_ne hx, h.fresh]
        simp [hx, hxn]

lemma Rep.linked_below (h : s.Rep (pre ++ b :: post)) {l1 l2 : List ℕ} {y : ℕ}
    (hitems : b.items = l1 ++ y :: e :: l2) (hnot : e ∉ l1 ++ [y]) :
    Linked s pre (some b.top) (⟨b.top, b.below.erase e⟩ :: post)
      { s with nextInBin := update s.nextInBin y (s.nextInBin e) } := by
  have hy : y ∈ b.items := by simp [hitems]
  have hchain : IsList s.nextInBin (some b.top) (l1 ++ y :: e :: l2) := by
    rw [← hitems]
    exact ⟨rfl, h.inBin b (by simp)⟩
  have hnodup := h.nodup_items
  rw [hitems] at hnodup
  have herase : b.items.erase e = l1 ++ y :: l2 := by grind
  have hchain' : IsList (update s.nextInBin y (s.nextInBin e)) (some b.top) (l1 ++ y :: l2) := by
    have hmid := (nodup_append.mp hnodup)
    refine hchain.splice ?_ ?_
    · simp_all
    · rw [update_self]
      have hafter : IsList s.nextInBin (s.nextInBin e) l2 := hchain.after.2
      refine hafter.congr fun x hx => update_of_ne ?_ _ _
      grind
  have htop : b.top ≠ e := by
    intro heq
    have hhead := congrArg head? hitems
    cases l1 with
    | nil =>
      simp only [items, nil_append, head?_cons, Option.some.injEq] at hhead
      exact hnot (by simp [← hhead, heq])
    | cons z l1 =>
      simp only [items, cons_append, head?_cons, Option.some.injEq] at hhead
      exact hnot (by simp [← hhead, heq])
  have hbelow : l1 ++ y :: l2 = b.top :: b.below.erase e := by
    rw [← herase, items, erase_cons_tail (by simpa using htop)]
  rw [hbelow] at hchain'
  refine ⟨rfl, fun x hx => rfl, ?_, ?_, ?_⟩
  · have htops := h.tops
    rw [map_append] at htops
    exact htops.drop
  · intro c hc
    have hold : ∀ c ∈ pre ++ post, IsList (update s.nextInBin y (s.nextInBin e))
        (update s.nextInBin y (s.nextInBin e) c.top) c.below := by
      intro c hc
      refine h.inBin_congr ?_ fun x hx => update_of_ne (ne_of_not_mem (h.not_mem_others hy) hc hx) _ _
      grind
    rcases mem_append.mp hc with hc | hc
    · exact hold c (mem_append_left _ hc)
    · rcases mem_cons.mp hc with rfl | hc
      · exact hchain'.2
      · exact hold c (mem_append_right _ hc)
  · intro x
    rw [show (pre ++ (⟨b.top, b.below.erase e⟩ : Bin ℕ) :: post).map top = (pre ++ b :: post).map top by simp]
    exact h.fresh x

variable (pre) in
lemma Rep.removeItem_eq (h : s.Rep (pre ++ b :: post)) (he : e ∈ b.items) :
    ∃ p s', (∀ fuel, b.below.length ≤ fuel + 1 → removeItem fuel e b.top s = .ok (p, s')) ∧
      Linked s pre p (ofList (b.items.erase e) ++ post) s' := by
  have hfollow := h.followBin_eq (b := b) (by simp)
  obtain ⟨top, below⟩ := b
  by_cases htop : e = top
  · subst htop
    have hlist := h.inBin ⟨e, below⟩ (by simp)
    have herase : (items ⟨e, below⟩).erase e = below := by simp [items]
    rw [herase]
    cases below with
    | nil =>
      refine ⟨_, _, fun fuel _ => ?_, h.linked_last pre⟩
      have hnext : s.nextInBin e = none := hlist
      simp only [removeItem, if_true, hnext]
      exact bind_eq_ok.mpr ⟨_, hfollow, rfl⟩
    | cons n l =>
      refine ⟨_, _, fun fuel _ => ?_, h.linked_pop pre⟩
      have hnext : s.nextInBin e = some n := hlist.1
      simp only [removeItem, if_true, hnext]
      exact bind_eq_ok.mpr ⟨_, hfollow, rfl⟩
  · have hbelow : e ∈ below := by simpa [items, htop] using he
    obtain ⟨l1, y, l2, hitems, hnot, hseek⟩ := seekInBin_eq (h.inBin ⟨top, below⟩ (by simp)) htop hbelow
    have herase : (items ⟨top, below⟩).erase e = top :: below.erase e := by
      rw [items, erase_cons_tail (by simpa using Ne.symm htop)]
    rw [herase]
    refine ⟨_, _, fun fuel hfuel => ?_, h.linked_below hitems hnot⟩
    simp only [removeItem, if_neg htop]
    exact bind_eq_ok.mpr ⟨_, hseek fuel hfuel, rfl⟩

lemma Rep.remove (h : s.Rep bins) (hord : Bin.Ordered (fun x => (ev x).key) bins) (he : e ∈ allItems bins) :
    ∃ s', (∀ fuel, (allItems bins).length ≤ fuel → remove ev fuel e s = .ok s') ∧
      s'.Rep (erase (fun x => (ev x).key) e bins) := by
  have hnodup : (allItems (erase (fun x => (ev x).key) e bins)).Nodup :=
    (nodup_cons.mp ((hord.allItems_erase_perm he).nodup_iff.mp h.nodup)).2
  have hbelow : ∀ b ∈ bins, ∀ fuel, (allItems bins).length ≤ fuel → b.below.length ≤ fuel + 1 := by
    intro b hb fuel hfuel
    have hsub := (items_sublist hb).length_le
    simp only [items, length_cons] at hsub
    omega
  have hhead := h.tops.head?_eq
  cases bins with
  | nil => cases he
  | cons b post =>
    have hlen : ∀ fuel, (allItems (b :: post)).length ≤ fuel → post.length ≤ fuel := fun fuel hfuel =>
      Nat.le_of_succ_le ((length_le_allItems (b :: post)).trans hfuel)
    have hfollow := h.followBin_eq (mem_cons_self ..)
    by_cases hlt : (ev b.top).key < (ev e).key
    · have hne : ¬ (ev b.top).eq (ev e) = true := by simpa [Stamp.eq_iff] using hlt.ne
      obtain ⟨pre', b', post', heq, hpre', hpost', hseek⟩ :=
        Rep.seekBin_eq [] h (by simpa using hlt)
      rw [nil_append] at heq
      have hsplit : pre' ++ b' :: post' = (pre' ++ [b']) ++ post' := by simp
      rw [heq] at h he hord hnodup hbelow hlen ⊢
      rw [hsplit] at he hord
      obtain ⟨hord', he'⟩ := hord.mem_append he hpre'
      cases post' with
      | nil => cases he'
      | cons c post' =>
        have hge : ¬ (ev c.top).key < (ev e).key := hpost' c rfl
        have hmem := hord'.mem_first he' hge
        have hkey := (hord'.same c (mem_cons_self ..) e hmem).symm
        obtain ⟨p, s', hs', hl⟩ := Rep.removeItem_eq (pre' ++ [b']) (hsplit ▸ h) hmem
        have herase : erase (fun x => (ev x).key) e (pre' ++ b' :: c :: post') =
            pre' ++ b' :: (ofList (c.items.erase e) ++ post') := by
          rw [hsplit, erase_append _ hpre', erase, if_neg hge]
          simp
        rw [herase] at hnodup ⊢
        refine ⟨_, fun fuel hfuel => ?_, hl.rep_relink h hnodup⟩
        simp only [EventLists.remove, hhead, map_cons, head?_cons, if_neg hne]
        refine bind_eq_ok.mpr ⟨_, hfollow, bind_eq_ok.mpr ⟨_, hseek fuel (hlen fuel hfuel), ?_⟩⟩
        simp only [map_cons, head?_cons, if_pos (Stamp.eq_iff.mpr hkey)]
        exact bind_eq_ok.mpr ⟨_, hs' fuel (hbelow c (by simp) fuel hfuel), rfl⟩
    · have hmem := hord.mem_first he hlt
      have hkey := (hord.same b (mem_cons_self ..) e hmem).symm
      obtain ⟨p, s', hs', hl⟩ := Rep.removeItem_eq [] h hmem
      simp only [erase, if_neg hlt] at hnodup ⊢
      refine ⟨_, fun fuel hfuel => ?_, hl.rep_head hnodup⟩
      simp only [EventLists.remove, hhead, map_cons, head?_cons, if_pos (Stamp.eq_iff.mpr hkey)]
      exact bind_eq_ok.mpr ⟨_, hs' fuel (hbelow b (mem_cons_self ..) fuel hfuel), rfl⟩

/-- `serviceOne` takes the top of the first bin. -/
lemma Rep.popHead_eq (h : s.Rep (b :: post)) :
    ∃ s', popHead s = .ok (b.top, s') ∧ s'.Rep (ofList b.below ++ post) := by
  have hhead : s.head = some b.top := h.tops.head?_eq
  have hfollow := h.followBin_eq (mem_cons_self ..)
  have hnodup : (allItems (ofList b.below ++ post)).Nodup := by
    rw [allItems_append, allItems_ofList]
    exact (nodup_cons.mp h.nodup).2
  obtain ⟨top, below⟩ := b
  have hlist := h.inBin ⟨top, below⟩ (mem_cons_self ..)
  simp only [popHead, hhead]
  cases below with
  | nil =>
    have hnext : s.nextInBin top = none := hlist
    refine ⟨_, bind_eq_ok.mpr ⟨_, hfollow, by simp only [hnext]; rfl⟩, ?_⟩
    exact (Rep.linked_last [] h).rep_head hnodup
  | cons n l =>
    have hnext : s.nextInBin top = some n := hlist.1
    refine ⟨_, bind_eq_ok.mpr ⟨_, hfollow, by simp only [hnext]; rfl⟩, ?_⟩
    exact (Rep.linked_pop [] h).rep_head hnodup

end EventLists

end Gem5.Sim
