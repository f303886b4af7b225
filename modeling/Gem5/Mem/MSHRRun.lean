import Gem5.Mem.MSHR

/-!
# Miss status holding registers serve their targets once, in order

Nothing that happens to a register changes the tags of the targets it has, so all is said about lists of tags. A register
that is allocated is `Ok`: it has a target, the first one is not a snoop, and the deferred targets are requests of the
processor. Requests wait in the targets and behind them in the deferred ones, in the order in which they came; each
operation but a response only adds at the end of what waits, and a response takes what it serves from the front.

One `assert` can fail. A register that already asked for a writable block defers a cache maintenance request and the
requests behind it, and if one of these needs a writable block too, the response that brings one stops in
`promoteWritable`, which only expects requests that were deferred because the block was not going to be writable.
-/

namespace Gem5.Mem

open Lib List Target Bool Sat TargetList

namespace Packet

lemma replaceUpgrade_eq (p : Packet) : p.replaceUpgrade = .ok p.withoutUpgrade := by
  rcases p with ⟨_, cmd⟩
  cases cmd <;> rfl

@[simp] lemma tagOf_withoutUpgrade (p : Packet) (order : ℕ) (source : TargetSource) :
    tagOf p.withoutUpgrade order source = tagOf p order source := by
  rcases p with ⟨_, cmd⟩
  cases cmd <;> rfl

end Packet

namespace TargetList

variable {l : TargetList}

def tags (l : TargetList) : List Target.Tag := l.list.map tag

@[simp] lemma updateWriteFlags_list (pkt : Packet) : (l.updateWriteFlags pkt).list = l.list := by
  unfold updateWriteFlags
  split_ifs <;> rfl

@[simp] lemma updateWriteFlags_needsWritable (pkt : Packet) :
    (l.updateWriteFlags pkt).needsWritable = l.needsWritable := by
  unfold updateWriteFlags
  split_ifs <;> rfl

@[simp] lemma updateFlags_list (pkt : Packet) (source : TargetSource) (b : Bool) :
    (l.updateFlags pkt source b).list = l.list := by
  cases source <;> simp [updateFlags]

lemma updateFlags_needsWritable {pkt : Packet} {source : TargetSource} {b : Bool} (h : source ≠ .fromSnoop) :
    (l.updateFlags pkt source b).needsWritable = (l.needsWritable || pkt.cmd.needsWritable) := by
  cases source with
  | fromSnoop => exact absurd rfl h
  | fromCPU => simp [updateFlags]
  | fromPrefetcher => simp [updateFlags]

/-- The flags of a list that are read later are those of its targets. -/
structure Settled (l : TargetList) : Prop where
  reset : l.list = [] → l.isReset = true
  writable : l.needsWritable = l.tags.any (·.needsWritable)

@[simp] lemma withTargets_list (l : TargetList) (ts : List Target) : (l.withTargets ts).list = ts := by
  suffices h : ∀ (us : List Target) (k : TargetList),
      (us.foldl (fun k t => k.updateFlags t.pkt t.source t.allocOnFill) k).list = k.list from
    h ts ({ l with list := ts } : TargetList).resetFlags
  intro us
  induction us with
  | nil => exact fun _ => rfl
  | cons u us ih => simp_all

@[simp] lemma withTargets_tags (l : TargetList) (ts : List Target) : (l.withTargets ts).tags = ts.map tag := by
  rw [tags, withTargets_list]

lemma withTargets_settled {ts : List Target} (h : ∀ t ∈ ts, t.source = .fromCPU) : (l.withTargets ts).Settled where
  reset hnil := by
    rw [withTargets_list] at hnil
    rw [hnil]
    rfl
  writable := by
    suffices hfold : ∀ (us : List Target) (k : TargetList), (∀ u ∈ us, u.source = .fromCPU) →
        (us.foldl (fun k t => k.updateFlags t.pkt t.source t.allocOnFill) k).needsWritable =
          (k.needsWritable || (us.map tag).any (·.needsWritable)) by
      rw [withTargets_tags]
      exact (hfold ts ({ l with list := ts } : TargetList).resetFlags h).trans (false_or _)
    intro us
    induction us with
    | nil => exact fun k _ => (Bool.or_false _).symm
    | cons u us ih =>
      intro k hus
      have hu : u.source ≠ .fromSnoop := by
        rw [hus u (mem_cons_self ..)]
        decide
      rw [foldl_cons, ih _ fun v hv => hus v (mem_cons_of_mem _ hv), updateFlags_needsWritable hu,
        map_cons, any_cons, Bool.or_assoc]
      rfl

variable (above : ℕ → Bool)

@[simp] lemma add_tags (pkt : Packet) (readyTime order : ℕ) (source : TargetSource) (mark alloc : Bool) :
    (l.add above pkt readyTime order source mark alloc).tags = l.tags ++ [tagOf pkt order source] := by
  simp [tags, add, tag]

lemma Settled.add (h : l.Settled) {pkt : Packet} {readyTime order : ℕ} {mark alloc : Bool} :
    (l.add above pkt readyTime order .fromCPU mark alloc).Settled where
  reset hnil := absurd hnil (append_ne_nil_of_right_ne_nil _ (cons_ne_nil _ _))
  writable := by
    have hw : (l.add above pkt readyTime order .fromCPU mark alloc).needsWritable =
        (l.needsWritable || pkt.cmd.needsWritable) := updateFlags_needsWritable (by decide)
    rw [hw, add_tags, any_append, h.writable, any_cons, any_nil, Bool.or_false]
    rfl

lemma replaceUpgrades_spec (l : TargetList) :
    ∃ l', l.replaceUpgrades = .ok l' ∧ l'.tags = l.tags ∧ (l.Settled → l'.Settled) := by
  rw [replaceUpgrades]
  split_ifs with hu
  · exact ⟨l, rfl, rfl, id⟩
  · have hmap : (l.list.mapM fun t => do
        let pkt ← t.pkt.replaceUpgrade
        .ok { t with pkt : Target }) = .ok (l.list.map fun t => { t with pkt := t.pkt.withoutUpgrade }) :=
      mapM_eq_ok fun t _ => by rw [Packet.replaceUpgrade_eq]; rfl
    have htags : (l.list.map fun t => { t with pkt := t.pkt.withoutUpgrade : Target }).map tag = l.tags := by
      rw [map_map]
      exact map_congr_left fun t _ => Packet.tagOf_withoutUpgrade ..
    refine ⟨{ l with list := l.list.map fun t => { t with pkt := t.pkt.withoutUpgrade }, hasUpgrade := false },
      by rw [hmap]; rfl, htags, fun h => ⟨fun hnil => ?_, h.writable.trans (congrArg (any · _) htags.symm)⟩⟩
    have := h.reset (map_eq_nil_iff.mp hnil)
    simp only [isReset, and_eq_true, not_eq_true'] at this ⊢
    exact ⟨⟨⟨⟨this.1.1.1.1, trivial⟩, this.1.1.2⟩, this.1.2⟩, this.2⟩

@[simp] lemma clearDownstreamPending_tags (l : TargetList) : l.clearDownstreamPending.tags = l.tags := by
  simp only [tags, clearDownstreamPending, map_map]
  rfl

end TargetList

namespace MSHR

variable {m m' : MSHR} (above : ℕ → Bool)

/-- What holds of a register that is allocated. -/
structure Ok (m : MSHR) : Prop where
  first : ∃ t ts, m.targets.tags = t :: ts ∧ t.source ≠ .fromSnoop ∧ ∀ u ∈ ts, u.source ≠ .fromPrefetcher
  deferred : ∀ t ∈ m.deferredTargets.tags, t.source = .fromCPU
  unlocked : ∀ t ∈ m.targets.tags ++ m.deferredTargets.tags, t.isLocked = false
  settled : m.deferredTargets.Settled

/-- The requests that wait, oldest first. -/
def waiting (m : MSHR) : List Target.Tag :=
  m.targets.tags.filter (·.source != .fromSnoop) ++ m.deferredTargets.tags

def snooped (m : MSHR) : List Target.Tag := m.targets.tags.filter (·.source == .fromSnoop)

lemma waiting_eq (m : MSHR) :
    m.waiting = (m.targets.list.filter (·.source != .fromSnoop)).map tag ++ m.deferredTargets.tags := by
  rw [waiting, tags, filter_map]
  rfl

lemma snooped_eq (m : MSHR) : m.snooped = (m.targets.list.filter (·.source == .fromSnoop)).map tag := by
  rw [snooped, tags, filter_map]
  rfl

lemma Ok.of_tags (h : Ok m) (ht : m'.targets.tags = m.targets.tags)
    (hd : m'.deferredTargets.tags = m.deferredTargets.tags) (hs : m'.deferredTargets.Settled) : Ok m' where
  first := by rw [ht]; exact h.first
  deferred := by rw [hd]; exact h.deferred
  unlocked := by rw [ht, hd]; exact h.unlocked
  settled := hs

lemma waiting_of_tags (ht : m'.targets.tags = m.targets.tags)
    (hd : m'.deferredTargets.tags = m.deferredTargets.tags) : m'.waiting = m.waiting := by
  rw [waiting, ht, hd, waiting]

lemma snooped_of_tags (ht : m'.targets.tags = m.targets.tags) : m'.snooped = m.snooped := by
  rw [snooped, ht, snooped]

lemma Ok.front (h : Ok m) : ∃ t ts, m.targets.list = t :: ts ∧ m.front = .ok t := by
  obtain ⟨t, ts, ht, -⟩ := h.first
  obtain ⟨u, us, hu, -, -⟩ := map_eq_cons_iff.mp ht
  exact ⟨u, us, hu, by rw [MSHR.front, hu]⟩

lemma Ok.source_deferred (h : Ok m) : ∀ t ∈ m.deferredTargets.list, t.source = .fromCPU :=
  fun t ht => h.deferred t.tag (mem_map_of_mem ht)

lemma hasPostInvalidate_eq (hin : m.inService = true) : m.hasPostInvalidate = .ok m.postInvalidate := by
  rw [hasPostInvalidate, hin]
  rfl

lemma hasPostDowngrade_eq (hin : m.inService = true) : m.hasPostDowngrade = .ok m.postDowngrade := by
  rw [hasPostDowngrade, hin]
  rfl

lemma isPendingModified_eq (hin : m.inService = true) : m.isPendingModified = .ok m.pendingModified := by
  rw [isPendingModified, hin]
  rfl

/-! ### The end of the targets -/

variable {x : Target.Tag} {pkt : Packet} {order : ℕ} {l : List Target} {r : Response}

lemma Ok.add_target (h : Ok m) (hx : x.source ≠ .fromPrefetcher) (hl : x.isLocked = false)
    (ht : m'.targets.tags = m.targets.tags ++ [x]) (hd : m'.deferredTargets.tags = m.deferredTargets.tags)
    (hs : m'.deferredTargets.Settled) : Ok m' where
  first := by grind [Ok.first]
  deferred := by rw [hd]; exact h.deferred
  unlocked t hmem := by grind [Ok.unlocked]
  settled := hs

lemma Ok.add_deferred (h : Ok m) (hx : x.source = .fromCPU) (hl : x.isLocked = false)
    (ht : m'.targets.tags = m.targets.tags) (hd : m'.deferredTargets.tags = m.deferredTargets.tags ++ [x])
    (hs : m'.deferredTargets.Settled) : Ok m' where
  first := by rw [ht]; exact h.first
  deferred t hmem := by grind [Ok.deferred]
  unlocked t hmem := by grind [Ok.unlocked]
  settled := hs

/-! ### The operations that add targets -/

abbrev Never (_ : MSHRFault) : Prop := False

lemma allocate_sat {blkAddr : Addr} {blkSize : ℕ} {whenReady : ℕ} {alloc : Bool}
    (ht : m.targets.list = []) (hd : m.deferredTargets.list = []) (hl : pkt.cmd ≠ .lockedRMWReadReq) :
    Sat Never (fun m' => Ok m' ∧ m'.waiting = [tagOf pkt order (allocateSource pkt)] ∧ m'.snooped = [])
      (m.allocate above blkAddr blkSize pkt whenReady order alloc) := by
  have hsrc : allocateSource pkt ≠ .fromSnoop := by
    rw [allocateSource]
    split_ifs <;> decide
  have hlock : (pkt.cmd == .lockedRMWReadReq) = false := by simpa using hl
  have hts : ((m.targets.init blkSize).add above pkt whenReady order (allocateSource pkt) true alloc).tags =
      [tagOf pkt order (allocateSource pkt)] := by
    rw [add_tags, tags, show (m.targets.init blkSize).list = [] from ht]
    rfl
  have hds : (m.deferredTargets.init blkSize).tags = [] := by
    rw [tags, show (m.deferredTargets.init blkSize).list = [] from hd]
    rfl
  unfold allocate
  refine bind (Q := fun t => t.pkt = pkt) ?_ ?_
  · rw [front]
    simp [add, init, resetFlags, ht]
  · rintro t rfl
    refine of_ensure (by simp [Packet.matchBlockAddr]) ⟨⟨⟨_, [], hts, hsrc, by simp⟩, ?_, ?_, ?_⟩, ?_, ?_⟩
    · simp [hds]
    · simp [hts, hds, tagOf, hlock]
    · exact ⟨fun _ => rfl, by rw [hds]; rfl⟩
    · simp [waiting, hts, hds, tagOf, hsrc]
    · simp [snooped, hts, tagOf, hsrc]

lemma Ok.defers (h : Ok m) (pkt : Packet) :
    Sat Never (fun b => b = false → m.deferredTargets.list = []) (m.defers pkt) := by
  obtain ⟨t, -, -, ht⟩ := h.front
  unfold MSHR.defers
  rw [ht]
  refine ite (fun _ => nofun) fun hc => ?_
  have hnil : m.deferredTargets.list = [] := by simp_all
  refine ite (fun _ _ => hnil) fun hin => ?_
  have hin : m.inService = true := by simpa using hin
  rw [hasPostInvalidate_eq hin, isPendingModified_eq hin, hasPostDowngrade_eq hin]
  refine mono (Q := fun _ => True) ?_ fun _ _ _ => hnil
  refine ite (fun _ => trivial) fun _ => ite (fun _ => trivial) fun _ => ?_
  exact ite (fun _ => trivial) fun _ => ite (fun _ => trivial) fun _ => trivial

lemma Ok.allocateTarget (h : Ok m) {whenReady : ℕ} {alloc : Bool} (hp : pkt.cmd ≠ .hardPFReq)
    (hl : pkt.cmd ≠ .lockedRMWReadReq) :
    Sat Never (fun m' => Ok m' ∧ m'.waiting = m.waiting ++ [tagOf pkt order .fromCPU] ∧ m'.snooped = m.snooped)
      (m.allocateTarget above pkt whenReady order alloc) := by
  have hlock : (pkt.cmd == .lockedRMWReadReq) = false := by simpa using hl
  unfold MSHR.allocateTarget
  refine of_ensure (by simpa using hp) ((h.defers pkt).bind fun b hb => ite (fun _ => ?_) fun hb' => ?_)
  · refine bind (Q := fun p => tagOf p order .fromCPU = tagOf pkt order .fromCPU) ?_ fun p hp => ?_
    · rw [deferredPkt]
      split_ifs
      · rw [Packet.replaceUpgrade_eq]
        exact Packet.tagOf_withoutUpgrade ..
      · exact rfl
    · refine ⟨h.add_deferred (x := tagOf pkt order .fromCPU) rfl hlock rfl ?_ (h.settled.add above), ?_, rfl⟩
      · rw [add_tags, hp]
      · rw [waiting, add_tags, hp, waiting, append_assoc]
  · have hnil := hb (by simpa using hb')
    refine ⟨h.add_target (x := tagOf pkt order .fromCPU) (by simp [tagOf]) hlock
      (add_tags ..) rfl h.settled, ?_, ?_⟩
    · have hds : m.deferredTargets.tags = [] := by rw [tags, hnil]; rfl
      simp [waiting, hds, tagOf]
    · simp [snooped, tagOf]

/-! ### Snoops -/

/-- The faults that are about the snooped packet and not about the register. -/
def Refused (e : MSHRFault) : Prop := e = .snoopMismatch ∨ e = .packet

/-- Snoops are kept at the end of the targets. -/
structure Keeps (m m' : MSHR) : Prop where
  ok : Ok m'
  waiting : m'.waiting = m.waiting
  snooped : m'.snooped = m.snooped ++ (m'.targets.list.drop m.targets.list.length).map tag

lemma Keeps.of_tags (h : Ok m) (ht : m'.targets.tags = m.targets.tags)
    (hd : m'.deferredTargets.tags = m.deferredTargets.tags) (hs : m'.deferredTargets.Settled) : Keeps m m' where
  ok := h.of_tags ht hd hs
  waiting := waiting_of_tags ht hd
  snooped := by
    have hlen : m'.targets.list.length ≤ m.targets.list.length := by
      have := congrArg length ht
      simp only [tags, length_map] at this
      exact this.le
    rw [snooped_of_tags ht, drop_of_length_le hlen, map_nil, append_nil]

lemma Keeps.of_add (h : Ok m) (hx : x.source = .fromSnoop) (hl : x.isLocked = false)
    (ht : m'.targets.tags = m.targets.tags ++ [x]) (hd : m'.deferredTargets.tags = m.deferredTargets.tags)
    (hs : m'.deferredTargets.Settled) : Keeps m m' where
  ok := h.add_target (by simp [hx]) hl ht hd hs
  waiting := by simp [MSHR.waiting, ht, hd, hx]
  snooped := by
    have hdrop : (m'.targets.list.drop m.targets.list.length).map tag = [x] := by
      have hlen : m.targets.list.length = m.targets.tags.length := (length_map _).symm
      rw [map_drop, hlen, show m'.targets.list.map tag = _ from ht, drop_left]
    rw [hdrop, MSHR.snooped, ht, filter_append, MSHR.snooped]
    simp [hx]

lemma snoopBefore_keeps (h : Ok m) (pkt : Packet) : Sat Refused (Keeps m) (m.snoopBefore pkt) := by
  obtain ⟨l1, h1, ht1, -⟩ := m.targets.replaceUpgrades_spec
  obtain ⟨l2, h2, ht2, hs2⟩ := m.deferredTargets.replaceUpgrades_spec
  refine ite (fun _ => ?_) fun _ => .of_tags h rfl rfl h.settled
  rw [h1, h2]
  exact .of_tags h ht1 ht2 (hs2 h.settled)

lemma snoopDeferred_sat (h : Ok m) (pkt : Packet) :
    Sat Refused (fun m' => m'.targets = m.targets ∧ m'.deferredTargets.tags = m.deferredTargets.tags ∧
      m'.deferredTargets.Settled ∧ m'.inService = m.inService) (m.snoopDeferred pkt) := by
  obtain ⟨l2, h2, ht2, hs2⟩ := m.deferredTargets.replaceUpgrades_spec
  refine ite (fun _ => ?_) fun _ => ⟨rfl, rfl, h.settled, rfl⟩
  rw [h2]
  exact ⟨rfl, ht2, hs2 h.settled, rfl⟩

lemma answerSnoop_sat (m : MSHR) (pkt : Packet) (willRespond : Bool) :
    Sat Refused (fun _ => True) (m.answerSnoop pkt willRespond) := by
  have hcheck {b : Bool} {x : Except MSHRFault Packet} (hx : Sat Refused (fun _ => True) x) :
      Sat Refused (fun _ => True) (ensure b .packet >>= fun _ => x) :=
    (ensure fun _ => .inr rfl).bind fun _ _ => hx
  refine ite (fun _ => ?_) fun _ => ite (fun _ => ?_) fun _ => trivial
  · exact hcheck (hcheck (hcheck (sat_ok.mpr trivial)))
  · exact hcheck (hcheck (sat_ok.mpr trivial))

lemma recordSnoop_sat {now : ℕ} {willRespond : Bool} :
    Sat Refused (fun r => r.2.deferredTargets = m.deferredTargets ∧ (r.2.targets.tags = m.targets.tags ∨
        r.2.targets.tags = m.targets.tags ++ [tagOf pkt order .fromSnoop]))
      (m.recordSnoop above pkt order now willRespond) := by
  have hcopy : tagOf (if willRespond then pkt.copy else pkt.blockCopy m.blkSize) order .fromSnoop =
      tagOf pkt order .fromSnoop := by
    split_ifs <;> rfl
  refine ite (fun _ => ?_) fun _ => ⟨rfl, .inl rfl⟩
  refine (m.answerSnoop_sat pkt willRespond).bind fun p _ => ⟨rfl, .inr ?_⟩
  rw [add_tags, hcopy]

lemma Ok.handleSnoop (h : Ok m) {now : ℕ} (hl : pkt.cmd ≠ .lockedRMWReadReq) :
    Sat Refused (fun r => Keeps m r.2.2) (m.handleSnoop above pkt order now) := by
  have hlock : (pkt.cmd == .lockedRMWReadReq) = false := by simpa using hl
  unfold MSHR.handleSnoop
  refine bind (ensure fun _ => .inl rfl) fun _ _ => ?_
  refine ite (fun _ => (snoopBefore_keeps h pkt).bind fun _ hk => hk) fun hin => ?_
  have hin : m.inService = true := by simp_all
  refine (snoopDeferred_sat h pkt).bind fun m1 ⟨ht1, hd1, hs1, hin1⟩ => ?_
  obtain ⟨t, -, -, hfront⟩ := (h.of_tags (congrArg _ ht1) hd1 hs1).front
  have hkept {m2 : MSHR} (hd : m2.deferredTargets = m1.deferredTargets)
      (ht : m2.targets.tags = m1.targets.tags ∨
        m2.targets.tags = m1.targets.tags ++ [tagOf pkt order .fromSnoop]) : Keeps m m2 := by
    rw [ht1] at ht
    rw [← hd] at hd1 hs1
    rcases ht with ht | ht
    · exact .of_tags h ht hd1 hs1
    · exact .of_add h rfl hlock ht hd1 hs1
  rw [hfront, hasPostInvalidate_eq (hin1.trans hin), isPendingModified_eq (hin1.trans hin)]
  refine ite (fun _ => hkept rfl (.inl rfl)) fun _ => ?_
  refine (recordSnoop_sat above).bind fun r ⟨hd, ht⟩ => ite (fun _ => hkept hd ht) fun _ => hkept hd ht

/-! ### Promotions before the targets are served -/

/-- Deferred targets become targets, and nothing else that matters changes. -/
structure Promotes (m m' : MSHR) : Prop where
  ok : Ok m'
  waiting : m'.waiting = m.waiting
  snooped : m'.snooped = m.snooped
  inService : m'.inService = m.inService

lemma Promotes.refl (h : Ok m) : Promotes m m := ⟨h, rfl, rfl, rfl⟩

lemma Promotes.trans {m'' : MSHR} (h : Promotes m m') (h' : Promotes m' m'') : Promotes m m'' where
  ok := h'.ok
  waiting := h'.waiting.trans h.waiting
  snooped := h'.snooped.trans h.snooped
  inService := h'.inService.trans h.inService

lemma Promotes.of_move (h : Ok m) {before rest : List Target.Tag} (hsplit : m.deferredTargets.tags = before ++ rest)
    (ht : m'.targets.tags = m.targets.tags ++ before) (hd : m'.deferredTargets.tags = rest)
    (hs : m'.deferredTargets.Settled) (hin : m'.inService = m.inService) : Promotes m m' := by
  have hcpu : ∀ x ∈ before, x.source = .fromCPU := fun x hx =>
    h.deferred x (by rw [hsplit]; exact mem_append_left _ hx)
  refine ⟨⟨?_, fun x hx => h.deferred x ?_, fun x hx => h.unlocked x ?_, hs⟩, ?_, ?_, hin⟩
  · grind [Ok.first]
  · simp_all
  · rwa [ht, hd, append_assoc, ← hsplit] at hx
  · have hfilter : before.filter (·.source != .fromSnoop) = before :=
      filter_eq_self.mpr fun x hx => by simp [hcpu x hx]
    rw [MSHR.waiting, ht, hd, filter_append, hfilter, append_assoc, ← hsplit, MSHR.waiting]
  · have hfilter : before.filter (·.source == .fromSnoop) = [] :=
      filter_eq_nil_iff.mpr fun x hx => by simp [hcpu x hx]
    rw [MSHR.snooped, ht, filter_append, hfilter, append_nil, MSHR.snooped]

lemma findIfNot_eq {pred : Target → Bool} (h : ∀ t ∈ l, t.source = .fromCPU) :
    findIfNot pred l = .ok (l.takeWhile pred, l.dropWhile pred) := by
  induction l with
  | nil => rfl
  | cons t ts ih =>
    have hsrc : (t.source == .fromCPU) = true := by simp [h t (mem_cons_self ..)]
    rw [findIfNot, hsrc, ih fun u hu => h u (mem_cons_of_mem _ hu), takeWhile_cons, dropWhile_cons]
    cases pred t <;> rfl

lemma promoteIf_sat (h : Ok m) (hdown : m.downstreamPending = false) (pred : Target → Bool) :
    Sat Never (fun m' => Promotes m m' ∧ m'.deferredTargets.list = m.deferredTargets.list.dropWhile pred ∧
        m'.targets.needsWritable = m.targets.needsWritable ∧ m'.downstreamPending = m.downstreamPending ∧
        m'.postInvalidate = m.postInvalidate ∧ m'.postDowngrade = m.postDowngrade)
      (m.promoteIf pred) := by
  have hcpu := h.source_deferred
  unfold promoteIf
  refine of_ensure (by simp [hdown]) ?_
  rw [findIfNot_eq hcpu]
  have hsplit : m.deferredTargets.tags = (m.deferredTargets.list.takeWhile pred).map tag ++
      (m.deferredTargets.list.dropWhile pred).map tag := by
    rw [tags, ← map_append, takeWhile_append_dropWhile]
  refine ⟨.of_move h hsplit ?_ (withTargets_tags ..) ?_ rfl, withTargets_list .., rfl, rfl, rfl, rfl⟩
  · simp only [tags, map_append, map_map]
    rfl
  · exact withTargets_settled fun t ht => hcpu t ((dropWhile_suffix pred).subset ht)

lemma promoteReadable_sat (h : Ok m) (hin : m.inService = true) (hdown : m.downstreamPending = false) :
    Sat Never (fun m' => Promotes m m' ∧
        (m.postInvalidate = false → m'.deferredTargets.list = m.deferredTargets.list.dropWhile readable) ∧
        m'.targets.needsWritable = m.targets.needsWritable ∧ m'.downstreamPending = m.downstreamPending ∧
        m'.postInvalidate = m.postInvalidate ∧ m'.postDowngrade = m.postDowngrade)
      m.promoteReadable := by
  unfold promoteReadable
  refine ite (fun hnil => ?_) fun _ => ?_
  · simp_all [Promotes.refl]
  · rw [hasPostInvalidate_eq hin]
    refine ite (fun hpost => ⟨.refl h, fun hpost' => ?_, rfl, rfl, rfl, rfl⟩) fun _ => ?_
    · rw [hpost] at hpost'
      cases hpost'
    · exact (promoteIf_sat h hdown readable).mono fun m' ⟨h1, h2, h3⟩ => ⟨h1, fun _ => h2, h3⟩

/-- `promoteWritable` finds that the targets need a writable block already, if these are the deferred ones. -/
def stopsPromotion (m : MSHR) (deferred : List Target) : Bool :=
  !m.postInvalidate && !m.postDowngrade && m.targets.needsWritable && deferred.any (·.pkt.cmd.needsWritable) &&
    deferred.head?.all (!·.pkt.req.invalidate)

lemma Ok.deferred_needsWritable (h : Ok m) :
    m.deferredTargets.needsWritable = m.deferredTargets.list.any (·.pkt.cmd.needsWritable) := by
  rw [h.settled.writable, tags, any_map]
  rfl

lemma promoteWritable_error (h : Ok m) (hin : m.inService = true)
    (hstop : m.stopsPromotion m.deferredTargets.list = true) : m.promoteWritable = .error .writableTwice := by
  have hw := h.deferred_needsWritable
  simp only [stopsPromotion, and_eq_true, not_eq_true'] at hstop
  obtain ⟨⟨⟨⟨h1, h2⟩, h3⟩, h4⟩, h5⟩ := hstop
  rw [h4] at hw
  cases hl : m.deferredTargets.list with
  | nil => simp [hl] at h4
  | cons t ts =>
    have ht : t.pkt.req.invalidate = false := by simpa [hl] using h5
    simp only [promoteWritable, hl, hw, hasPostInvalidate_eq hin, hasPostDowngrade_eq hin, h1, h2, h3, ht]
    rfl

lemma promoteWritable_sat (h : Ok m) (hin : m.inService = true) (hdown : m.downstreamPending = false)
    (hstop : m.stopsPromotion m.deferredTargets.list = false) : Sat Never (Promotes m) m.promoteWritable := by
  have hw := h.deferred_needsWritable
  unfold promoteWritable
  cases hl : m.deferredTargets.list with
  | nil => exact .refl h
  | cons t ts =>
    rw [hasPostInvalidate_eq hin, hasPostDowngrade_eq hin]
    refine ite (fun _ => .refl h) fun h1 => ite (fun _ => .refl h) fun h2 => ite (fun _ => .refl h) fun h3 =>
      ite (fun _ => .refl h) fun h4 => ?_
    have hfree : (!m.targets.needsWritable) = true := by grind [stopsPromotion]
    have hm : Promotes m { m with targets.needsWritable := true } := ⟨h.of_tags rfl rfl h.settled, rfl, rfl, rfl⟩
    exact of_ensure hfree ((promoteIf_sat hm.ok hdown _).mono fun m' h' => hm.trans h'.1)

lemma Ok.hasLockedRMWReadTarget (h : Ok m) : m.hasLockedRMWReadTarget = false := by
  obtain ⟨t, ts, ht, -⟩ := h.front
  rw [MSHR.hasLockedRMWReadTarget, ht]
  exact h.unlocked t.tag (by simp [tags, ht])

/-- The response stops the simulator: the targets and one of the deferred targets that are left for `promoteWritable`
need a writable block, no snoop took the block away, and the first of these deferred targets is not to invalidate it. -/
def writableTwice (m : MSHR) (r : Response) : Bool :=
  r.promotesWritable && m.stopsPromotion (if r.promotesReadable then m.deferredTargets.list.dropWhile readable
    else m.deferredTargets.list)

section

variable (h : Ok m) (hin : m.inService = true) (hdown : m.downstreamPending = false)
include h hin hdown

/-- What `promoteReadable` leaves for `promoteWritable`. -/
lemma promoteAfterClean_sat (r : Response) : Sat Never (fun m' => Promotes m m' ∧ m'.downstreamPending = false ∧
        (r.promotesWritable && m'.stopsPromotion m'.deferredTargets.list) = m.writableTwice r)
      (m.promoteAfterClean r) := by
  unfold promoteAfterClean writableTwice
  split_ifs with hr
  · refine (promoteReadable_sat h hin hdown).mono fun m' ⟨h1, h2, h3, h4, h5, h6⟩ => ⟨h1, h4.trans hdown, ?_⟩
    grind [stopsPromotion]
  · exact ⟨.refl h, hdown, rfl⟩

lemma promote_sat (hr : m.writableTwice r = false) : Sat Never (Promotes m) (m.promote r) := by
  rw [promote, h.hasLockedRMWReadTarget]
  refine (promoteAfterClean_sat h hin hdown r).bind fun m1 ⟨h1, h2, h3⟩ => ite (fun hw => ?_) fun _ => h1
  rw [hr, hw, Bool.true_and] at h3
  exact (promoteWritable_sat h1.ok (h1.inService.trans hin) h2 h3).mono fun m2 => h1.trans

lemma promote_error (hr : m.writableTwice r = true) : m.promote r = .error .writableTwice := by
  rw [promote, h.hasLockedRMWReadTarget]
  have h1 := promoteAfterClean_sat h hin hdown r
  cases hm : m.promoteAfterClean r with
  | error e => exact (h1.of_error hm).elim
  | ok m1 =>
    obtain ⟨h1, -, h3⟩ := h1.of_ok hm
    rw [hr, and_eq_true] at h3
    show m1.promoteIfWritable r = _
    rw [promoteIfWritable, if_pos h3.1]
    exact promoteWritable_error h1.ok (h1.inService.trans hin) h3.2

end

/-! ### Serving targets -/

lemma takeSnoops_eq (h : ∀ t ∈ l, t.source ≠ .fromPrefetcher) :
    takeSnoops l = .ok (l.filter (·.source == .fromSnoop), l.filter (·.source == .fromCPU)) := by
  induction l with
  | nil => rfl
  | cons t ts ih =>
    have ht := h t (mem_cons_self ..)
    rw [takeSnoops, ih fun u hu => h u (mem_cons_of_mem _ hu)]
    cases hs : t.source with
    | fromCPU => simp [hs]; rfl
    | fromSnoop => simp [hs]; rfl
    | fromPrefetcher => exact absurd hs ht

lemma takeUnlocked_eq (h : ∀ t ∈ l, (t.pkt.cmd == .lockedRMWReadReq) = false) : takeUnlocked l = (l, []) := by
  induction l with
  | nil => rfl
  | cons t ts ih => simp_all [takeUnlocked]

/-- What a response serves: a front part of the requests, which is not empty, and all the snoops. -/
structure Serves (l ready left : List Target) : Prop where
  requests : l.filter (·.source != .fromSnoop) = ready.filter (·.source != .fromSnoop) ++ left
  some : ready.filter (·.source != .fromSnoop) ≠ []
  snoops : ready.filter (·.source == .fromSnoop) = l.filter (·.source == .fromSnoop)
  left : ∀ t ∈ left, t ∈ l ∧ t.source = .fromCPU

lemma serviceable_sat (h : Ok m) (pkt : Packet) :
    Sat Never (fun r => Serves m.targets.list r.1 r.2) (m.serviceable pkt) := by
  obtain ⟨t, ts, ht, -⟩ := h.front
  obtain ⟨t', ts', htags, hsrc, hrest⟩ := h.first
  rw [tags, ht, map_cons, cons.injEq] at htags
  obtain ⟨rfl, rfl⟩ := htags
  have hsrc : t.source ≠ .fromSnoop := hsrc
  have hrest : ∀ u ∈ ts, u.source ≠ .fromPrefetcher := fun u hu => hrest u.tag (mem_map_of_mem hu)
  have hlock : ∀ u ∈ t :: ts, (u.pkt.cmd == .lockedRMWReadReq) = false := fun u hu =>
    h.unlocked u.tag (mem_append_left _ (by rw [tags, ht]; exact mem_map_of_mem hu))
  unfold serviceable
  rw [ht]
  refine ite (fun _ => of_ensure ?_ ?_) fun _ => ?_
  · cases hs : t.source with
    | fromSnoop => exact absurd hs hsrc
    | fromCPU => rfl
    | fromPrefetcher => rfl
  · rw [hlock t (mem_cons_self ..), takeSnoops_eq hrest]
    -- the requests behind the first are all of the processor
    have hfilter : ts.filter (·.source != .fromSnoop) = ts.filter (·.source == .fromCPU) :=
      filter_congr fun u hu => by cases hs : u.source <;> simp_all
    refine ⟨?_, ?_, ?_, fun u hu => ?_⟩
    · simp [hsrc, hfilter]
    · simp [hsrc]
    · simp [hsrc]
    simp_all
  · rw [takeUnlocked_eq hlock]
    exact ⟨(append_nil _).symm, by simp [hsrc], rfl, by simp⟩

/-! ### After the targets are served -/

lemma promoted_append (ts ds : List Target) : (promoted ts ds).1 ++ (promoted ts ds).2 = ts ++ ds := by
  have hsplit := takeWhile_append_dropWhile (p := fun t : Target => !t.pkt.req.isCacheMaintenance) (l := ds)
  rw [promoted, span_eq_takeWhile_dropWhile]
  grind

lemma promoted_ne_nil {ts ds : List Target} (h : ¬ (ts = [] ∧ ds = [])) : (promoted ts ds).1 ≠ [] := by
  have hsplit := takeWhile_append_dropWhile (p := fun t : Target => !t.pkt.req.isCacheMaintenance) (l := ds)
  rw [promoted, span_eq_takeWhile_dropWhile]
  split
  · grind
  · next before rest hne heq =>
    rw [Prod.mk.injEq] at heq
    rw [heq.1, heq.2] at hsplit
    intro hnil
    obtain ⟨rfl, rfl⟩ := append_eq_nil_iff.mp hnil
    cases rest with
    | nil => exact h ⟨rfl, by rw [← hsplit]; rfl⟩
    | cons t rest => exact hne t rest rfl rfl

structure Requests (m : MSHR) : Prop where
  source : ∀ t ∈ m.targets.tags ++ m.deferredTargets.tags, t.source = .fromCPU
  unlocked : ∀ t ∈ m.targets.tags ++ m.deferredTargets.tags, t.isLocked = false
  settled : m.deferredTargets.Settled

section

variable (h : Requests m)
include h

lemma Requests.waiting : m.waiting = m.targets.tags ++ m.deferredTargets.tags := by
  rw [MSHR.waiting, filter_eq_self.mpr fun t ht => ?_]
  simp [h.source t (mem_append_left _ ht)]

lemma Requests.snooped : m.snooped = [] :=
  filter_eq_nil_iff.mpr fun t ht => by simp [h.source t (mem_append_left _ ht)]

lemma Requests.hasLockedRMWReadTarget : m.hasLockedRMWReadTarget = false := by
  rw [MSHR.hasLockedRMWReadTarget]
  split
  · rfl
  · next t ts heq => exact h.unlocked t.tag (by simp [tags, heq])

lemma Requests.ok (hne : m.targets.list ≠ []) : Ok m where
  first := by
    obtain ⟨t, ts, ht⟩ := exists_cons_of_ne_nil hne
    have htags : m.targets.tags = t.tag :: ts.map tag := by rw [tags, ht, map_cons]
    grind [Requests.source]
  deferred t ht := h.source t (mem_append_right _ ht)
  unlocked := h.unlocked
  settled := h.settled

lemma Requests.of_append
    (happ : m'.targets.tags ++ m'.deferredTargets.tags = m.targets.tags ++ m.deferredTargets.tags)
    (hs : m'.deferredTargets.Settled) : Requests m' where
  source := by rw [happ]; exact h.source
  unlocked := by rw [happ]; exact h.unlocked
  settled := hs

lemma promoteDeferredTargets_sat (now : ℕ) :
    Sat Never (fun x => Requests x.2 ∧ x.2.waiting = m.waiting ∧ x.2.inService = m.inService ∧
        (x.1 = true → x.2.targets.list ≠ []) ∧ (x.1 = false → x.2.targets.list = [] ∧ x.2.deferredTargets.list = []))
      (m.promoteDeferredTargets now) := by
  unfold promoteDeferredTargets
  refine ite (fun hnil => ?_) fun hnil => ?_
  · simp_all
  · have happ := promoted_append m.targets.list m.deferredTargets.list
    have hne := promoted_ne_nil (by simpa using hnil)
    have hcpu : ∀ t ∈ (promoted m.targets.list m.deferredTargets.list).2, t.source = .fromCPU := fun t ht =>
      h.source t.tag (by
        rw [tags, tags, ← map_append, ← happ]
        exact mem_map_of_mem (mem_append_right _ ht))
    have htags := congrArg (map tag) happ
    rw [map_append, map_append] at htags
    obtain ⟨t, ts, hts⟩ := exists_cons_of_ne_nil hne
    dsimp only
    rw [hts] at htags ⊢
    refine bind (Q := fun _ => True) (by simp [front]) fun u _ => ?_
    have hreq : Requests { m with
        targets := m.targets.withTargets (t :: ts)
        deferredTargets := m.deferredTargets.withTargets (promoted m.targets.list m.deferredTargets.list).2
        order := u.order
        readyTime := max now u.readyTime } :=
      h.of_append (by rw [withTargets_tags, withTargets_tags, htags]; rfl)
        (withTargets_settled hcpu)
    refine ⟨hreq, ?_, rfl, fun _ => by simp, nofun⟩
    rw [hreq.waiting, h.waiting, withTargets_tags, withTargets_tags, htags]
    rfl

lemma finish_sat (hin : m.inService = true) (r : Response) :
    Sat Never (fun x => x.2.waiting = m.waiting ∧ x.2.snooped = [] ∧ (x.1 = true → Ok x.2) ∧
        (x.1 = false → x.2.targets.list = [] ∧ x.2.deferredTargets.list = []))
      (m.finish r) := by
  rw [finish, h.hasLockedRMWReadTarget]
  refine (promoteDeferredTargets_sat h r.now).bind fun ⟨live, m1⟩ ⟨h1, h2, h3, h4, h5⟩ => ?_
  cases live with
  | true =>
    refine bind (Q := (· = { m1 with inService := false })) (of_ensure (h3.trans hin) (sat_ok.mpr rfl)) ?_
    rintro _ rfl
    exact ⟨h2, h1.snooped, fun _ => (h1.ok (h4 rfl)).of_tags rfl rfl h1.settled, nofun⟩
  | false =>
    obtain ⟨ht, hd⟩ := h5 rfl
    refine bind (Q := (· = { m1 with targets := m1.targets.resetFlags, inService := false }))
      (of_ensure (isEmpty_iff.mpr ht) (of_ensure (h1.settled.reset hd) (sat_ok.mpr rfl))) ?_
    rintro _ rfl
    exact ⟨h2, h1.snooped, nofun, fun _ => ⟨ht, hd⟩⟩

end

section

variable (h : Ok m) (hin : m.inService = true) (hdown : m.downstreamPending = false)
include h hin hdown

lemma Ok.recvTimingResp (hr : m.writableTwice r = false) :
    Sat Never (fun x => m.waiting = (x.1.filter (·.source != .fromSnoop)).map tag ++ x.2.2.waiting ∧
        x.1.filter (·.source != .fromSnoop) ≠ [] ∧
        (x.1.filter (·.source == .fromSnoop)).map tag = m.snooped ∧ x.2.2.snooped = [] ∧
        (x.2.1 = true → Ok x.2.2) ∧ (x.2.1 = false → x.2.2.targets.list = [] ∧ x.2.2.deferredTargets.list = []))
      (m.recvTimingResp r) := by
  obtain ⟨_, _, _, hfront⟩ := h.front
  unfold MSHR.recvTimingResp
  rw [hfront]
  refine (promote_sat h hin hdown hr).bind fun m1 h1 => ?_
  refine bind (Q := fun x => Serves m1.targets.list x.1.list x.2.targets.list ∧
    x.2.deferredTargets = m1.deferredTargets ∧ x.2.inService = m1.inService) ?_ fun ⟨ready, m2⟩ ⟨h2, h3, h4⟩ => ?_
  · refine (serviceable_sat h1.ok r.pkt).bind fun x hx => ⟨?_, rfl, rfl⟩
    rwa [withTargets_list, withTargets_list]
  · have hsub : ∀ t ∈ m2.targets.tags, t ∈ m1.targets.tags ∧ t.source = .fromCPU := fun t ht => by
      obtain ⟨u, hu, rfl⟩ := mem_map.mp ht
      exact ⟨mem_map_of_mem (h2.left u hu).1, (h2.left u hu).2⟩
    have hreq : Requests m2 := by
      refine ⟨fun t ht => ?_, fun t ht => h1.ok.unlocked t ?_, h3 ▸ h1.ok.settled⟩
      · rw [h3] at ht
        exact (mem_append.mp ht).elim (fun ht => (hsub t ht).2) (h1.ok.deferred t)
      grind
    refine (finish_sat hreq (h4.trans (h1.inService.trans hin)) r).bind fun ⟨live, m3⟩ ⟨h5, h6, h7, h8⟩ =>
      ⟨?_, h2.some, ?_, h6, h7, h8⟩
    · rw [h5, hreq.waiting, ← h1.waiting, waiting_eq, h2.requests, h3, map_append, append_assoc]
      rfl
    · rw [h2.snoops, ← h1.snooped, snooped_eq]

lemma Ok.recvTimingResp_error (hr : m.writableTwice r = true) : m.recvTimingResp r = .error .writableTwice := by
  obtain ⟨_, _, _, hfront⟩ := h.front
  rw [MSHR.recvTimingResp, hfront, promote_error h hin hdown hr]
  rfl

end

end MSHR

/-! ### Runs -/

namespace MSHRRun

open MSHR (Ok Refused Never)

variable {above : ℕ → Bool} {s s' : MSHRRun}

/-- The requests that were served, in the order in which they were. -/
def served (s : MSHRRun) : List Target.Tag := (s.responses.flatten.filter (·.source != .fromSnoop)).map tag

structure Inv (s : MSHRRun) : Prop where
  requested : s.requested = s.served ++ s.mshr.waiting
  snoops : s.mshr.snooped = s.snoops
  ok : s.live = true → Ok s.mshr
  free : s.live = false → s.mshr.targets.list = [] ∧ s.mshr.deferredTargets.list = []

lemma Inv.of_tags (h : Inv s) (hlive : s.live = true) {m : MSHR} (ht : m.targets.tags = s.mshr.targets.tags)
    (hd : m.deferredTargets = s.mshr.deferredTargets) : Inv { s with mshr := m } where
  requested := h.requested.trans (congrArg _ (MSHR.waiting_of_tags ht (by rw [hd])).symm)
  snoops := (MSHR.snooped_of_tags ht).trans h.snoops
  ok _ := (h.ok hlive).of_tags ht (by rw [hd]) (hd ▸ (h.ok hlive).settled)
  free hf := by
    rw [hlive] at hf
    cases hf

lemma Inv.call (h : Inv s) {k : MSHRCall} (hk : s.Allowed k)
    (hr : ∀ r, k = .recvTimingResp r → s.mshr.writableTwice r = false) : Sat Refused Inv (s.call above k) := by
  have hnever {α : Type} {Q : α → Prop} {x : Except MSHRFault α} (hx : Sat Never Q x) : Sat Refused Q x := by
    cases x with
    | ok a => exact hx
    | error e => exact hx.elim
  cases k with
  | allocate blkAddr blkSize pkt whenReady order alloc =>
    obtain ⟨hlive, hl⟩ := hk
    obtain ⟨ht, hd⟩ := h.free hlive
    refine (hnever (MSHR.allocate_sat above ht hd hl)).bind fun m ⟨h1, h2, h3⟩ => ?_
    exact ⟨h2.symm, h3, fun _ => h1, nofun⟩
  | allocateTarget pkt whenReady order alloc =>
    obtain ⟨hlive, hp, hl⟩ := hk
    refine (hnever ((h.ok hlive).allocateTarget above hp hl)).bind fun m ⟨h1, h2, h3⟩ => ?_
    refine ⟨?_, h3.trans h.snoops, fun _ => h1, fun hf => ?_⟩
    · rw [h2, h.requested, append_assoc]
      rfl
    · rw [hlive] at hf
      cases hf
  | handleSnoop pkt order now =>
    obtain ⟨hlive, hl⟩ := hk
    refine ((h.ok hlive).handleSnoop above hl).bind fun x hx => ?_
    refine ⟨h.requested.trans (congrArg _ hx.waiting.symm), ?_, fun _ => hx.ok, fun hf => ?_⟩
    · rw [hx.snooped, h.snoops]
    · rw [hlive] at hf
      cases hf
  | markInService pendingModifiedResp =>
    obtain ⟨hlive, hin⟩ := hk
    refine bind (of_ensure (by simp [hin]) (sat_ok.mpr rfl)) ?_
    rintro _ rfl
    refine h.of_tags hlive ?_ rfl
    split_ifs
    · rfl
    · exact clearDownstreamPending_tags _
  | recvTimingResp r =>
    obtain ⟨hlive, hin, hdown⟩ := hk
    refine (hnever ((h.ok hlive).recvTimingResp hin hdown (hr r rfl))).bind fun ⟨ready, live, m⟩ hx => ?_
    obtain ⟨h1, -, -, h4, h5, h6⟩ := hx
    refine ⟨?_, h4, h5, h6⟩
    rw [h.requested, h1, ← append_assoc]
    simp [served]
  | setForward isForward => exact h.of_tags hk rfl rfl
  | setDownstreamPending => exact h.of_tags hk.1 rfl rfl
  | clearDownstreamPending =>
    obtain ⟨hlive, hp⟩ := hk
    refine bind (of_ensure hp (sat_ok.mpr rfl)) ?_
    rintro _ rfl
    exact h.of_tags hlive (clearDownstreamPending_tags _) rfl

section

variable (h : Inv s) {r : MSHR.Response} (hk : s.Allowed (.recvTimingResp r))
include h hk

/-- The responses that stop in `promoteWritable`. -/
lemma Inv.recvTimingResp_error (hw : s.mshr.writableTwice r = true) :
    s.call above (.recvTimingResp r) = .error .writableTwice := by
  obtain ⟨hlive, hin, hdown⟩ := hk
  rw [MSHRRun.call, (h.ok hlive).recvTimingResp_error hin hdown hw]
  rfl

lemma Inv.writableTwice_of_ok (hcall : s.call above (.recvTimingResp r) = .ok s') :
    s.mshr.writableTwice r = false := by
  grind [Inv.recvTimingResp_error]

end

lemma Reachable.inv (h : Reachable above s) : Inv s := by
  induction h with
  | init => exact ⟨rfl, rfl, nofun, fun _ => ⟨rfl, rfl⟩⟩
  | call _ hk hcall ih =>
    refine (ih.call hk fun r hr => ?_).of_ok hcall
    subst hr
    exact ih.writableTwice_of_ok hk hcall

/-- In every run, the requests that a register was allocated for are served once each, in the order in which they came: at
any time those that were served are followed by those that wait, and when the register is given back none waits. A
response serves at least one of them, and exactly the snoops that were kept since the response before it. A call is only
stopped by what is wrong with a snooped packet, but for the response that finds both lists waiting for a writable
block. -/
theorem targets_served_once (h : Reachable above s) : s.requested = s.served ++ s.mshr.waiting ∧
      (s.live = false → s.mshr.targets.list = [] ∧ s.mshr.deferredTargets.list = [] ∧ s.served = s.requested) ∧
      (∀ r s', s.Allowed (.recvTimingResp r) → s.call above (.recvTimingResp r) = .ok s' →
        ∃ ready, s'.responses = s.responses ++ [ready] ∧
          (ready.filter (·.source == .fromSnoop)).map Target.tag = s.snoops ∧
          ready.filter (·.source != .fromSnoop) ≠ []) ∧
      ∀ k, s.Allowed k → ((∀ e, s.call above k = .error e → Refused e) ↔
        ∀ r, k = .recvTimingResp r → s.mshr.writableTwice r = false) := by
  have hinv := h.inv
  refine ⟨hinv.requested, fun hlive => ?_, fun r s' hk hcall => ?_, fun k hk => ⟨fun he r hr => ?_, fun hr e he => ?_⟩⟩
  · obtain ⟨ht, hd⟩ := hinv.free hlive
    refine ⟨ht, hd, ?_⟩
    rw [hinv.requested, MSHR.waiting_eq, TargetList.tags, ht, hd]
    simp
  · have hw := hinv.writableTwice_of_ok hk hcall
    obtain ⟨hlive, hin, hdown⟩ := hk
    obtain ⟨⟨ready, live, m⟩, hx, hs'⟩ := bind_eq_ok.mp hcall
    cases hs'
    obtain ⟨-, hsome, hsnoops, -⟩ := ((hinv.ok hlive).recvTimingResp hin hdown hw).of_ok hx
    exact ⟨ready, rfl, hsnoops.trans hinv.snoops, hsome⟩
  · subst hr
    cases hw : s.mshr.writableTwice r with
    | false => rfl
    | true => rcases he .writableTwice (hinv.recvTimingResp_error hk hw) with h | h <;> cases h
  · exact (hinv.call hk hr).of_error he

/-- The state after a write was allocated and sent. -/
def writeInService : MSHRRun :=
  let write : Packet := { id := 0, cmd := .writeReq, addr := 0, size := 4 }
  { live := true
    requested := [tagOf write 0 .fromCPU]
    mshr :=
      { blkSize := 8
        inService := true
        pendingModified := true
        targets :=
          { list := [⟨write, 0, 0, .fromCPU, false, true⟩]
            blkSize := 8
            needsWritable := true
            allocOnFill := true
            writesBitmap := [true, true, true, true, false, false, false, false] }
        deferredTargets := { blkSize := 8, writesBitmap := replicate 8 false } } }

lemma reachable_writeInService : Reachable (fun _ => false) writeInService := by
  have h1 := Reachable.call (k := .allocate 0 8 { id := 0, cmd := .writeReq, addr := 0, size := 4 } 0 0 true)
    (Reachable.init : Reachable (fun _ => false) _) ⟨rfl, nofun⟩ rfl
  exact .call (k := .markInService false) h1 ⟨rfl, rfl⟩ (by decide)

def clean : Packet := { id := 1, cmd := .cleanSharedReq, addr := 0, size := 8, req := { clean := true } }

/-- A response that brings a writable block. -/
def writableResp : MSHR.Response where
  pkt := { id := 0, cmd := .readExResp, addr := 0, size := 8 }
  blkValid := true
  blkWritable := true
  now := 0

/-- The clean operation is deferred while the write is in service. The response to the write serves it and promotes the
clean operation, which the next response serves; with that the register is given back. -/
theorem targets_served_once_deferred : ∃ s s' : MSHRRun,
    s.mshr.deferredTargets.list.length = 1 ∧ s.served = [] ∧ s.requested = s.served ++ s.mshr.waiting ∧
    s'.responses.map length = [1, 1] ∧ s'.live = false ∧ s'.served.map Tag.id = [0, 1] ∧ s'.served = s'.requested := by
  have h₁ := Reachable.call (k := .allocateTarget clean 0 1 true) reachable_writeInService ⟨rfl, nofun, nofun⟩ rfl
  have h₂ := Reachable.call (k := .recvTimingResp writableResp) h₁ ⟨rfl, rfl, rfl⟩ rfl
  have h₃ := Reachable.call (k := .markInService false) h₂ ⟨rfl, rfl⟩ rfl
  have h₄ := Reachable.call (k := .recvTimingResp writableResp) h₃ ⟨rfl, rfl, rfl⟩ rfl
  exact ⟨_, _, rfl, rfl, (targets_served_once h₁).1, rfl, rfl, rfl, ((targets_served_once h₄).2.1 rfl).2.2⟩

/-- While a write is in service, a cache clean operation and another write are deferred. The response to the first write
brings a writable block, and stops in `promoteWritable`. -/
theorem promotion_stops : ∃ s r, Reachable (fun _ => false) s ∧ s.Allowed (.recvTimingResp r) ∧
    s.call (fun _ => false) (.recvTimingResp r) = .error .writableTwice := by
  let write : Packet := { id := 2, cmd := .writeReq, addr := 4, size := 4 }
  have h₁ := Reachable.call (k := .allocateTarget clean 0 1 true) reachable_writeInService ⟨rfl, nofun, nofun⟩ rfl
  have h₂ := Reachable.call (k := .allocateTarget write 0 2 true) h₁ ⟨rfl, nofun, nofun⟩ rfl
  exact ⟨_, writableResp, h₂, ⟨rfl, rfl, rfl⟩, rfl⟩

end MSHRRun

end Gem5.Mem
