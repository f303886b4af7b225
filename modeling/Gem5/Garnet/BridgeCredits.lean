import Gem5.Garnet.SerDes

/-!
# Credits across a pair of bridges

Packets go from a sender over a network bridge to a receiver of another flit width; the credits the receiver
returns, one for each flit it has received, go back over the co-bridge of the network bridge. Both bridges
serialize or deserialize: where the network bridge cuts a wide flit into `n` narrow ones, the credit bridge makes
one credit of `n`, and where it collects `n` narrow flits, the credit bridge makes `n` credits of one.

`CreditLoop` is the whole of it and `CreditLoop.Step` a step of any part of it, in any order. What belongs to a virtual channel
is its `Lane`. A `Batch` is a wide flit with the narrow flits that go with it; the invariant, `Books`, is that the
credits of a lane are those of its batches, and that `extraCredit` has the sizes of the batches whose credits are
still to come.
-/

namespace Gem5.Garnet

open Lib Sim Function List AnyFlit BridgeParams

/-! ### Packets on a virtual channel -/

/-- What is being sent on a virtual channel: a packet and the number of its flits that have gone. -/
abbrev Sending := Option (VcPacket × ℕ)

/-- The next flit of a packet on a virtual channel. -/
def Sending.index : Sending → ℕ
  | none => 0
  | some (_, i) => i

/-- When flit `i` of a packet has gone. -/
def VcPacket.following (p : VcPacket) (a i : ℕ) : Sending := if i + 1 < p.numFlits a then some (p, i + 1) else none

lemma VcPacket.index_following (p : VcPacket) (a i : ℕ) :
    (p.following a i).index = if i + 1 < p.numFlits a then i + 1 else 0 := by
  unfold following
  split_ifs <;> rfl

lemma VcPacket.next_eq (p : VcPacket) (w k a i : ℕ) : p.next w k a i = (p.following a i).index * a / (k * w) := by
  rw [next, index_following]
  split_ifs
  · rfl
  · rw [Nat.zero_mul, Nat.zero_div]

/-- `x` is the next flit of width `a`, or the first of a new packet. -/
def Follows (a : ℕ) (q : Sending) (x : Content) (q' : Sending) : Prop :=
  ∃ p i, (q = some (p, i) ∨ q = none ∧ i = 0) ∧ i < p.numFlits a ∧ x = p.flit a i ∧ q' = p.following a i

/-- A list of flits, each the next one. -/
inductive Chain (a : ℕ) : Sending → List Content → Sending → Prop where
  /-- No flit. -/
  | nil (q : Sending) : Chain a q [] q
  /-- One flit, then the others. -/
  | cons {q q' q'' : Sending} {x : Content} {l : List Content} : Follows a q x q' → Chain a q' l q'' → Chain a q (x :: l) q''

variable {l : List Content}

lemma Chain.snoc {a : ℕ} {q q' q'' : Sending} {x : Content} (h : Chain a q l q')
    (hx : Follows a q' x q'') : Chain a q (l ++ [x]) q'' := by
  induction h with
  | nil _ => exact .cons hx (.nil _)
  | cons hf _ ih => exact .cons hf (ih hx)

/-! ### Batches -/

/-- A wide flit and the narrow ones that go with it: their number, and whether they end a packet. -/
structure Batch where
  count : ℕ
  last : Bool
  pos : 0 < count

namespace Batch

/-- The wide flit: whether it is a tail. -/
def wide (b : Batch) : List Bool := [b.last]

/-- The narrow flits: whether each is a tail. -/
def narrow (b : Batch) : List Bool := replicate (b.count - 1) false ++ [b.last]

/-- The side that the flits come from, for a network bridge that serializes or one that deserializes. -/
def ins (ser : Bool) (b : Batch) : List Bool := if ser then b.wide else b.narrow

def outs (ser : Bool) (b : Batch) : List Bool := if ser then b.narrow else b.wide

lemma length_narrow (b : Batch) : b.narrow.length = b.count := by
  have := b.pos
  simp [narrow]
  omega

lemma narrow_last (b : Batch) {n : ℕ} {l : Bool} {rest rest' : List Bool} (hn : n + 1 = b.count)
    (h : replicate n false ++ l :: rest = b.narrow ++ rest') : l = b.last ∧ rest = rest' := by
  unfold narrow at h
  grind [append_assoc, append_cancel_left]

lemma narrow_more (b : Batch) {n : ℕ} {l : Bool} {rest rest' : List Bool} (hn : n + 1 < b.count)
    (h : replicate n false ++ l :: rest = b.narrow ++ rest') :
    replicate (n + 1) false ++ rest = b.narrow ++ rest' := by
  have hl : l = false := by
    have h1 := congrArg (fun x => x[n]?) h
    unfold narrow at h1
    rw [getElem?_append_right (by simp), append_assoc, getElem?_append_left (by simp; omega),
      getElem?_replicate, if_pos (by omega)] at h1
    simpa using h1
  rw [← h, hl, replicate_succ', append_assoc]
  rfl

lemma outs_ne_nil (ser : Bool) (b : Batch) : b.outs ser ≠ [] := by cases ser <;> simp [outs, wide, narrow]

end Batch

/-- The narrow flits that a bridge which deserializes holds when `i` have come. -/
def opened (ser : Bool) (k i : ℕ) : ℕ := if ser then 0 else i % k

/-! ### The bridges -/

section Calls

variable {net cred : BridgeParams} {ser : Bool} {w k a b : ℕ} (now : ℕ) {s : Bridges}

/-- Which of the two widths is the wide one. -/
def Widths (ser : Bool) (w k a b : ℕ) : Prop := if ser then a = k * w ∧ b = w else a = w ∧ b = k * w

variable {p : VcPacket} {i : ℕ} {c : Credit} {t : Batch} {groups : List ℤ}

lemma isLast_slice {j : ℕ} (hij : i < j) (hj : j ≤ p.numFlits w) :
    (slice (p.flit w) i j).map Content.isLast = replicate (j - i - 1) false ++ [decide (j = p.numFlits w)] := by
  obtain ⟨j, rfl⟩ : ∃ j', j = j' + 1 := ⟨j - 1, by omega⟩
  rw [slice_snoc (by omega), map_append, map_singleton, VcPacket.isLast_flit (by omega)]
  congr 1
  refine eq_replicate_iff.mpr ⟨by simp; omega, fun y hy => ?_⟩
  grind [mem_slice, VcPacket.isLast_flit]

lemma decide_sent_eq (hw : 0 < w) (hk : 0 < k) (hi : i < p.numFlits (k * w)) :
    decide (p.sent (k * w) w (i + 1) = p.numFlits w) = decide (i + 1 = p.numFlits (k * w)) := by
  rw [decide_eq_decide]
  by_cases hlast : i + 1 < p.numFlits (k * w)
  · have hlt : (i + 1) * k < p.numFlits w := by simp_all [VcPacket.lt_numFlits, Nat.mul_assoc]
    rw [sent_wide hw hlast]
    omega
  · rw [VcPacket.sent_succ_tail hlast]
    omega

lemma decide_wide_eq (hw : 0 < w) (hk : 0 < k) (hi : i < p.numFlits w) (hfull : k ∣ i + 1 ∨ i + 1 = p.numFlits w) :
    decide (i / k + 1 = p.numFlits (k * w)) = decide (i + 1 = p.numFlits w) := by
  rw [decide_eq_decide]
  by_cases hlast : i + 1 < p.numFlits w
  · have := div_lt_numFlits hw hk hlast
    rw [Nat.succ_div_of_dvd (hfull.resolve_right (by omega))] at this
    omega
  · have := numFlits_wide hw hk hi hlast
    omega

lemma flitisizeAndSend_flit (hc : net.Converts w k a b) (hab : Widths ser w k a b) {f : Flit}
    {e : List ℤ} (hi : i < p.numFlits a) (hf : (flit f).content = p.flit a i)
    (hr : s.own.vcs p.vc = .after w k (i * a / (k * w)) e) :
    ∃ s' fs, net.flitisizeAndSend now (.flit f) s = .ok s' ∧
      s'.own.vcs = update s.own.vcs p.vc (.after w k ((p.following a i).index * a / (k * w)) e) ∧
      s'.own.linkBuffer = s.own.linkBuffer ++ fs ∧ (∀ x ∈ fs.map content, x.vc = p.vc) ∧
      ((∃ t : Batch, s'.co = s.co.neutralize p.vc t.count ∧ (fs.map content).map Content.isLast = t.outs ser ∧
          t.ins ser = replicate (opened ser k i) false ++ [(p.flit a i).isLast] ∧
          opened ser k (p.following a i).index = 0) ∨
        (s'.co = s.co ∧ fs = [] ∧ (p.flit a i).isLast = false ∧
          opened ser k (p.following a i).index = opened ser k i + 1)) := by
  have hw := hc.narrow_pos
  have hk : 0 < k := by have := hc.ratio; omega
  rw [← VcPacket.next_eq, VcPacket.index_following]
  have hvc : ∀ {fs : List AnyFlit} {g m n}, fs.map content = slice (p.flit g) m n →
      ∀ x ∈ fs.map content, x.vc = p.vc := by
    intro fs g m n hfs x hx
    rw [hfs] at hx
    obtain ⟨_, -, -, rfl⟩ := mem_slice.mp hx
    rfl
  cases ser with
  | true =>
    obtain ⟨rfl, rfl⟩ := hab
    rw [Nat.mul_div_cancel _ hc.pos.1] at hr
    obtain ⟨s', fs, h1, h2, h3, h4, h5⟩ := flitisizeAndSend_wide now hw hc.ratio hc.enabled hc.cur hc.target hi hf hr
    have hlt := lt_sent_succ (p := p) hw hk hi
    refine ⟨s', fs, h1, h2, h3, hvc h4, .inl ⟨⟨_, decide (i + 1 = p.numFlits (k * b)), Nat.sub_pos_of_lt hlt⟩, h5, ?_, ?_, rfl⟩⟩
    · rw [h4, sent_wide hw hi, isLast_slice hlt (p.sent_le_numFlits hc.pos.1 hw _), decide_sent_eq hw hk hi]
      rfl
    · rw [VcPacket.isLast_flit hi]
      rfl
  | false =>
    obtain ⟨rfl, rfl⟩ := hab
    rw [Nat.mul_div_mul_right _ _ hw] at hr
    obtain ⟨s', fs, h1, h2, h3, h4, h5⟩ := flitisizeAndSend_narrow now hw hc.ratio hc.enabled hc.cur hc.target hi hf hr
    refine ⟨s', fs, h1, h2, h3, hvc h4, ?_⟩
    have hsent := sent_succ_narrow (p := p) hw hk hi
    rw [sent_narrow hw hi] at h4
    by_cases hfull : k ∣ i + 1 ∨ i + 1 = p.numFlits a
    · rw [if_pos hfull] at hsent
      rw [hsent, if_neg (by omega)] at h5
      rw [hsent, slice_singleton] at h4
      refine .inl ⟨⟨_, decide (i + 1 = p.numFlits a), Nat.succ_pos _⟩, h5, ?_, ?_, ?_⟩
      · rw [h4, map_singleton, VcPacket.isLast_flit (div_lt_numFlits hw hk hi), decide_wide_eq hw hk hi hfull]
        rfl
      · rw [VcPacket.isLast_flit hi]
        rfl
      · change (if i + 1 < p.numFlits a then i + 1 else 0) % k = 0
        split_ifs with hlast
        · exact Nat.mod_eq_zero_of_dvd (hfull.resolve_right (by omega))
        · exact Nat.zero_mod k
    · rw [if_neg hfull] at hsent
      rw [not_or] at hfull
      rw [hsent, if_pos rfl] at h5
      rw [hsent, slice_self, map_eq_nil_iff] at h4
      refine .inr ⟨h5, h4, ?_, ?_⟩
      · simp_all [VcPacket.isLast_flit]
      · rw [if_pos (by omega)]
        change (i + 1) % k = i % k + 1
        have h := Nat.div_add_mod i k
        have h' := Nat.div_add_mod (i + 1) k
        rw [Nat.succ_div_of_not_dvd hfull.1] at h'
        omega

lemma content_deserialize (c : Credit) : (credit c.deserialize).content = .credit c.vc c.isFreeSignal := by
  cases h : c.isFreeSignal <;> simp [Credit.deserialize, content, h]

/-- The flags of one credit made into `n`. -/
lemma isLast_serialize (c : Credit) (t : Batch) (hl : c.isFreeSignal = t.last) :
    ((range t.count).map fun i => (credit (c.serialize i t.count)).content).map Content.isLast = t.narrow := by
  obtain ⟨n, hn⟩ : ∃ n, t.count = n + 1 := ⟨t.count - 1, by have := t.pos; omega⟩
  unfold Batch.narrow
  rw [hn, range_succ, map_append, map_append, Nat.add_sub_cancel]
  congr 1
  · refine eq_replicate_iff.mpr ⟨by simp, fun y hy => ?_⟩
    simp only [mem_map, mem_range] at hy
    obtain ⟨_, ⟨i, hi, rfl⟩, rfl⟩ := hy
    have : (i : ℤ) ≠ n := by exact_mod_cast hi.ne
    simp [content, Content.isLast, Credit.serialize, this]
  · simp [content, Content.isLast, Credit.serialize, hl]

/-- A credit through a credit bridge that makes one of several: it is counted, and the last of a batch goes on. -/
lemma flitisizeAndSend_credit_narrow (hen : cred.enSerDes = true) (hw : cred.curWidth < cred.targetWidth)
    {part : ℕ} (hgroups : (s.own.vcs c.vc).extraCredit = (t.count : ℤ) :: groups)
    (hlen : (s.own.vcs c.vc).lenBuffer = part) :
    ∃ s' fs r, cred.flitisizeAndSend now (.credit c) s = .ok s' ∧ s'.co = s.co ∧
      s'.own.vcs = update s.own.vcs c.vc r ∧ s'.own.linkBuffer = s.own.linkBuffer ++ fs ∧
      if part + 1 = t.count then
        fs.map content = [.credit c.vc c.isFreeSignal] ∧ r.extraCredit = groups ∧ r.lenBuffer = 0
      else fs = [] ∧ r.extraCredit = (t.count : ℤ) :: groups ∧ r.lenBuffer = (part + 1 : ℕ) := by
  have hcount : (t.count : ℤ) ≠ 0 := by exact_mod_cast t.pos.ne'
  by_cases hfull : part + 1 = t.count
  · have hd : cred.deserializable (.credit c) (s.own.vcs c.vc) =
        .ok ({ s.own.vcs c.vc with extraCredit := groups, lenBuffer := 0 }, 0, 1) := by
      unfold deserializable
      grind [ensure_bind]
    have hcall := flitisizeAndSend_deserialize now hen hw hd one_ne_zero rfl
    obtain ⟨fs, hbuf, hfs⟩ := scheduleAll_linkBuffer (c := cred) now content_setTime _ _
    refine ⟨_, fs, _, hcall, rfl, scheduleAll_vcs now _ _, hbuf, ?_⟩
    simp_all [content_deserialize]
  · have hd : cred.deserializable (.credit c) (s.own.vcs c.vc) =
        .ok ({ s.own.vcs c.vc with lenBuffer := (part + 1 : ℕ) }, 0, 0) := by
      unfold deserializable
      grind [ensure_bind]
    refine ⟨_, [], _, flitisizeAndSend_wait now hen hw hd, rfl, rfl, (append_nil _).symm, ?_⟩
    rw [if_neg hfull]
    exact ⟨rfl, hgroups, rfl⟩

lemma flitisizeAndSend_credit_wide (hen : cred.enSerDes = true) (hw : cred.targetWidth < cred.curWidth)
    (hgroups : (s.own.vcs c.vc).extraCredit = (t.count : ℤ) :: groups) :
    ∃ s' fs r, cred.flitisizeAndSend now (.credit c) s = .ok s' ∧ s'.co = s.co ∧
      s'.own.vcs = update s.own.vcs c.vc r ∧ s'.own.linkBuffer = s.own.linkBuffer ++ fs ∧
      fs.map content = (range t.count).map (fun i => (credit (c.serialize i t.count)).content) ∧
      r.extraCredit = groups ∧ r.lenBuffer = (s.own.vcs c.vc).lenBuffer := by
  have hcount : (t.count : ℤ) ≠ 0 := by exact_mod_cast t.pos.ne'
  have hd : cred.serializable (.credit c) (s.own.vcs c.vc) =
      .ok ({ s.own.vcs c.vc with extraCredit := groups }, t.count) := by
    unfold serializable
    simp_all [ensure_bind]
  have hparts : ∀ i < (t.count : ℤ).toNat, (credit c).serialize i t.count cred.targetWidth =
      .ok (.credit (c.serialize i t.count)) := fun _ _ => rfl
  have hcall := flitisizeAndSend_serialize now hen hw hd (by exact_mod_cast t.pos) hparts
  obtain ⟨fs, hbuf, hfs⟩ := scheduleAll_linkBuffer (c := cred) now content_setTime _ _
  rw [map_map] at hfs
  exact ⟨_, fs, _, hcall, rfl, scheduleAll_vcs now _ _, hbuf, hfs, rfl, rfl⟩

lemma flitisizeAndSend_credit (hc : cred.Converts w k b a) (hab : Widths ser w k a b) {part : ℕ}
    {rest rest' : List Bool} (hgroups : (s.own.vcs c.vc).extraCredit = (t.count : ℤ) :: groups)
    (hlen : (s.own.vcs c.vc).lenBuffer = part) (hpart : part < (t.outs ser).length)
    (hflags : replicate part false ++ c.isFreeSignal :: rest = t.outs ser ++ rest') :
    ∃ s' fs r, cred.flitisizeAndSend now (.credit c) s = .ok s' ∧ s'.co = s.co ∧
      s'.own.vcs = update s.own.vcs c.vc r ∧ s'.own.linkBuffer = s.own.linkBuffer ++ fs ∧
      (∀ x ∈ fs.map content, x.vc = c.vc) ∧
      (((fs.map content).map Content.isLast = t.ins ser ∧ r.extraCredit = groups ∧ r.lenBuffer = 0 ∧ rest = rest') ∨
        (fs = [] ∧ r.extraCredit = (t.count : ℤ) :: groups ∧ r.lenBuffer = (part + 1 : ℕ) ∧
          part + 1 < (t.outs ser).length ∧ replicate (part + 1) false ++ rest = t.outs ser ++ rest')) := by
  have hww : w < k * w := (Nat.lt_mul_iff_one_lt_left hc.narrow_pos).mpr hc.ratio
  cases ser with
  | true =>
    obtain ⟨rfl, rfl⟩ := hab
    change part < t.narrow.length at hpart
    change _ = t.narrow ++ rest' at hflags
    obtain ⟨s', fs, r, h1, h2, h3, h4, h5⟩ := flitisizeAndSend_credit_narrow now hc.enabled
      (by rwa [hc.cur, hc.target]) hgroups hlen
    refine ⟨s', fs, r, h1, h2, h3, h4, ?_, ?_⟩
    · split_ifs at h5
      · rw [h5.1]
        simp [Content.vc]
      · rw [h5.1]
        simp
    · split_ifs at h5 with hfull
      · obtain ⟨hl, hrest⟩ := t.narrow_last hfull hflags
        refine .inl ⟨?_, h5.2.1, h5.2.2, hrest⟩
        rw [h5.1, map_singleton]
        change [c.isFreeSignal] = [t.last]
        rw [hl]
      · rw [Batch.length_narrow] at hpart
        have hmore := t.narrow_more (by omega) hflags
        refine .inr ⟨h5.1, h5.2.1, h5.2.2, ?_, hmore⟩
        change part + 1 < t.narrow.length
        rw [Batch.length_narrow]
        omega
  | false =>
    obtain ⟨rfl, rfl⟩ := hab
    have hpart0 : part = 0 := Nat.lt_one_iff.mp hpart
    subst hpart0
    obtain ⟨hl, hrest⟩ : c.isFreeSignal = t.last ∧ rest = rest' := by
      change [] ++ c.isFreeSignal :: rest = [t.last] ++ rest' at hflags
      simpa using hflags
    obtain ⟨s', fs, r, h1, h2, h3, h4, h5, h6, h7⟩ := flitisizeAndSend_credit_wide now hc.enabled
      (by rwa [hc.cur, hc.target]) hgroups
    refine ⟨s', fs, r, h1, h2, h3, h4, ?_, .inl ⟨?_, h6, h7.trans hlen, hrest⟩⟩
    · rw [h5]
      intro x hx
      obtain ⟨i, -, rfl⟩ := mem_map.mp hx
      rfl
    · rw [h5]
      exact isLast_serialize c t hl

end Calls

/-! ### The loop -/

/-- A sender and a receiver with a network bridge and a credit bridge between them. -/
structure CreditLoop where
  netBridge : NetworkBridge := {}
  credBridge : NetworkBridge := {}
  /-- `link_srcQueue` of the network bridge. -/
  flits : List AnyFlit := []
  /-- What the receiver has received on a virtual channel and not returned a credit for. -/
  held : ℕ → List AnyFlit := fun _ => []
  /-- `link_srcQueue` of the credit bridge. -/
  credits : List AnyFlit := []
  /-- What the sender is sending on each virtual channel. -/
  sending : ℕ → Sending := fun _ => none
  /-- All that the sender has sent. -/
  sent : List Content := []
  /-- All credits that the sender has received. -/
  received : List Content := []

namespace CreditLoop

/-- A step of one of the parts, with flits of width `a` at the sender. -/
inductive Step (net cred : BridgeParams) (a : ℕ) (s : CreditLoop) : CreditLoop → Prop where
  /-- The sender sends the next flit of a packet. -/
  | send {f : Flit} {q : Sending} (h : Follows a (s.sending f.vc) (flit f).content q) :
      Step net cred a s { s with
        flits := s.flits ++ [.flit f]
        sent := s.sent ++ [(flit f).content]
        sending := update s.sending f.vc q }
  /-- The network bridge wakes up. -/
  | netWakeup {now : ℕ} {n c : NetworkBridge} {rest : List AnyFlit} {again : Bool}
      (h : net.wakeup now s.flits ⟨s.netBridge, s.credBridge⟩ = .ok (⟨n, c⟩, rest, again)) :
      Step net cred a s { s with netBridge := n, credBridge := c, flits := rest }
  /-- The receiver takes a flit from the network bridge. -/
  | receive {t : AnyFlit} {rest : List AnyFlit} (h : s.netBridge.linkBuffer = t :: rest) :
      Step net cred a s { s with
        netBridge := { s.netBridge with linkBuffer := rest }
        held := update s.held t.vc (s.held t.vc ++ [t]) }
  /-- The receiver returns a credit for the first flit that it has on `v`, a free signal if that is a tail. -/
  | credit {v now : ℕ} {t : AnyFlit} {rest : List AnyFlit} (h : s.held v = t :: rest) :
      Step net cred a s { s with
        held := update s.held v rest
        credits := s.credits ++ [.credit ⟨v, t.content.isLast, now⟩] }
  /-- The credit bridge wakes up. -/
  | credWakeup {now : ℕ} {n c : NetworkBridge} {rest : List AnyFlit} {again : Bool}
      (h : cred.wakeup now s.credits ⟨s.credBridge, s.netBridge⟩ = .ok (⟨c, n⟩, rest, again)) :
      Step net cred a s { s with netBridge := n, credBridge := c, credits := rest }
  /-- The sender takes a credit from the credit bridge. -/
  | collect {t : AnyFlit} {rest : List AnyFlit} (h : s.credBridge.linkBuffer = t :: rest) :
      Step net cred a s { s with
        credBridge := { s.credBridge with linkBuffer := rest }
        received := s.received ++ [t.content] }

inductive Reachable (net cred : BridgeParams) (a : ℕ) : CreditLoop → Prop where
  /-- New bridges, and nothing sent. -/
  | init : Reachable net cred a {}
  | step {s s' : CreditLoop} : Reachable net cred a s → Step net cred a s s' → Reachable net cred a s'

/-- Of what is on virtual channel `v`, which are tails or free signals. -/
def flags (v : ℕ) (l : List Content) : List Bool := (onVc v l).map Content.isLast

/-- Nothing is under way on `v`, and the sender is between two packets. -/
structure Drained (s : CreditLoop) (v : ℕ) : Prop where
  flits : onVc v (s.flits.map content) = []
  netOut : onVc v (s.netBridge.linkBuffer.map content) = []
  held : s.held v = []
  credits : onVc v (s.credits.map content) = []
  credOut : onVc v (s.credBridge.linkBuffer.map content) = []
  sending : s.sending v = none

end CreditLoop

/-! ### Lanes -/

/-- What of the loop belongs to one virtual channel. -/
@[ext] structure Lane where
  sent : List Bool
  flits : List Content
  netVc : BridgeVc
  netOut : List Bool
  held : List Bool
  credits : List Bool
  extraCredit : List ℤ
  lenBuffer : ℤ
  credOut : List Bool
  received : List Bool
  sending : Sending

namespace Lane

variable {ser : Bool} {w k a : ℕ} {l : Lane} {done todo : List Batch} {part : ℕ} {q q' : Sending} {x : Content} {t : Batch}

/-- The batches of a lane, those whose credits are back and those whose are not. `part` credits of the first of these
have reached the credit bridge, and `q` is where the network bridge is in the packets. -/
structure Books (ser : Bool) (w k a : ℕ) (l : Lane) (done todo : List Batch) (part : ℕ) (q : Sending) : Prop where
  sent : l.sent = done.flatMap (Batch.ins ser) ++ todo.flatMap (Batch.ins ser) ++
    replicate (opened ser k q.index) false ++ l.flits.map Content.isLast
  received : l.received ++ l.credOut = done.flatMap (Batch.ins ser)
  back : replicate part false ++ (l.credits ++ l.held ++ l.netOut) = todo.flatMap (Batch.outs ser)
  groups : l.extraCredit = todo.map fun t => (t.count : ℤ)
  len : l.lenBuffer = part
  part_lt : ∀ t ∈ todo.head?, part < (t.outs ser).length
  netVc : l.netVc = .after w k (q.index * a / (k * w)) l.netVc.extraCredit
  chain : Chain a q l.flits l.sending

variable {rest : List Bool} {y : Bool}

section

variable (h : Books ser w k a l done todo part q)
include h

lemma Books.first {c : Bool} (hc : l.credits = c :: rest) : ∃ t todo', todo = t :: todo' := by
  cases todo with
  | nil =>
    have := h.back
    rw [hc] at this
    simp at this
  | cons t todo' => exact ⟨t, todo', rfl⟩

lemma Books.send (hx : Follows a l.sending x q') :
    Books ser w k a { l with sent := l.sent ++ [x.isLast], flits := l.flits ++ [x], sending := q' } done todo part q where
  __ := h
  sent := by simp [h.sent]
  chain := h.chain.snoc hx

section

variable {rest : List Content} {r : BridgeVc} (hl : l.flits = x :: rest) (hq : Chain a q' rest l.sending)
  (hr : r = .after w k (q'.index * a / (k * w)) r.extraCredit)
include hl hq hr

lemma Books.pass (hins : t.ins ser = replicate (opened ser k q.index) false ++ [x.isLast])
    (hopen : opened ser k q'.index = 0) :
    Books ser w k a { l with
      flits := rest, netVc := r, netOut := l.netOut ++ t.outs ser, extraCredit := l.extraCredit ++ [(t.count : ℤ)] }
      done (todo ++ [t]) part q' where
  __ := h
  sent := by simp [h.sent, hl, hins, hopen]
  back := by grind [Books.back]
  groups := by simp [h.groups]
  part_lt := by
    cases todo with
    | nil =>
      have hzero : part = 0 := by
        have := congrArg length h.back
        simp at this
        omega
      simp_all [length_pos_of_ne_nil, Batch.outs_ne_nil]
    | cons u todo' => exact h.part_lt
  netVc := hr
  chain := hq

lemma Books.hold (hx : x.isLast = false) (hopen : opened ser k q'.index = opened ser k q.index + 1) :
    Books ser w k a { l with flits := rest, netVc := r } done todo part q' where
  __ := h
  sent := by simp [h.sent, hl, hx, hopen, replicate_succ']
  netVc := hr
  chain := hq

end

lemma Books.receive (hl : l.netOut = y :: rest) :
    Books ser w k a { l with netOut := rest, held := l.held ++ [y] } done todo part q where
  __ := h
  back := by simpa [hl] using h.back

lemma Books.credit (hl : l.held = y :: rest) :
    Books ser w k a { l with held := rest, credits := l.credits ++ [y] } done todo part q where
  __ := h
  back := by simpa [hl] using h.back

end

lemma Books.return_ (h : Books ser w k a l done (t :: todo) part q)
    (hrest : rest ++ l.held ++ l.netOut = todo.flatMap (Batch.outs ser)) :
    Books ser w k a { l with
      credits := rest, extraCredit := todo.map fun t => (t.count : ℤ), lenBuffer := 0, credOut := l.credOut ++ t.ins ser }
      (done ++ [t]) todo 0 q where
  __ := h
  sent := by simp [h.sent]
  received := by simp [← h.received]
  back := by simpa using hrest
  groups := rfl
  len := rfl
  part_lt := fun u _ => length_pos_of_ne_nil (u.outs_ne_nil ser)

lemma Books.count (h : Books ser w k a l done (t :: todo) part q)
    (hrest : replicate (part + 1) false ++ (rest ++ l.held ++ l.netOut) = (t :: todo).flatMap (Batch.outs ser))
    (hlt : part + 1 < (t.outs ser).length) :
    Books ser w k a { l with credits := rest, lenBuffer := (part + 1 : ℕ) } done (t :: todo) (part + 1) q where
  __ := h
  back := hrest
  len := rfl
  part_lt := by
    intro u hu
    cases hu
    exact hlt

lemma Books.collect (h : Books ser w k a l done todo part q) (hl : l.credOut = y :: rest) :
    Books ser w k a { l with credOut := rest, received := l.received ++ [y] } done todo part q where
  __ := h
  received := by simpa [hl] using h.received

lemma Books.todo_eq_nil (h : Books ser w k a l done todo part q) (h1 : l.credits = []) (h2 : l.held = [])
    (h3 : l.netOut = []) : todo = [] := by
  cases todo with
  | nil => rfl
  | cons t todo' =>
    have hlt := h.part_lt t rfl
    have hlen := congrArg length h.back
    simp [h1, h2, h3] at hlen
    omega

end Lane

/-! ### Runs -/

lemma onVc_append (v : ℕ) (l l' : List Content) : onVc v (l ++ l') = onVc v l ++ onVc v l' := filter_append ..

lemma onVc_self {v : ℕ} (h : ∀ x ∈ l, x.vc = v) : onVc v l = l :=
  filter_eq_self.mpr (by simpa using h)

lemma onVc_other {v v' : ℕ} (h : ∀ x ∈ l, x.vc = v) (hv : v' ≠ v) : onVc v' l = [] := by
  refine filter_eq_nil_iff.mpr fun x hx => ?_
  rw [h x hx]
  simpa using hv.symm

namespace CreditLoop

variable {net cred : BridgeParams} {ser : Bool} {w k a b : ℕ} {s s' : CreditLoop}

@[simp] lemma flags_nil (v : ℕ) : flags v [] = [] := rfl

@[simp] lemma flags_append (v : ℕ) (l l' : List Content) : flags v (l ++ l') = flags v l ++ flags v l' := by
  simp [flags, onVc_append]

variable {v now : ℕ} {l : List Content} {rest : List AnyFlit} {t : AnyFlit} {c : BridgeParams}

lemma flags_self (h : ∀ x ∈ l, x.vc = v) : flags v l = l.map Content.isLast := by
  rw [flags, onVc_self h]

lemma flags_other {v' : ℕ} (h : ∀ x ∈ l, x.vc = v) (hv : v' ≠ v) : flags v' l = [] := by
  rw [flags, onVc_other h hv, map_nil]

lemma flags_cons_self {x : Content} : flags x.vc (x :: l) = x.isLast :: flags x.vc l := by
  simp [flags, onVc]

lemma flags_cons_other {x : Content} (hv : v ≠ x.vc) : flags v (x :: l) = flags v l := by
  simp [flags, onVc, hv.symm]

def lane (s : CreditLoop) (v : ℕ) : Lane where
  sent := flags v s.sent
  flits := onVc v (s.flits.map content)
  netVc := s.netBridge.vcs v
  netOut := flags v (s.netBridge.linkBuffer.map content)
  held := (s.held v).map fun t => t.content.isLast
  credits := flags v (s.credits.map content)
  extraCredit := (s.credBridge.vcs v).extraCredit
  lenBuffer := (s.credBridge.vcs v).lenBuffer
  credOut := flags v (s.credBridge.linkBuffer.map content)
  received := flags v s.received
  sending := s.sending v

lemma lane_credits {c : Credit} (h : s.credits = .credit c :: rest) :
    (s.lane c.vc).credits = c.isFreeSignal :: flags c.vc (rest.map content) := by
  simp only [lane, h, map_cons]
  exact flags_cons_self (x := (credit c).content)

structure Balanced (ser : Bool) (w k a : ℕ) (s : CreditLoop) : Prop where
  lanes : ∀ v, ∃ done todo part q, Lane.Books ser w k a (s.lane v) done todo part q
  credits : ∀ t ∈ s.credits, t.isCredit = true

/-- A step on virtual channel `v` leaves the other lanes as they are. -/
lemma Balanced.of_lane (h : s.Balanced ser w k a) (v : ℕ) (hother : ∀ v', v' ≠ v → s'.lane v' = s.lane v')
    (hlane : ∃ done todo part q, Lane.Books ser w k a (s'.lane v) done todo part q)
    (hcredits : ∀ t ∈ s'.credits, t.isCredit = true) : s'.Balanced ser w k a where
  lanes v' := by
    by_cases hv : v' = v
    · subst hv
      exact hlane
    · rw [hother v' hv]
      exact h.lanes v'
  credits := hcredits

lemma Balanced.init : Balanced ser w k a {} where
  lanes v := ⟨[], [], 0, none, {
    sent := by simp [lane, flags, onVc, opened, Sending.index]
    received := rfl
    back := rfl
    groups := rfl
    len := rfl
    part_lt := by simp
    netVc := by simp [lane, Sending.index, BridgeVc.after]
    chain := .nil none }⟩
  credits := by simp

section

variable (h : s.Balanced ser w k a)
include h

lemma Balanced.send {f : Flit} {q : Sending} (hf : Follows a (s.sending f.vc) (flit f).content q) :
    Balanced ser w k a { s with
      flits := s.flits ++ [.flit f]
      sent := s.sent ++ [(flit f).content]
      sending := update s.sending f.vc q } := by
  have hvc : ∀ x ∈ [(flit f).content], x.vc = f.vc := by simp [vc_content, vc]
  refine h.of_lane f.vc (fun v hv => ?_) ?_ h.credits
  · simp [lane, onVc_append, flags_other hvc hv, onVc_other hvc hv, hv]
  · obtain ⟨done, todo, part, q', hb⟩ := h.lanes f.vc
    refine ⟨done, todo, part, q', ?_⟩
    have := hb.send hf
    simpa [lane, onVc_append, flags_self hvc, onVc_self hvc] using this

lemma Balanced.receive (ht : s.netBridge.linkBuffer = t :: rest) : Balanced ser w k a { s with
      netBridge := { s.netBridge with linkBuffer := rest }
      held := update s.held t.vc (s.held t.vc ++ [t]) } := by
  refine h.of_lane t.vc (fun v hv => ?_) ?_ h.credits
  · rw [← vc_content] at hv
    simp [lane, ht, flags_cons_other hv]
    simp [← vc_content, hv]
  · obtain ⟨done, todo, part, q, hb⟩ := h.lanes t.vc
    refine ⟨done, todo, part, q, ?_⟩
    have hout : (s.lane t.vc).netOut = t.content.isLast :: flags t.vc (rest.map content) := by
      simp only [lane, ht, map_cons]
      rw [← vc_content, flags_cons_self]
    have := hb.receive hout
    simpa [lane] using this

lemma Balanced.credit (ht : s.held v = t :: rest) : Balanced ser w k a { s with
      held := update s.held v rest
      credits := s.credits ++ [.credit ⟨v, t.content.isLast, now⟩] } := by
  have hvc : ∀ x ∈ [(AnyFlit.credit ⟨v, t.content.isLast, now⟩).content], x.vc = v := by
    simp [content, Content.vc]
  refine h.of_lane v (fun v' hv => ?_) ?_ ?_
  · simp [lane, flags_other hvc hv, hv]
  · obtain ⟨done, todo, part, q, hb⟩ := h.lanes v
    refine ⟨done, todo, part, q, ?_⟩
    have hheld : (s.lane v).held = t.content.isLast :: rest.map fun t => t.content.isLast := by simp [lane, ht]
    have hone : flags v [(AnyFlit.credit ⟨v, t.content.isLast, now⟩).content] = [t.content.isLast] := by
      rw [flags_self hvc]
      rfl
    have := hb.credit hheld
    simpa [lane, hone] using this
  · intro x hx
    obtain hx | hx := mem_append.mp hx
    · exact h.credits x hx
    · rw [mem_singleton.mp hx]
      rfl

lemma Balanced.collect (ht : s.credBridge.linkBuffer = t :: rest) : Balanced ser w k a { s with
      credBridge := { s.credBridge with linkBuffer := rest }
      received := s.received ++ [t.content] } := by
  have hvc : ∀ x ∈ [t.content], x.vc = t.vc := by simp [vc_content]
  refine h.of_lane t.vc (fun v hv => ?_) ?_ h.credits
  · have hv' : v ≠ t.content.vc := by rwa [vc_content]
    simp [lane, ht, flags_cons_other hv']
  · obtain ⟨done, todo, part, q, hb⟩ := h.lanes t.vc
    refine ⟨done, todo, part, q, ?_⟩
    have hout : (s.lane t.vc).credOut = t.content.isLast :: flags t.vc (rest.map content) := by
      simp only [lane, ht, map_cons]
      rw [← vc_content, flags_cons_self]
    have := hb.collect hout
    simpa [lane, flags_self hvc] using this

lemma Balanced.exists_net (hc : net.Converts w k a b) (hab : Widths ser w k a b) (now : ℕ)
    (ht : s.flits = t :: rest) :
    ∃ u, net.flitisizeAndSend now t ⟨s.netBridge, s.credBridge⟩ = .ok u ∧
      Balanced ser w k a { s with netBridge := u.own, credBridge := u.co, flits := rest } := by
  obtain ⟨done, todo, part, q, hb⟩ := h.lanes t.vc
  have hflits : (s.lane t.vc).flits = t.content :: onVc t.vc (rest.map content) := by
    simp [lane, ht, onVc, vc_content]
  have hchain := hb.chain
  rw [hflits] at hchain
  cases hchain with
  | cons hx hrest =>
    obtain ⟨p, i, hq, hi, hcontent, rfl⟩ := hx
    have hindex : q.index = i := by
      obtain rfl | ⟨rfl, rfl⟩ := hq <;> rfl
    have hvc : t.vc = p.vc := by rw [← vc_content, hcontent, VcPacket.vc_flit]
    cases t with
    | credit _ => cases hcontent
    | flit f =>
      have hr := hb.netVc
      rw [hindex] at hr
      rw [hvc] at hb hr hflits hrest
      obtain ⟨u, fs, hcall, hvcs, hbuf, hfs, hcases⟩ :=
        flitisizeAndSend_flit (s := ⟨s.netBridge, s.credBridge⟩) now hc hab hi hcontent hr
      dsimp only at hvcs hbuf hcases
      refine ⟨u, hcall, h.of_lane p.vc (fun v hv => ?_) ?_ h.credits⟩
      · have hflit : onVc v ((flit f).content :: rest.map content) = onVc v (rest.map content) := by
          rw [← singleton_append, onVc_append, onVc_other (v := p.vc) (by simp [hcontent, VcPacket.vc_flit]) hv]
          rfl
        have hco : u.co.linkBuffer = s.credBridge.linkBuffer ∧ u.co.vcs v = s.credBridge.vcs v := by
          obtain ⟨t, hco, -⟩ | ⟨hco, -⟩ := hcases
          · rw [hco, NetworkBridge.neutralize_vcs]
            exact ⟨rfl, update_of_ne hv ..⟩
          · rw [hco]
            exact ⟨rfl, rfl⟩
        simp [lane, ht, hflit, hvcs, hv, hbuf, flags_other hfs hv, hco]
      · rw [← hcontent] at hcases
        obtain ⟨t, hco, houts, hins, hopen⟩ | ⟨hco, rfl, hlast, hopen⟩ := hcases
        · refine ⟨done, todo ++ [t], part, p.following a i, ?_⟩
          have hb' := hb.pass (r := u.own.vcs p.vc) hflits hrest (by rw [hvcs, update_self]; rfl)
            (by rw [hindex, hins]) hopen
          convert hb' using 1
          ext1
          all_goals simp [lane, hbuf, flags_self hfs, houts, hco, NetworkBridge.neutralize_vcs]
        · refine ⟨done, todo, part, p.following a i, ?_⟩
          have hb' := hb.hold (r := u.own.vcs p.vc) hflits hrest (by rw [hvcs, update_self]; rfl)
            hlast (by rw [hopen, hindex])
          convert hb' using 1
          ext1
          all_goals simp [lane, hbuf, hco]

lemma Balanced.exists_cred (hc : cred.Converts w k b a) (hab : Widths ser w k a b) (now : ℕ)
    (ht : s.credits = t :: rest) :
    ∃ u, cred.flitisizeAndSend now t ⟨s.credBridge, s.netBridge⟩ = .ok u ∧
      Balanced ser w k a { s with netBridge := u.co, credBridge := u.own, credits := rest } := by
  have hcredits : ∀ x ∈ rest, x.isCredit = true := fun x hx => h.credits x (by rw [ht]; exact mem_cons_of_mem _ hx)
  cases t with
  | flit f =>
    have := h.credits (.flit f) (by rw [ht]; exact mem_cons_self ..)
    cases this
  | credit c =>
    obtain ⟨done, todo, part, q, hb⟩ := h.lanes c.vc
    have hfirst := lane_credits ht
    obtain ⟨t, todo, rfl⟩ := hb.first hfirst
    have hback := hb.back
    rw [hfirst, flatMap_cons] at hback
    obtain ⟨u, fs, r, hcall, hco, hvcs, hbuf, hfs, hcases⟩ :=
      flitisizeAndSend_credit (s := ⟨s.credBridge, s.netBridge⟩) now hc hab hb.groups hb.len (hb.part_lt t rfl) hback
    dsimp only at hco hvcs hbuf
    refine ⟨u, hcall, h.of_lane c.vc (fun v hv => ?_) ?_ hcredits⟩
    · have hcred : flags v ((AnyFlit.credit c).content :: rest.map AnyFlit.content) = flags v (rest.map AnyFlit.content) :=
        flags_cons_other hv
      simp [lane, ht, hcred, hvcs, hv, hbuf, flags_other hfs hv, hco]
    · obtain ⟨hins, hgroups, hlen, hrest⟩ | ⟨rfl, hgroups, hlen, hlt, hrest⟩ := hcases
      · refine ⟨done ++ [t], todo, 0, q, ?_⟩
        convert hb.return_ hrest using 1
        ext1
        all_goals simp [lane, hvcs, hbuf, flags_self hfs, hins, hco, hgroups, hlen]
      · refine ⟨done, t :: todo, part + 1, q, ?_⟩
        have hsame : r.extraCredit = (s.credBridge.vcs c.vc).extraCredit := hgroups.trans hb.groups.symm
        convert hb.count hrest hlt using 1
        ext1
        all_goals simp [lane, hvcs, hbuf, hco, hsame, hlen]

end

lemma wakeup_cases {queue : List AnyFlit} {s u : Bridges} {again : Bool}
    (h : c.wakeup now queue s = .ok (u, rest, again)) :
    u = s ∧ rest = queue ∨ ∃ t, queue = t :: rest ∧ c.flitisizeAndSend now t s = .ok u := by
  cases queue with
  | nil =>
    cases h
    exact .inl ⟨rfl, rfl⟩
  | cons t queue =>
    unfold wakeup at h
    grind [bind_eq_ok]

lemma exists_wakeup {queue : List AnyFlit} {s : Bridges}
    (h : ∀ t rest, queue = t :: rest → ∃ u, c.flitisizeAndSend now t s = .ok u) : ∃ x, c.wakeup now queue s = .ok x := by
  cases queue with
  | nil => exact ⟨_, rfl⟩
  | cons t rest =>
    obtain ⟨u, hu⟩ := h t rest rfl
    unfold wakeup
    dsimp only
    split_ifs
    · rw [hu]
      exact ⟨_, rfl⟩
    · exact ⟨_, rfl⟩

lemma Balanced.step (h : s.Balanced ser w k a) (hnet : net.Converts w k a b) (hcred : cred.Converts w k b a)
    (hab : Widths ser w k a b) (hstep : Step net cred a s s') : s'.Balanced ser w k a := by
  cases hstep with
  | send hf => exact h.send hf
  | receive ht => exact h.receive ht
  | credit ht => exact h.credit ht
  | collect ht => exact h.collect ht
  | @netWakeup now _ _ _ _ hw =>
    obtain ⟨hs, rfl⟩ | ⟨t, ht, hcall⟩ := wakeup_cases hw
    · cases hs
      exact h
    · obtain ⟨u, hu, hbal⟩ := h.exists_net hnet hab now ht
      rw [hcall] at hu
      cases hu
      exact hbal
  | @credWakeup now _ _ _ _ hw =>
    obtain ⟨hs, rfl⟩ | ⟨t, ht, hcall⟩ := wakeup_cases hw
    · cases hs
      exact h
    · obtain ⟨u, hu, hbal⟩ := h.exists_cred hcred hab now ht
      rw [hcall] at hu
      cases hu
      exact hbal

lemma Reachable.balanced (hs : Reachable net cred a s) (hnet : net.Converts w k a b) (hcred : cred.Converts w k b a)
    (hab : Widths ser w k a b) : s.Balanced ser w k a := by
  induction hs with
  | init => exact .init
  | step _ hstep ih => exact ih.step hnet hcred hab hstep

lemma Balanced.received_prefix (h : s.Balanced ser w k a) (v : ℕ) : flags v s.received <+: flags v s.sent := by
  obtain ⟨done, todo, part, q, hb⟩ := h.lanes v
  have hsent : flags v s.sent = _ := hb.sent
  rw [hsent, ← hb.received, append_assoc, append_assoc, append_assoc]
  exact prefix_append ..

lemma Balanced.drained (h : s.Balanced ser w k a) (hv : s.Drained v) : flags v s.received = flags v s.sent := by
  obtain ⟨done, todo, part, q, hb⟩ := h.lanes v
  have hq : q = none := by
    have hchain := hb.chain
    rw [show (s.lane v).flits = [] from hv.flits, show (s.lane v).sending = none from hv.sending] at hchain
    cases hchain
    rfl
  have htodo : todo = [] := by
    apply hb.todo_eq_nil
    · simp [lane, flags, hv.credits]
    · simp [lane, hv.held]
    · simp [lane, flags, hv.netOut]
  subst hq htodo
  have hsent : flags v s.sent = _ := hb.sent
  have hreceived := hb.received
  rw [show (s.lane v).credOut = [] by simp [lane, flags, hv.credOut], append_nil] at hreceived
  rw [hsent, ← hreceived, show (s.lane v).flits = [] from hv.flits]
  have hnone : opened ser k (Sending.index none) = 0 := by cases ser <;> simp [opened, Sending.index]
  simp [hnone, lane]

lemma Balanced.front (h : s.Balanced ser w k a) {c : Credit} (hc : s.credits = .credit c :: rest) :
    ∃ e es, (s.credBridge.vcs c.vc).extraCredit = e :: es ∧ 0 < e := by
  obtain ⟨done, todo, part, q, hb⟩ := h.lanes c.vc
  obtain ⟨t, todo, rfl⟩ := hb.first (lane_credits hc)
  exact ⟨_, _, hb.groups, Int.natCast_pos.mpr t.pos⟩

/-! ### Equal widths -/

/-- Nothing has passed the network bridge. -/
structure Stopped (s : CreditLoop) : Prop where
  flits : s.flits.map content = s.sent
  netOut : s.netBridge.linkBuffer = []
  held : ∀ v, s.held v = []
  credits : s.credits = []
  credOut : s.credBridge.linkBuffer = []
  received : s.received = []

lemma flitisizeAndSend_sameWidth (hen : c.enSerDes = true) (hw : c.targetWidth = c.curWidth) (now : ℕ)
    (t : AnyFlit) (s : Bridges) : c.flitisizeAndSend now t s = .error .sameWidth := by
  unfold flitisizeAndSend
  rw [if_pos hen, ensure_bind, if_neg (by simpa using hw)]

lemma Reachable.stopped (hs : Reachable net cred a s) (hen : net.enSerDes = true)
    (hw : net.targetWidth = net.curWidth) : s.Stopped := by
  induction hs with
  | init => exact ⟨rfl, rfl, fun _ => rfl, rfl, rfl, rfl⟩
  | step _ hstep ih =>
    cases hstep with
    | send _ => exact { ih with flits := by simp [ih.flits] }
    | receive h =>
      rw [ih.netOut] at h
      cases h
    | credit h =>
      rw [ih.held] at h
      cases h
    | collect h =>
      rw [ih.credOut] at h
      cases h
    | netWakeup h =>
      obtain ⟨hs, rfl⟩ | ⟨t, -, hcall⟩ := wakeup_cases h
      · cases hs
        exact ih
      simp_all [flitisizeAndSend_sameWidth]
    | credWakeup h =>
      rw [ih.credits] at h
      cases h
      exact { ih with credits := rfl }

/-! ### Conservation -/

structure Conserves (net cred : BridgeParams) (s : CreditLoop) : Prop where
  /-- The credits the sender has received on a virtual channel are those of its first flits there, in order, the free
  signals for the tails. -/
  inOrder : ∀ v, flags v s.received <+: flags v s.sent
  /-- It has received them all when nothing is under way. -/
  all : ∀ v, s.Drained v → flags v s.received = flags v s.sent
  /-- A credit that reaches the credit bridge finds the size of its group. -/
  front : ∀ c rest, s.credits = .credit c :: rest → ∃ e es, (s.credBridge.vcs c.vc).extraCredit = e :: es ∧ 0 < e
  /-- Between different widths, no check of a bridge fails. Between equal ones a bridge that serializes stops at its
  first flit, at `assert(target_width != cur_width)`, and nothing is said of it. -/
  wakeups : net.targetWidth ≠ net.curWidth → ∀ now, (∃ x, net.wakeup now s.flits ⟨s.netBridge, s.credBridge⟩ = .ok x) ∧
      ∃ x, cred.wakeup now s.credits ⟨s.credBridge, s.netBridge⟩ = .ok x

lemma Balanced.conserves (h : s.Balanced ser w k a) (hnet : net.Converts w k a b) (hcred : cred.Converts w k b a)
    (hab : Widths ser w k a b) : Conserves net cred s where
  inOrder := h.received_prefix
  all _ := h.drained
  front _ _ := h.front
  wakeups _ now := by
    constructor
    · refine exists_wakeup fun t rest ht => ?_
      obtain ⟨u, hu, -⟩ := h.exists_net hnet hab now ht
      exact ⟨u, hu⟩
    · refine exists_wakeup fun t rest ht => ?_
      obtain ⟨u, hu, -⟩ := h.exists_cred hcred hab now ht
      exact ⟨u, hu⟩

lemma Stopped.conserves (h : s.Stopped) (hw : net.targetWidth = net.curWidth) : Conserves net cred s where
  inOrder v := by
    rw [h.received]
    exact nil_prefix
  all v hv := by rw [h.received, ← h.flits, flags, flags, hv.flits]; rfl
  front c rest hc := by
    rw [h.credits] at hc
    cases hc
  wakeups hne := absurd hw hne

lemma one_lt_of_ne_mul (hpos : 0 < w * k) (hne : w ≠ w * k) : 1 < k := by
  obtain rfl | rfl | hk : k = 0 ∨ k = 1 ∨ 1 < k := by omega
  · simp at hpos
  · simp at hne
  · exact hk

/-- Credits are conserved across a network bridge and its credit bridge, whichever of the two widths is a multiple of the
other: the sender receives one credit for each flit it has sent. -/
theorem credits_conserved_by_bridges (ha : 0 < a) (hb : 0 < b) (hdvd : a ∣ b ∨ b ∣ a) (hnet : net.enSerDes = true)
    (hcred : cred.enSerDes = true) (hnc : net.curWidth = a) (hnt : net.targetWidth = b) (hcc : cred.curWidth = b)
    (hct : cred.targetWidth = a) (hs : Reachable net cred a s) : Conserves net cred s := by
  by_cases heq : a = b
  · exact (hs.stopped hnet (by omega)).conserves (by omega)
  obtain ⟨k, rfl⟩ | ⟨k, rfl⟩ := hdvd
  · have hk := one_lt_of_ne_mul hb heq
    rw [Nat.mul_comm] at hnt hcc
    have hnet' : net.Converts a k a (k * a) := ⟨ha, hk, hnet, hnc, hnt, .inr ⟨rfl, rfl⟩⟩
    have hcred' : cred.Converts a k (k * a) a := ⟨ha, hk, hcred, hcc, hct, .inl ⟨rfl, rfl⟩⟩
    have hab : Widths false a k a (k * a) := ⟨rfl, rfl⟩
    exact (hs.balanced hnet' hcred' hab).conserves hnet' hcred' hab
  · have hk := one_lt_of_ne_mul ha (Ne.symm heq)
    rw [Nat.mul_comm] at hnc hct hs
    have hnet' : net.Converts b k (k * b) b := ⟨hb, hk, hnet, hnc, hnt, .inl ⟨rfl, rfl⟩⟩
    have hcred' : cred.Converts b k b (k * b) := ⟨hb, hk, hcred, hcc, hct, .inr ⟨rfl, rfl⟩⟩
    have hab : Widths true b k (k * b) b := ⟨rfl, rfl⟩
    exact (hs.balanced hnet' hcred' hab).conserves hnet' hcred' hab

/-- A message of size 3, sent as one flit of width 4 and received as two of width 2. -/
theorem credits_conserved_by_bridges_three : let net : BridgeParams := ⟨.linkObject, 2, 4, false, true, 1, 1, 1⟩
    let cred : BridgeParams := ⟨.objectLink, 2, 4, false, true, 1, 1, 1⟩
    ∃ s, Reachable net cred 4 s ∧ s.sent.length = 1 ∧ s.received = [.credit 0 true] ∧ Conserves net cred s := by
  intro net cred
  let p : VcPacket := ⟨0, 0, 0, ⟨0, [1], 0, 0, 1, 0, 0⟩, ⟨0, [1], 3, 0, 0, 0⟩, 3⟩
  let f : Flit := Flit.new 0 0 0 0 p.route 1 p.msgPtr 3 4 0 0
  have h0 : Reachable net cred 4 {} := .init
  have h1 := h0.step (.send (f := f) ⟨p, 0, .inr ⟨rfl, rfl⟩, by decide, by decide, rfl⟩)
  have h2 := h1.step (@Step.netWakeup net cred 4 _ 0 _ _ _ _ (by with_unfolding_all rfl))
  have h4 := (h2.step (.receive rfl)).step (.receive rfl)
  have h6 := (h4.step (@Step.credit net cred 4 _ 0 3 _ _ rfl)).step (@Step.credit net cred 4 _ 0 4 _ _ rfl)
  have h7 := h6.step (@Step.credWakeup net cred 4 _ 3 _ _ _ _ (by with_unfolding_all rfl))
  have h8 := h7.step (@Step.credWakeup net cred 4 _ 4 _ _ _ _ (by with_unfolding_all rfl))
  have h9 := h8.step (.collect rfl)
  exact ⟨_, h9, rfl, by with_unfolding_all rfl,
    credits_conserved_by_bridges (by decide) (by decide) (.inr (by decide)) rfl rfl rfl rfl rfl rfl h9⟩

end CreditLoop

end Gem5.Garnet
