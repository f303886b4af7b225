import Gem5.Garnet.SerDes

/-!
# Serializing between any two widths

Nothing asks that the wide width of a bridge is a multiple of the narrow one. The number of narrow flits that are sent
for a wide one comes from how much of the message has come, rounded down; the id of the first of them comes from
`divCeil(m_width, bWidth)`, rounded up. The two agree for the first wide flit of a packet always, and for the second one
only when the quotient is exact.
-/

namespace Gem5.Garnet

open Lib Sim Ruby List AnyFlit VcPacket Nat

/-- `get_id()`, of a flit. -/
def Content.id? : Content → Option ℕ
  | flit h => some h.id
  | credit _ _ => none

lemma serializable_first {c : BridgeParams} {f : Flit} {p : VcPacket} {r : BridgeVc} (hw : 0 < c.targetWidth)
    (hcur : c.targetWidth < c.curWidth) (hp : 1 ≤ p.msgSize) (hr : r.Clear)
    (hf : (flit f).content = p.flit c.curWidth 0) :
    ∃ r', c.serializable (.flit f) r = .ok (r', (p.sent c.curWidth c.targetWidth 1 : ℤ)) := by
  have hi : 0 < p.numFlits c.curWidth := (lt_numFlits (by omega)).mpr (by omega)
  have htail := Flit.isTail_of_content hf hi
  obtain ⟨hid, hsize, -⟩ := Flit.fields_of_content hf
  obtain ⟨-, hsent, -⟩ := hr
  unfold BridgeParams.serializable
  dsimp only
  rw [htail, hid, hsize, hsent]
  by_cases hlast : 1 < p.numFlits c.curWidth
  · have hpossible : (((0 : ℕ) : ℤ) + 1) * (c.curWidth : ℤ) - 0 = (c.curWidth : ℤ) := by omega
    have hpos : c.curWidth / c.targetWidth ≠ 0 := (div_pos hcur.le hw).ne'
    rw [if_neg (by simp; omega), hpossible, sent, if_pos hlast, one_mul, Int.natCast_ediv,
      if_pos (by exact_mod_cast hpos)]
    exact ⟨_, rfl⟩
  · rw [if_pos (by simp; omega), sent_succ_tail hlast, Int.sub_zero, ceilDiv_natCast hw]
    exact ⟨_, rfl⟩

namespace BridgeParams

variable {c : BridgeParams} {s s' : Bridges} {now : ℕ} {t : AnyFlit}

/-! ### Calls that return -/

lemma serialize_of_foldlM {n : ℤ} {l : List ℕ} {own own' : NetworkBridge} (h : l.foldlM (fun own i => do
      let fl ← t.serialize i n c.targetWidth
      .ok (c.scheduleFlit now fl c.serDesLatency own)) own = (.ok own' : Except BridgeFault NetworkBridge)) :
    ∀ i ∈ l, ∃ fl, t.serialize i n c.targetWidth = .ok fl := by
  induction l generalizing own with
  | nil => exact fun i hi => absurd hi not_mem_nil
  | cons j l ih => grind [bind_eq_ok]

/-- A call on a serializing bridge that returns has passed all its checks: it sends at least one part, and its parts in
order. -/
lemma parts_of_flitisizeAndSend (hen : c.enSerDes = true) (hw : c.targetWidth < c.curWidth)
    (h : c.flitisizeAndSend now t s = .ok s') :
    ∃ r n, c.serializable t (s.own.vcs t.vc) = .ok (r, n) ∧ 0 < n ∧ ∃ part : ℕ → AnyFlit,
      (∀ i < n.toNat, t.serialize i n c.targetWidth = .ok (part i)) ∧
      ∃ fs, s'.own.linkBuffer = s.own.linkBuffer ++ fs ∧
        fs.map content = (range n.toNat).map fun i => (part i).content := by
  have hcall := h
  unfold flitisizeAndSend at h
  rw [if_pos hen, ensure_bind, if_pos (by simpa using hw.ne), if_neg (by omega)] at h
  obtain ⟨⟨r, n⟩, hcount, h⟩ := bind_eq_ok.mp h
  dsimp only at h
  obtain ⟨_, hn, h⟩ := bind_eq_ok.mp h
  rw [ensure_eq_ok, decide_eq_true_iff] at hn
  obtain ⟨_, hloop, -⟩ := bind_eq_ok.mp h
  have hparts : ∀ i, ∃ fl, i < n.toNat → t.serialize i n c.targetWidth = .ok fl := by
    intro i
    by_cases hi : i < n.toNat
    · obtain ⟨fl, hfl⟩ := serialize_of_foldlM hloop i (mem_range.mpr hi)
      exact ⟨fl, fun _ => hfl⟩
    · exact ⟨t, fun h => absurd h hi⟩
  choose part hpart using hparts
  rw [flitisizeAndSend_serialize now hen hw hcount hn hpart] at hcall
  cases hcall
  obtain ⟨fs, hbuf, hfs⟩ := scheduleAll_linkBuffer (c := c) now content_setTime
    ((range n.toNat).map part) (s.own.setVc t.vc r)
  rw [map_map] at hfs
  exact ⟨r, n, hcount, hn, part, hpart, fs, hbuf, hfs⟩

lemma linkBuffer_of_sendAll (hen : c.enSerDes = true) (hw : c.targetWidth < c.curWidth)
    {calls : List (ℕ × AnyFlit)} (h : c.sendAll calls s = .ok s') :
    s.own.linkBuffer <+: s'.own.linkBuffer := by
  induction calls generalizing s with
  | nil =>
    cases h
    exact prefix_rfl
  | cons x calls ih =>
    rw [sendAll, foldlM_cons] at h
    obtain ⟨s1, hcall, hrest⟩ := bind_eq_ok.mp h
    obtain ⟨_, _, _, _, _, _, fs, hbuf, _⟩ := parts_of_flitisizeAndSend hen hw hcall
    exact (hbuf ▸ prefix_append ..).trans (ih hrest)

lemma flitisizeAndSend_first (now : ℕ) {p : VcPacket} {f : Flit} (hen : c.enSerDes = true) (hw : 0 < c.targetWidth)
    (hcur : c.targetWidth < c.curWidth) (hp : 1 ≤ p.msgSize) (hs : (s.own.vcs p.vc).Clear)
    (hf : (flit f).content = p.flit c.curWidth 0) :
    ∃ s' fs, c.flitisizeAndSend now (.flit f) s = .ok s' ∧ s'.own.linkBuffer = s.own.linkBuffer ++ fs ∧
      fs.map content = slice (p.flit c.targetWidth) 0 (p.sent c.curWidth c.targetWidth 1) := by
  have hvc : (flit f).vc = p.vc := by rw [← vc_content, hf, vc_flit]
  obtain ⟨hid, hsize, hwidth⟩ := Flit.fields_of_content hf
  obtain ⟨r, hcount⟩ := serializable_first hw hcur hp hs hf
  rw [← hvc] at hcount
  have hpos : 0 < p.sent c.curWidth c.targetWidth 1 := by
    by_cases hlast : 1 < p.numFlits c.curWidth
    · rw [sent, if_pos hlast, one_mul]
      exact div_pos hcur.le hw
    · rw [sent_succ_tail hlast, lt_numFlits hw]
      omega
  have hpart : ∀ j < (p.sent c.curWidth c.targetWidth 1 : ℤ).toNat,
      (flit f).serialize j (p.sent c.curWidth c.targetWidth 1) c.targetWidth =
        .ok (.flit (f.resized j (divCeil f.msgSize c.targetWidth) c.targetWidth)) := by
    intro j hj
    rw [Int.toNat_natCast] at hj
    have hle := p.sent_le_numFlits (a := c.curWidth) (by omega) hw 1
    unfold numFlits at hle
    have := Flit.serialize_eq (f := f) j (by rwa [hwidth]) (by rw [hid, hsize]; omega)
    rw [hid, zero_mul, zero_add] at this
    unfold serialize
    dsimp only
    rw [this]
    rfl
  have hcall := flitisizeAndSend_serialize now hen hcur hcount (by omega) hpart
  obtain ⟨fs, hbuf, hfs⟩ := scheduleAll_linkBuffer (c := c) now content_setTime _ _
  refine ⟨_, fs, hcall, hbuf, hfs.trans ?_⟩
  rw [map_map, Int.toNat_natCast, slice, range'_eq_map_range, map_map]
  refine map_congr_left fun j _ => ?_
  grind [content_resized]

lemma id_of_serialize {f : Flit} {j : ℕ} {n : ℤ} {w : ℕ} {fl : AnyFlit} (h : (flit f).serialize j n w = .ok fl) :
    fl.content.id? = some (f.id * divCeil f.width w + j) := by
  unfold serialize at h
  obtain ⟨g, hg, h⟩ := bind_eq_ok.mp h
  cases h
  unfold Flit.serialize at hg
  obtain ⟨_, -, hg⟩ := bind_eq_ok.mp hg
  obtain ⟨_, -, hg⟩ := bind_eq_ok.mp hg
  cases hg
  rfl

/-! ### A packet -/

/-- No check fails for the calls, and the ids of what is sent are `0`, `1`, …, as many as the packet has narrow flits. -/
def WellSerialized (c : BridgeParams) (p : VcPacket) (calls : List (ℕ × AnyFlit)) (s : Bridges) : Prop :=
  ∃ s' fs, c.sendAll calls s = .ok s' ∧ s'.own.linkBuffer = s.own.linkBuffer ++ fs ∧
    fs.map (fun t => t.content.id?) = (range (p.numFlits c.targetWidth)).map some

variable {p : VcPacket} {calls : List (ℕ × AnyFlit)}

lemma map_id_flits (b : ℕ) : (p.flits b).map Content.id? = (range (p.numFlits b)).map some := by
  rw [flits, slice, map_map, Nat.sub_zero, ← range_eq_range']
  rfl

lemma map_content_id {fs : List AnyFlit} {l : List Content} (h : fs.map content = l) :
    fs.map (fun t => t.content.id?) = l.map Content.id? := by
  rw [← h, map_map]
  rfl

lemma exists_flit_of_contents {x : ℕ × AnyFlit} {b i : ℕ} (h : x.2.content = p.flit b i) :
    ∃ f, x = (x.1, .flit f) ∧ (flit f).content = p.flit b i := by
  obtain ⟨n, t⟩ := x
  cases t with
  | credit _ => cases h
  | flit f => exact ⟨f, rfl, h⟩

/-- Calls that are all on one virtual channel do what `Passes` says of it. -/
lemma Converts.runs_sends {w k a b v : ℕ} (hc : c.Converts w k a b) {r r' : BridgeVc} {xs outs : List Content}
    (h : Runs (Passes w k a b) r xs outs r') (hcalls : contents calls = xs) (hvc : ∀ x ∈ xs, x.vc = v)
    (hr : s.own.vcs v = r) : ∃ s', Runs c.Sends s calls outs s' := by
  induction h generalizing s calls with
  | nil r =>
    rw [contents, map_eq_nil_iff] at hcalls
    exact ⟨s, hcalls ▸ .nil s⟩
  | @cons r r1 r' x xs outs outs' hstep _ ih =>
    obtain ⟨⟨now, t⟩, rest, rfl, rfl, hrest⟩ := map_eq_cons_iff.mp hcalls
    obtain ⟨hx, hxs⟩ := forall_mem_cons.mp hvc
    rw [vc_content] at hx
    obtain ⟨-, s1, hsend, hview⟩ := hc.sends (s := s) (x := (now, t)) (by rwa [← hr, ← hx] at hstep)
    obtain ⟨s', hrun⟩ := ih (s := s1) hrest hxs (by rw [hview, hx, Function.update_self])
    exact ⟨s', .cons hsend hrun⟩

section

variable (hen : c.enSerDes = true) (hw : 0 < c.targetWidth) (hcur : c.targetWidth < c.curWidth) (hp : 1 ≤ p.msgSize)
  (hs : (s.own.vcs p.vc).Clear) (hcalls : contents calls = p.flits c.curWidth)
include hen hw hcur hp hs hcalls

lemma wellSerialized_of_dvd (hdvd : c.targetWidth ∣ c.curWidth) : c.WellSerialized p calls s := by
  obtain ⟨k, hk⟩ := hdvd
  have hk' : c.curWidth = k * c.targetWidth := by rw [hk, mul_comm]
  have hk1 : 1 < k := by simp_all
  have hc : c.Converts c.targetWidth k c.curWidth c.targetWidth := ⟨hw, hk1, hen, rfl, rfl, .inl ⟨hk', rfl⟩⟩
  have hlane := hc.runs_packets (s.own.vcs p.vc).extraCredit (show ∀ q ∈ [p], 1 ≤ q.msgSize by simpa using hp)
  rw [← hs.eq_after, flatMap_singleton, flatMap_singleton] at hlane
  obtain ⟨s', hrun⟩ := hc.runs_sends hlane hcalls (fun x hx => vc_of_mem_flits hx) rfl
  obtain ⟨hall, fs, hbuf, hfs⟩ := sendAll_of_runs hrun
  refine ⟨s', fs, hall, hbuf, ?_⟩
  rw [map_content_id hfs, map_id_flits]

lemma wellSerialized_of_le (hle : p.msgSize ≤ c.curWidth) : c.WellSerialized p calls s := by
  have hone : p.numFlits c.curWidth = 1 := by
    have h0 := (lt_numFlits (p := p) (show 0 < c.curWidth by omega) (i := 0)).mpr (by omega)
    have h1 := (lt_numFlits (p := p) (show 0 < c.curWidth by omega) (i := 1)).not.mpr (by omega)
    omega
  rw [flits, hone, slice_singleton] at hcalls
  obtain ⟨x, hx, hcontent⟩ := map_eq_singleton_iff.mp hcalls
  obtain ⟨f, hxf, hf⟩ := exists_flit_of_contents hcontent
  obtain ⟨s', fs, hcall, hbuf, hfs⟩ := flitisizeAndSend_first x.1 hen hw hcur hp hs hf
  refine ⟨s', fs, ?_, hbuf, ?_⟩
  · rw [hx, hxf, sendAll, foldlM_cons, hcall]
    rfl
  · rw [map_content_id hfs, sent_succ_tail (by omega), ← map_id_flits]
    rfl

end

lemma divCeil_of_not_dvd {a b : ℕ} (hb : 0 < b) (h : ¬ b ∣ a) : divCeil a b = a / b + 1 := by
  have hmod : 0 < a % b := pos_of_ne_zero fun h0 => h (dvd_of_mod_eq_zero h0)
  have hsum := div_add_mod a b
  have hlt := mod_lt a hb
  unfold divCeil
  rw [show a + b - 1 = a % b - 1 + b + b * (a / b) by omega, add_mul_div_left _ _ hb, add_div_right _ hb,
    div_eq_of_lt (by omega)]
  omega

lemma not_wellSerialized (hen : c.enSerDes = true) (hw : 0 < c.targetWidth) (hcur : c.targetWidth < c.curWidth)
    (hs : (s.own.vcs p.vc).Clear) (hcalls : contents calls = p.flits c.curWidth)
    (hdvd : ¬ c.targetWidth ∣ c.curWidth) (hlt : c.curWidth < p.msgSize) : ¬ c.WellSerialized p calls s := by
  rintro ⟨s', fs, hall, hbuf, hids⟩
  have hW : 0 < c.curWidth := by omega
  have htwo : 1 < p.numFlits c.curWidth := (lt_numFlits hW).mpr (by omega)
  rw [flits, slice_cons (by omega), slice_cons (by omega)] at hcalls
  obtain ⟨x, _, rfl, hx, hcalls⟩ := map_eq_cons_iff.mp hcalls
  obtain ⟨y, rest, rfl, hy, -⟩ := map_eq_cons_iff.mp hcalls
  obtain ⟨f, hxf, hf⟩ := exists_flit_of_contents hx
  obtain ⟨g, hyg, hg⟩ := exists_flit_of_contents hy
  rw [sendAll, foldlM_cons] at hall
  obtain ⟨s1, hcall, hall⟩ := bind_eq_ok.mp hall
  rw [foldlM_cons] at hall
  obtain ⟨s2, hcall', hall⟩ := bind_eq_ok.mp hall
  -- the first wide flit gives the ids below `curWidth / targetWidth`
  obtain ⟨_, fs1, hcall₁, hbuf1, hfs1⟩ := flitisizeAndSend_first x.1 hen hw hcur (by omega) hs hf
  rw [hxf, hcall₁] at hcall
  cases hcall
  rw [sent, if_pos htwo, one_mul] at hfs1
  have hlen : fs1.length = c.curWidth / c.targetWidth := by
    rw [← length_map (f := content), hfs1, length_slice, Nat.sub_zero]
  -- the second one at least one more
  rw [hyg] at hcall'
  obtain ⟨r, n, -, hn, part, hpart, fs2, hbuf2, hfs2⟩ := parts_of_flitisizeAndSend hen hcur hcall'
  obtain ⟨hid, -, hwidth⟩ := Flit.fields_of_content hg
  have hfirst := id_of_serialize (hpart 0 (by omega))
  rw [hid, hwidth, divCeil_of_not_dvd hw hdvd, Nat.one_mul, Nat.add_zero] at hfirst
  obtain ⟨fs3, hbuf3⟩ := linkBuffer_of_sendAll hen hcur hall
  have hfs : fs = fs1 ++ fs2 ++ fs3 := by grind [append_assoc, append_cancel_left]
  -- the id at place `curWidth / targetWidth`
  have hids2 := map_content_id hfs2
  obtain ⟨m, hm⟩ : ∃ m, n.toNat = m + 1 := ⟨n.toNat - 1, by omega⟩
  rw [hm, range_succ_eq_map, map_cons, map_cons, hfirst] at hids2
  have hplace := congrArg (fun l => l[c.curWidth / c.targetWidth]?) hids
  simp only [hfs, map_append, append_assoc] at hplace
  rw [getElem?_append_right (by rw [length_map, hlen]), length_map, hlen, Nat.sub_self, hids2,
    cons_append, getElem?_cons_zero, getElem?_map] at hplace
  grind

/-- A packet through a serializing bridge, in flits of any width greater than the bridge's: no check fails and the ids are
those of the packet in narrow flits, in order, if and only if the widths divide or the packet has only one wide flit. -/
theorem wellSerialized_iff (hen : c.enSerDes = true) (hw : 1 ≤ c.targetWidth) (hcur : c.targetWidth < c.curWidth)
    (hp : 1 ≤ p.msgSize) (hs : (s.own.vcs p.vc).Clear) (hcalls : contents calls = p.flits c.curWidth) :
    c.WellSerialized p calls s ↔ c.targetWidth ∣ c.curWidth ∨ p.msgSize ≤ c.curWidth := by
  constructor
  · intro h
    by_contra hn
    obtain ⟨hdvd, hle⟩ := not_or.mp hn
    exact not_wellSerialized hen hw hcur hs hcalls hdvd (by omega) h
  · rintro (hdvd | hle)
    · exact wellSerialized_of_dvd hen hw hcur hp hs hcalls hdvd
    · exact wellSerialized_of_le hen hw hcur hp hs hcalls hle

/-- Flits of width 3 through a bridge of width 2: both of them, of a message of size 6, and the only one of a message of
size 3. -/
theorem wellSerialized_iff_three : let c : BridgeParams := ⟨.linkObject, 2, 3, false, true, 1, 1, 1⟩
    let packet (size : ℕ) : VcPacket := ⟨0, 0, 0, ⟨0, [1], 0, 0, 1, 0, 0⟩, ⟨0, [1], size, 0, 0, 0⟩, size⟩
    let flit (p : VcPacket) (i : ℕ) : AnyFlit :=
      .flit (Flit.new p.packetId i p.vc p.vnet p.route (p.numFlits 3) p.msgPtr p.msgSize 3 0 0)
    c.WellSerialized (packet 3) [(0, flit (packet 3) 0)] ⟨{}, {}⟩ ∧
      ¬ c.WellSerialized (packet 6) [(0, flit (packet 6) 0), (1, flit (packet 6) 1)] ⟨{}, {}⟩ := by
  intro c packet flit
  have hclear : ((⟨{}, {}⟩ : Bridges).own.vcs 0).Clear := ⟨rfl, rfl, rfl⟩
  refine ⟨(wellSerialized_iff rfl ?_ ?_ ?_ hclear ?_).mpr (.inr ?_),
    mt (wellSerialized_iff rfl ?_ ?_ ?_ hclear ?_).mp ?_⟩ <;> decide

/-- A message of size 6 in two flits of width 3, through a bridge of width 2: the second flit should give the narrow
flits 1 and 2, and the id of its second part is 3. -/
theorem wellSerialized_fails : let c : BridgeParams := ⟨.linkObject, 2, 3, false, true, 1, 1, 1⟩
    let p : VcPacket := ⟨0, 0, 0, ⟨0, [1], 0, 0, 1, 0, 0⟩, ⟨0, [1], 6, 0, 0, 0⟩, 6⟩
    let flit (i : ℕ) : AnyFlit := .flit (Flit.new p.packetId i p.vc p.vnet p.route (p.numFlits 3) p.msgPtr p.msgSize 3 0 0)
    let calls := [(0, flit 0), (1, flit 1)]
    contents calls = p.flits c.curWidth ∧ ((⟨{}, {}⟩ : Bridges).own.vcs p.vc).Clear ∧
      (∀ s', c.sendAll calls ⟨{}, {}⟩ ≠ .ok s') ∧ ¬ c.WellSerialized p calls ⟨{}, {}⟩ := by
  intro c p flit calls
  have hfail : ∀ s', c.sendAll calls ⟨{}, {}⟩ ≠ .ok s' := by
    intro s' h
    have : (c.sendAll calls ⟨{}, {}⟩).isOk = false := by decide
    rw [h] at this
    cases this
  refine ⟨by decide, ⟨rfl, rfl, rfl⟩, hfail, ?_⟩
  rintro ⟨s', _, hall, -⟩
  exact hfail s' hall

end BridgeParams

end Gem5.Garnet
