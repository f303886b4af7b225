import Gem5.Garnet.Flow

/-!
# The flow is kept by routers and links

One lemma for each move of a router or a link: what the worms are after it, and that `Flow` holds again.
On the way, each says what the move may assume about the flit or credit it takes: which flit of
which packet it is.
-/

namespace Gem5.Garnet

open Sim Ruby Lib Function List OutputUnit OutVcState Net

variable {net : Net} {s : State} {w : Worms}

/-! ### Routers -/

variable {d : Data} {l r lo v li u edge : ℕ} {f : Flit} {rest : List Flit} {o o' : OutVcState} {e : Credit} {c : Chan}

lemma wireOf_front (h : (d.networkLink l).linkBuffer = f :: rest) : lane f.vc (wireOf net d l) =
      tok f :: lane f.vc (rest ++ (d.networkLink l).srcQueue ++ switchFor net d l) := by
  rw [wireOf, h, cons_append, cons_append, lane_cons_self _ rfl]

lemma Flow.front (h : Flow net s w) (hl : l ∈ net.inLinks (.router r))
    (hbuf : (s.data.networkLink l).linkBuffer = f :: rest) :
    ∃ wc, w (l, f.vc) = some wc ∧ tok f = (wc.pkt, wc.rcvd) ∧ (f.isHead = true ↔ wc.rcvd = 0) ∧
      ((s.data.virtualChannels (l, f.vc)).vcState.1 = .active ↔ 0 < wc.rcvd) := by
  have hx : isExit net (l, f.vc) = false := isExit_of_router (mem_inLinks.mp hl).2
  have hwire : (view net s.data (l, f.vc)).wire = _ := wireOf_front hbuf
  obtain ⟨wc, hw, hb⟩ := h.inv.busy (c := (l, f.vc)) (Or.inr (Or.inl (by rw [hwire]; exact cons_ne_nil _ _)))
  obtain ⟨ht, hlt, ho, -⟩ := hb.arrive hx hwire
  have hid : f.id = wc.rcvd := (Prod.mk.inj ht).2
  have hsize : f.size = wc.pkt.size := congrArg Packet.size (Prod.mk.inj ht).1
  have hle : wc.sent ≤ wc.pkt.size := hb.sent_le
  refine ⟨wc, hw, ht, ?_, ?_⟩
  · rw [Flit.isHead_iff (by omega), hid]
  · have : (view net s.data (l, f.vc)).opened = ((s.data.virtualChannels (l, f.vc)).vcState.1 == .active) := by
      simp [view, mkView, hx]
    grind

lemma Entered.spec {now : ℕ} {vc vc' : VirtualChannel} (h : Entered net now r l f vc vc') :
    vc'.inputBuffer = vc.inputBuffer ∧ vc'.vcState.1 = .active := by
  cases h with
  | head hf hvc hr => exact ⟨rfl, rfl⟩
  | other hf hvc => exact ⟨rfl, hvc⟩

lemma Flow.arrive (h : Flow net s w) {vc : VirtualChannel}
    (hl : l ∈ net.inLinks (.router r)) (hbuf : (s.data.networkLink l).linkBuffer = f :: rest)
    (hvc : Entered net s.now r l f.incrementHops (s.data.virtualChannels (l, f.vc)) vc) (t : ℕ) (σ : Sched) :
    ∃ wc, w (l, f.vc) = some wc ∧ tok f = (wc.pkt, wc.rcvd) ∧
      Flow net ⟨s.now, s.data.arrive l rest (f.incrementHops.advanceStage .sa t) vc, σ⟩
        (Function.update w (l, f.vc) (some { wc with rcvd := wc.rcvd + 1 })) := by
  have hdst := (mem_inLinks.mp hl).2
  have hx : isExit net (l, f.vc) = false := isExit_of_router hdst
  have hwire : (view net s.data (l, f.vc)).wire = _ := wireOf_front hbuf
  obtain ⟨hin, hact⟩ := hvc.spec
  generalize hd : s.data.arrive l rest (f.incrementHops.advanceStage .sa t) vc = d
  have hvcs : d.virtualChannels = Function.update s.data.virtualChannels (l, f.vc)
      { vc with inputBuffer := vc.inputBuffer ++ [f.incrementHops.advanceStage .sa t] } := by rw [← hd]; rfl
  have hlink : d.networkLink = Function.update s.data.networkLink l
      { s.data.networkLink l with linkBuffer := rest } := by rw [← hd]; rfl
  have hsw : ∀ l', switchFor net d l' = switchFor net s.data l' := switchFor_congr (by rw [← hd]; rfl)
  have hne : ∀ c' ≠ (l, f.vc), view net d c' = view net s.data c' := by
    intro c' hc
    refine view_congr (pendOf_congr (by rw [← hd]; rfl)) ?_ (by rw [← hd]; rfl) (backOf_congr (by rw [← hd]; rfl))
      (senderVc_congr (by rw [← hd]; rfl) (by rw [← hd]; rfl)) (by rw [hvcs, update_of_ne hc])
    by_cases hll : c'.1 = l
    · have hv : f.vc ≠ c'.2 := fun hv => hc (Prod.ext hll hv.symm)
      simp [wireOf, hsw, hlink, hll, hbuf, lane_cons_of_ne _ hv]
    · rw [wireOf_congr (by rw [hlink, update_of_ne hll]) (hsw _)]
  have hnext : vc.next = (s.data.virtualChannels (l, f.vc)).next := by
    -- the output port is only set while there is no output virtual channel
    cases hvc with
    | head hf hidle hr =>
      rcases (h.vc (l, f.vc)).state with ⟨-, -, hnone⟩ | ⟨hact', -⟩
      · simp [VirtualChannel.next, VirtualChannel.setActive, hnone]
      · rw [hidle] at hact'; cases hact'
    | other hf hact' => rfl
  have hc : view net d (l, f.vc) = { view net s.data (l, f.vc) with
      wire := lane f.vc (rest ++ (s.data.networkLink l).srcQueue ++ switchFor net s.data l)
      buf := (view net s.data (l, f.vc)).buf ++ [tok f]
      opened := true } := by
    have h1 : wireOf net d l = rest ++ (s.data.networkLink l).srcQueue ++ switchFor net s.data l := by
      simp [wireOf, hsw, hlink]
    have h2 : pendOf net d (l, f.vc) = pendOf net s.data (l, f.vc) := pendOf_congr (by rw [← hd]; rfl)
    have h3 : backOf d (l, f.vc) = backOf s.data (l, f.vc) := backOf_congr (by rw [← hd]; rfl)
    have h4 : senderVc net d (l, f.vc) = senderVc net s.data (l, f.vc) :=
      senderVc_congr (by rw [← hd]; rfl) (by rw [← hd]; rfl)
    have h5 : (d.virtualChannels (l, f.vc)).next = (s.data.virtualChannels (l, f.vc)).next := by
      rw [hvcs, update_self, ← hnext]; rfl
    have h6 : (d.virtualChannels (l, f.vc)).inputBuffer.map tok =
        (s.data.virtualChannels (l, f.vc)).inputBuffer.map tok ++ [tok f] := by
      rw [hvcs, update_self, ← hin, map_append]; rfl
    simp_all [view_router]
  obtain ⟨wc, hw, hb, ht, -, hinv⟩ := h.inv.arrive hx hwire hc hne
  refine ⟨wc, hw, ht, h.update hw ?_ hinv rfl rfl le_rfl (by simp [hx]) ?_ ?_⟩
  · subst hd
    exact h.records rfl rfl rfl (fun _ => id) rfl (fun _ => rfl) fun _ => rfl
  · intro c'
    rw [hvcs]
    by_cases hcc : c' = (l, f.vc)
    · rw [hcc, update_self]
      cases hvc with
      | head hf hidle hr => exact ⟨le_rfl, Or.inr ⟨rfl, r, _, hdst, hr.mem_outLinks, rfl⟩⟩
      | other hf hact' => exact ⟨(h.vc _).time, (h.vc _).state⟩
    grind [Flow.vc]
  · intro c' v lo hv hlo
    rw [hvcs] at hlo
    by_cases hcc : c' = (l, f.vc)
    · subst hcc
      rw [update_self] at hlo
      cases hvc with
      | head hf hidle hr =>
        cases hlo
        obtain rfl : wc = v := by rw [hw] at hv; exact Option.some.inj hv
        rw [← (Prod.mk.inj ht).1]
        exact ⟨r, hdst, hr⟩
      | other hf hact' => exact h.port _ v lo hv hlo
    grind [Flow.port]

lemma OutVcState.incrementCredit_eq (h : o.incrementCredit = .ok o') :
    o' = { o with creditCount := o.creditCount + 1 } ∧ o.creditCount + 1 ≤ o.maxCreditCount := by
  unfold incrementCredit at h
  grind

lemma OutVcState.decrementCredit_eq (h : o.decrementCredit = .ok o') :
    o' = { o with creditCount := o.creditCount - 1 } ∧ 0 < o.creditCount := by
  unfold decrementCredit at h
  grind

/-- The record of a channel after a credit has come back. -/
def OutVcState.refunded (now : ℕ) (free : Bool) (o : OutVcState) : OutVcState := if free then o.setState .idle now else o

lemma OutOk.refunded {now vnet : ℕ} (h : OutOk net now vnet o) (ho : o.incrementCredit = .ok o')
    (free : Bool) : OutOk net now vnet (o'.refunded now free) ∧ (o'.refunded now free).creditCount = o.creditCount + 1 ∧
      ((o'.refunded now free).vcState == .idle) = (o.vcState == .idle || free) := by
  obtain ⟨rfl, -⟩ := incrementCredit_eq ho
  cases free with
  | false => exact ⟨⟨h.time, h.state, h.max⟩, rfl, (Bool.or_false _).symm⟩
  | true => exact ⟨⟨le_rfl, Or.inl rfl, h.max⟩, rfl, (Bool.or_true _).symm⟩

section

variable {rest : List Credit} (h : (d.creditLink l).linkBuffer = e :: rest)
include h

lemma backOf_front : backOf d (l, e.vc) = e.isFreeSignal :: creditLane e.vc (rest ++ (d.creditLink l).srcQueue) := by
  rw [backOf, h, cons_append, creditLane_cons_self _ rfl]

lemma backOf_pop_of_ne {d' : Data}
    (hd : d'.creditLink = update d.creditLink l { d.creditLink l with linkBuffer := rest }) (hc : c ≠ (l, e.vc)) :
    backOf d' c = backOf d c := by
  by_cases hl : c.1 = l
  · have hv : e.vc ≠ c.2 := fun hv => hc (Prod.ext hl hv.symm)
    simp [backOf, hd, hl, h, creditLane_cons_of_ne _ hv]
  · exact backOf_congr (by rw [hd, update_of_ne hl])

end

section

variable (h : Flow net s w) {b : Bool} {rest : List Bool} (hb : backOf s.data c = b :: rest)
include h hb

lemma Flow.room : (senderVc net s.data c).creditCount + 1 ≤ net.buffersPerVc (vnetOf net c) := by
  have hb' : (view net s.data c).back = b :: rest := hb
  obtain ⟨wc, -, hbusy⟩ := h.inv.busy (c := c) (by simp [hb'])
  exact (hbusy.refund hb').1

lemma Flow.refundWith {s' : State} (hr : Records net s s') (ho : (senderVc net s.data c).incrementCredit = .ok o)
    (hok : OutOk net s.now (vnetOf net c) (senderVc net s.data c)) (hback : backOf s'.data c = rest)
    (hsend : senderVc net s'.data c = o.refunded s.now b) (hpend : ∀ c, pendOf net s'.data c = pendOf net s.data c)
    (hwire : wireOf net s'.data = wireOf net s.data) (hin : s'.data.inPort = s.data.inPort)
    (hvc : s'.data.virtualChannels = s.data.virtualChannels)
    (hne : ∀ c' ≠ c, view net s'.data c' = view net s.data c') :
    ∃ wc, w c = some wc ∧ Flow net s' (Function.update w c (if b then none else some { wc with ret := wc.ret + 1 })) := by
  obtain ⟨-, h1, h2⟩ := hok.refunded ho b
  have hb' : (view net s.data c).back = b :: rest := hb
  have hc : view net s'.data c = { view net s.data c with
      back := rest
      credit := (view net s.data c).credit + 1
      idle := (view net s.data c).idle || b } := by
    simp only [view, mkView, hpend, hwire, hin, hback, hsend, hvc, h1, h2]
  obtain ⟨-, wc, hw, hinv⟩ := h.inv.refund hb' hc hne
  have htrail : Wormhole.Trail (Function.update w c (if b then none else some { wc with ret := wc.ret + 1 })) := by
    grind [Wormhole.Trail.update, Flow.trail, Wormhole.Trail.remove]
  refine ⟨wc, hw, h.step hr hinv htrail (fun c' v hv => Or.inl ?_) (fun c' => by rw [hvc]; exact h.vc c')
    fun c' v lo hv hlo => h.port c' v lo hv (by rw [hvc] at hlo; exact hlo)⟩
  grind

end

lemma Flow.refund (h : Flow net s w) {rest : List Credit}
    (hl : l ∈ net.outLinks (.router r)) (hbuf : (s.data.creditLink l).linkBuffer = e :: rest)
    (ho : (s.data.outVcState (l, e.vc)).incrementCredit = .ok o) (σ : Sched) :
    ∃ wc, w (l, e.vc) = some wc ∧
      Flow net ⟨s.now, s.data.refund l e rest (if e.isFreeSignal then o.setState .idle s.now else o), σ⟩
        (Function.update w (l, e.vc) (if e.isFreeSignal then none else some { wc with ret := wc.ret + 1 })) := by
  have hsrc := (mem_outLinks.mp hl).2
  have hsend : ∀ d, senderVc net d (l, e.vc) = d.outVcState (l, e.vc) := fun d => by simp [senderVc, hsrc]
  refine h.refundWith (backOf_front hbuf)
    ⟨rfl, fun _ => id, fun _ => id, fun c => ?_, h.niOut, h.ids, h.made, h.pend⟩ (by rw [hsend]; exact ho)
    (by rw [hsend]; exact h.out _) ?_ ?_ (fun c => rfl) rfl rfl rfl fun c' hc => ?_
  · by_cases hc : c = (l, e.vc)
    · subst hc
      simp only [Data.refund, Data.setOutVc, update_self]
      exact ((h.out _).refunded ho e.isFreeSignal).1
    · simp only [Data.refund, Data.setOutVc, update_of_ne hc]
      exact h.out c
  · simp [backOf, Data.refund, Data.setOutVc, Data.setCredit]
  · rw [hsend]
    simp [Data.refund, Data.setOutVc, refunded]
  · exact view_congr rfl rfl rfl (backOf_pop_of_ne hbuf rfl hc)
      (senderVc_congr rfl (by simp only [Data.refund, Data.setOutVc]; rw [update_of_ne hc]; rfl)) rfl

lemma vnetOf_inLinks (hl : l ∈ net.inLinks (.router r)) (u : ℕ) : vnetOf net (l, u) = u / net.vcPerVnet r := by
  rw [vnetOf, consumerVcs_of_dst (mem_inLinks.mp hl).2]

lemma vnetOf_vcsOf {vnet : ℕ} (h : v ∈ vcsOf net lo vnet) : vnetOf net (lo, v) = vnet := by
  obtain ⟨i, hi, rfl⟩ := mem_map.mp h
  have hi := mem_range.mp hi
  rw [vnetOf, Nat.mul_comm, Nat.mul_add_div (by omega), Nat.div_eq_of_lt hi, Nat.add_zero]

section

variable (h : Flow net s w) (hli : li ∈ net.inLinks (.router r))
include h hli

lemma Flow.top (hbuf : (s.data.virtualChannels (li, u)).inputBuffer = f :: rest) :
    ∃ wc, w (li, u) = some wc ∧ tok f = (wc.pkt, wc.left) ∧ f.isTail = decide (f.id + 1 = f.size) ∧
      (s.data.virtualChannels (li, u)).vcState.1 = .active := by
  have hx : isExit net (li, u) = false := isExit_of_router (mem_inLinks.mp hli).2
  have hb : (view net s.data (li, u)).buf = tok f :: rest.map tok := by rw [view_router hx]; simp [hbuf]
  obtain ⟨wc, hw, hbusy⟩ := h.inv.busy (c := (li, u)) (by simp [hb])
  obtain ⟨ht, hlt, -⟩ := hbusy.depart hx hb (0, 0)
  have hid : f.id = wc.left := (Prod.mk.inj ht).2
  have hsize : f.size = wc.pkt.size := congrArg Packet.size (Prod.mk.inj ht).1
  have h1 := hbusy.rcvd_le
  have h2 : wc.sent ≤ wc.pkt.size := hbusy.sent_le
  refine ⟨wc, hw, ht, ?_, ?_⟩
  · rw [Bool.eq_iff_iff, Flit.isTail_iff (by omega), decide_eq_true_eq]
  · have ho := hbusy.opened
    have hx' : (params net).exit (li, u) = false := hx
    have hs' : (params net).size wc.pkt = wc.pkt.size := rfl
    grind [view_router]

section

variable (hlo : lo ∈ net.outLinks (.router r)) (hreq : Request net s.now r li u lo f rest s.data)
  (hv : Gets net s.now r li u lo s.data v)
include hlo hreq hv

lemma Flow.goes : (((view net s.data (li, u)).next = some (lo, v) ∧ 0 < (view net s.data (lo, v)).credit) ∨
      ((view net s.data (li, u)).next = none ∧ (view net s.data (lo, v)).idle = true)) ∧
    (li, u) ≠ (lo, v) ∧ vnetOf net (lo, v) = u / net.vcPerVnet r := by
  have hx : isExit net (li, u) = false := isExit_of_router (mem_inLinks.mp hli).2
  have hsend : senderVc net s.data (lo, v) = s.data.outVcState (lo, v) := by
    simp [senderVc, (mem_outLinks.mp hlo).2]
  have hal := hreq.allowed
  rcases hv with hv | ⟨hv, hfind⟩
  · have hn : (view net s.data (li, u)).next = some (lo, v) := by
      rw [view_router hx]
      simp [VirtualChannel.next, hreq.port, hv]
    obtain ⟨w1, w2, h1, h2, hp, hh, -⟩ := h.inv.next _ _ hn
    refine ⟨Or.inl ⟨hn, ?_⟩, ?_, ?_⟩
    · rw [hv] at hal
      obtain ⟨_, -, hcr⟩ := bind_eq_ok.mp hal
      have : (s.data.outVcState (lo, v)).hasCredit = true := Except.ok.inj hcr
      simpa [view, mkView, hsend, OutVcState.hasCredit] using this
    · grind
    · rw [← (h.legal _ w2 h2).vnet, hp, (h.legal _ w1 h1).vnet, vnetOf_inLinks hli]
  · have hi : (view net s.data (lo, v)).idle = true := by
      have := find?_some hfind
      simp only [isVcIdle, isInState, Bool.and_eq_true] at this
      simpa [view, mkView, hsend] using this.1
    refine ⟨Or.inr ⟨by rw [view_router hx]; simp [VirtualChannel.next, hv], hi⟩, ?_, ?_⟩
    · intro heq
      have := ((h.inv.holds (lo, v)).free hi).2.buf
      rw [← heq, view_router hx] at this
      simp [hreq.buf] at this
    · exact vnetOf_vcsOf (mem_of_find?_eq_some hfind)

lemma Flow.depth_pos : 0 < (params net).depth (lo, v) :=
  net.buffers_pos (vnetOf net (lo, v)) (by rw [(h.goes hli hlo hreq hv).2.2]; exact hreq.vnet)

end

end

lemma view_forward {d' : Data} (now : ℕ) (f : Flit) (rest : List Flit)
    (hli : li ∈ net.inLinks (.router r)) (hlo : lo ∈ net.outLinks (.router r)) (hcd : (li, u) ≠ (lo, v))
    (hsw : switchFor net d lo = []) (hport : (d.virtualChannels (li, u)).outputPort = some lo)
    (hact : (d.virtualChannels (li, u)).vcState.1 = .active) (hd : d.forward net now r lo li u v f rest = d') :
    view net d' (li, u) = { view net d (li, u) with
      buf := rest.map tok
      back := (view net d (li, u)).back ++ [f.isTail]
      opened := !f.isTail
      next := if f.isTail then none else some (lo, v) } ∧
    view net d' (lo, v) = { view net d (lo, v) with
      wire := (view net d (lo, v)).wire ++ [tok f]
      credit := (view net d (lo, v)).credit - 1
      idle := false } ∧
    ∀ c, c ≠ (li, u) → c ≠ (lo, v) → view net d' c = view net d c := by
  have hsrc := (mem_outLinks.mp hlo).2
  have hx : isExit net (li, u) = false := isExit_of_router (mem_inLinks.mp hli).2
  have hsend : ∀ d, senderVc net d (lo, v) = d.outVcState (lo, v) := fun d => by simp [senderVc, hsrc]
  have hout : d'.outVcState = update d.outVcState (lo, v) { d.outVcState (lo, v) with
      time := if (d.virtualChannels (li, u)).outputVc = none then now else (d.outVcState (lo, v)).time
      vcState := .active, creditCount := (d.outVcState (lo, v)).creditCount - 1 } := by rw [← hd]; rfl
  have hvcs : d'.virtualChannels = update d.virtualChannels (li, u)
      (if f.isTail then { d.virtualChannels (li, u) with inputBuffer := rest }.setIdle now
        else { d.virtualChannels (li, u) with inputBuffer := rest, outputVc := some v }) := by rw [← hd]; rfl
  have hcr : d'.creditLink = update d.creditLink li
      { d.creditLink li with srcQueue := (d.creditLink li).srcQueue ++ [⟨u, f.isTail, now⟩] } := by
    rw [← hd]; rfl
  obtain ⟨hsw1, hsw2⟩ := switchFor_push d' (f := { f with outport := some lo, vc := v }.advanceStage .st now)
    hli hsrc rfl hsw (by rw [← hd]; rfl)
  have hpend : ∀ c, pendOf net d' c = pendOf net d c := fun c => pendOf_congr (by rw [← hd]; rfl)
  have hlink : d'.networkLink = d.networkLink := by rw [← hd]; rfl
  have hin : d'.inPort = d.inPort := by rw [← hd]; rfl
  have hwire : ∀ c : Chan, c ≠ (lo, v) → lane c.2 (wireOf net d' c.1) = lane c.2 (wireOf net d c.1) := by
    intro c hc
    by_cases hl : c.1 = lo
    · have hvc : v ≠ c.2 := fun hv => hc (Prod.ext hl hv.symm)
      rw [wireOf, wireOf, hl, hsw1, hsw, hlink, lane_append, lane_append _ [], lane_cons_of_ne _ (by exact hvc)]
    · rw [wireOf_congr (by rw [hlink]) (hsw2 _ hl)]
  have hback : ∀ c : Chan, c ≠ (li, u) → backOf d' c = backOf d c := by
    intro c hc
    by_cases hl : c.1 = li
    · have hvc : u ≠ c.2 := fun hv => hc (Prod.ext hl hv.symm)
      simp [backOf, hcr, hl, creditLane_cons_of_ne _ (by exact hvc : (⟨u, f.isTail, now⟩ : Credit).vc ≠ c.2)]
    · exact backOf_congr (by rw [hcr, update_of_ne hl])
  have hsnd : ∀ c : Chan, c ≠ (lo, v) → senderVc net d' c = senderVc net d c := fun c hc =>
    senderVc_congr (by rw [← hd]; rfl) (by rw [hout, update_of_ne hc])
  refine ⟨?_, ?_, fun c h1 h2 => view_congr (hpend c) (hwire c h2) (by rw [hin]) (hback c h1) (hsnd c h2)
    (by rw [hvcs, update_of_ne h1])⟩
  · have h1 : backOf d' (li, u) = backOf d (li, u) ++ [f.isTail] := by
      simp [backOf, hcr, creditLane_cons_self]
    simp only [view_router hx, hpend, hwire _ hcd, hsnd _ hcd, h1, hvcs, update_self]
    cases f.isTail <;> simp [VirtualChannel.setIdle, VirtualChannel.next, hport, hact]
  · have h1 : lane v (wireOf net d' lo) = lane v (wireOf net d lo) ++ [tok f] := by
      rw [wireOf, wireOf, hsw1, hsw, hlink, lane_append, lane_append _ [], lane_cons_self _ (by rfl), lane_nil,
        append_nil]
      rfl
    simp only [view, mkView, hpend, h1, hin, hback _ hcd.symm, hsend, hout, update_self, hvcs, update_of_ne hcd.symm]
    rfl

section

variable (h : Flow net s w) (hli : li ∈ net.inLinks (.router r)) (hlo : lo ∈ net.outLinks (.router r))
include h hli hlo

lemma Flow.forward (hreq : Request net s.now r li u lo f rest s.data) (hv : Gets net s.now r li u lo s.data v)
    (hsw : switchFor net s.data lo = []) (σ : Sched) :
    (li, u) ≠ (lo, v) ∧ (f.isTail = true → rest = []) ∧
      ∃ wc, w (li, u) = some wc ∧ tok f = (wc.pkt, wc.left) ∧ Wormhole.Joins w (lo, v) wc ∧
        Flow net ⟨s.now, s.data.forward net s.now r lo li u v f rest, σ⟩
          (Function.update (Function.update w (li, u) (some { wc with left := wc.left + 1 })) (lo, v)
            (some (Wormhole.grown (w (lo, v)) wc.pkt (wc.hop + 1)))) := by
  have hdst := (mem_inLinks.mp hli).2
  have hx : isExit net (li, u) = false := isExit_of_router hdst
  have hbuf : (view net s.data (li, u)).buf = tok f :: rest.map tok := by rw [view_router hx]; simp [hreq.buf]
  obtain ⟨wc, hwc, -, htail, hact⟩ := h.top hli hreq.buf
  obtain ⟨hgo, hcd, hvnetd⟩ := h.goes hli hlo hreq hv
  have hdepth := h.depth_pos hli hlo hreq hv
  obtain ⟨hc, hd', hne⟩ := view_forward s.now f rest hli hlo hcd hsw hreq.port hact rfl
  obtain ⟨-, hrest, w1, hw1, htok, -, hjoin, hinv⟩ := h.inv.forward hx (isEntry_of_router (mem_outLinks.mp hlo).2)
    hdepth hbuf hgo (t := f.isTail) (by rw [htail]; rfl) hc hd' hne
  obtain rfl : wc = w1 := by rw [hwc] at hw1; exact Option.some.inj hw1
  have hleg := h.legal _ wc hwc
  have hvc : ∀ c, c ≠ (li, u) → (s.data.forward net s.now r lo li u v f rest).virtualChannels c =
      s.data.virtualChannels c := fun c hcc => update_of_ne hcc ..
  have hvc' : (s.data.forward net s.now r lo li u v f rest).virtualChannels (li, u) = if f.isTail then
      { s.data.virtualChannels (li, u) with inputBuffer := rest }.setIdle s.now
    else { s.data.virtualChannels (li, u) with inputBuffer := rest, outputVc := some v } := update_self ..
  refine ⟨hcd, fun ht => by simpa using hrest ht, wc, hwc, htok, hjoin, h.step
    ⟨rfl, fun _ => id, fun _ => id, fun c => ?_, h.niOut, h.ids, h.made, h.pend⟩ hinv (h.trail.forward hwc hcd hjoin)
    (fun c x hx => ?_) (fun c => ?_) fun c x l hx hl => ?_⟩
  · -- the record of the output virtual channel
    by_cases hcc : c = (lo, v)
    · subst hcc
      change OutOk net s.now _ (Function.update s.data.outVcState (lo, v) _ (lo, v))
      rw [update_self]
      refine ⟨?_, Or.inr rfl, (h.out _).max⟩
      dsimp only
      split_ifs
      · exact le_rfl
      · exact (h.out _).time
    · change OutOk net s.now _ (Function.update s.data.outVcState (lo, v) _ c)
      rw [update_of_ne hcc]
      exact h.out c
  · -- the worms
    by_cases h1 : c = (lo, v)
    · subst h1
      rw [update_self] at hx
      cases hx
      rcases hjoin with ⟨hn, -⟩ | ⟨wd, hd, -⟩
      · obtain ⟨r', hr', hroute⟩ := h.port _ wc lo hwc hreq.port
        refine Or.inr ⟨⟨(mem_outLinks.mp hlo).1, ?_, ?_, ?_, ?_, fun n hn => ?_⟩, ?_, ?_⟩ <;>
          simp only [hn, Wormhole.grown]
        · rw [hvnetd, ← vnetOf_inLinks hli u]
          exact hleg.vnet
        · exact hleg.vnet_lt
        · exact hleg.created
        · exact hleg.path.succ hr' hroute
        · simp_all [mem_outLinks]
        grind [Flow.idle_vc]
      · refine Or.inl ⟨wd, hd, ?_⟩
        rw [hd]
        exact ⟨rfl, rfl, fun _ j hj => Or.inl hj⟩
    · rw [update_of_ne h1] at hx
      refine Or.inl ?_
      by_cases h2 : c = (li, u)
      · grind
      · grind
  · -- the record of the input virtual channel
    by_cases hcc : c = (li, u)
    · subst hcc
      dsimp only
      rw [hvc']
      split_ifs
      · exact ⟨le_rfl, Or.inl ⟨rfl, rfl, rfl⟩⟩
      · exact ⟨(h.vc _).time, Or.inr ⟨hact, r, lo, hdst, hlo, hreq.port⟩⟩
    grind [Flow.vc]
  · by_cases hcc : c = (li, u)
    · subst hcc
      dsimp only at hl
      rw [hvc'] at hl
      split_ifs at hl
      · cases hl
      · exact h.port _ x l hx hl
    · dsimp only at hl
      rw [hvc c hcc] at hl
      exact h.port c x l hx hl

lemma Flow.traverse (hbuf : s.data.switchBuffers li = f :: rest) (hout : f.outport = some lo)
    (hsw : switchFor net s.data lo = [f]) (σ : Sched) : Flow net ⟨s.now, s.data.traverse edge lo li f rest, σ⟩ w := by
  refine h.same (h.records rfl rfl rfl (fun _ => id) rfl (fun _ => rfl) fun _ => rfl) ?_ rfl
  obtain ⟨hsw1, hsw2⟩ := switchFor_pop (s.data.traverse edge lo li f rest) hli (mem_outLinks.mp hlo).2 hout hsw
    hbuf rfl
  funext c
  refine view_congr rfl ?_ rfl rfl rfl rfl
  dsimp only
  by_cases hl : c.1 = lo
  · have hlink : (s.data.traverse edge lo li f rest).networkLink lo = { s.data.networkLink lo with
        srcQueue := (s.data.networkLink lo).srcQueue ++ [{ f.advanceStage .lt edge with time := edge }] } :=
      update_self ..
    have htok : lane c.2 [{ f.advanceStage .lt edge with time := edge }] = lane c.2 [f] := lane_singleton_congr rfl rfl
    simp_all [wireOf, lane_append]
  · rw [wireOf_congr (update_of_ne hl ..) (hsw2 _ hl)]

end

/-! ### Links -/

lemma Flow.link (h : Flow net s w) (hbuf : (s.data.networkLink l).srcQueue = f :: rest) (σ : Sched) :
    Flow net ⟨s.now, s.data.setLink l ⟨rest, (s.data.networkLink l).linkBuffer ++ [{ f with time := edge }]⟩, σ⟩ w := by
  refine h.same (h.records rfl rfl rfl (fun _ => id) rfl (fun _ => rfl) fun _ => rfl) ?_ rfl
  funext c
  refine view_congr rfl ?_ rfl rfl rfl rfl
  by_cases hl : c.1 = l
  · have htok : lane c.2 [{ f with time := edge }] = lane c.2 [f] := lane_singleton_congr rfl rfl
    have hsw : switchFor net (s.data.setLink l ⟨rest, (s.data.networkLink l).linkBuffer ++ [{ f with time := edge }]⟩) l =
        switchFor net s.data l := switchFor_congr rfl l
    rw [wireOf, wireOf, hl, hsw, hbuf]
    simp only [Data.setLink, update_self, lane_append, lane_cons f rest, htok, append_assoc]
  · refine congrArg (lane c.2) (wireOf_congr ?_ (switchFor_congr rfl _))
    exact update_of_ne hl ..

lemma Flow.creditLink (h : Flow net s w) {rest : List Credit}
    (hbuf : (s.data.creditLink l).srcQueue = e :: rest) (σ : Sched) :
    Flow net ⟨s.now, s.data.setCredit l ⟨rest, (s.data.creditLink l).linkBuffer ++ [{ e with time := edge }]⟩, σ⟩ w := by
  refine h.same (h.records rfl rfl rfl (fun _ => id) rfl (fun _ => rfl) fun _ => rfl) ?_ rfl
  funext c
  refine view_congr rfl rfl rfl ?_ rfl rfl
  by_cases hl : c.1 = l
  · have hlane : creditLane c.2 [{ e with time := edge }] = creditLane c.2 [e] := by
      grind [creditLane_cons_self, creditLane_cons_of_ne]
    rw [backOf, backOf, hl, hbuf]
    simp only [Data.setCredit, update_self, creditLane_append, creditLane_cons e rest, hlane, append_assoc]
  · exact backOf_congr (update_of_ne hl ..)

end Gem5.Garnet
