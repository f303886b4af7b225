import Gem5.Garnet.FlowRouter

/-!
# The flow is kept by interfaces

One lemma for each move of an interface, as for routers, and then for any move: `Flow.move`.
-/

namespace Gem5.Garnet

open Sim Ruby Lib Function List NetworkInterface Data

variable {net : Net} {s : State} {w : Worms}

/-! ### The virtual channels of an interface -/

variable {n l v port vc : ℕ} {d d' : Data} {o : OutVcState} {e : Credit} {f : Flit} {rest : List Flit} {s' : State}

lemma vnetOf_outLinks (hl : l ∈ net.outLinks (.ni n)) (v : ℕ) : vnetOf net (l, v) = v / net.niVcPerVnet n := by
  rw [vnetOf, Net.niVcPerVnet_eq hl]

section

variable (hp : net.outportForVnet n (v / net.niVcPerVnet n) = some l)
include hp

lemma carried : (net.link l).src = .ni n ∧ net.outportForVnet n (vnetOf net (l, v)) = some l := by
  have hl := (Net.outportForVnet_spec hp).1
  exact ⟨(Net.mem_outLinks.mp hl).2, by rw [vnetOf_outLinks hl]; exact hp⟩

lemma senderVc_ni (d : Data) : senderVc net d (l, v) = (d.ni n).outVcState v := by
  obtain ⟨hsrc, hc⟩ := carried hp
  simp [senderVc, hsrc, hc]

lemma pendOf_ni (d : Data) : pendOf net d (l, v) = ((d.ni n).niOutVcs v).map tok := by
  obtain ⟨hsrc, hc⟩ := carried hp
  simp [pendOf, hsrc, hc]

lemma ni_of_ne {c : Chan}
    (hni : ∀ m u, ¬ (m = n ∧ u = v) → (d'.ni m).outVcState u = (d.ni m).outVcState u ∧ (d'.ni m).niOutVcs u = (d.ni m).niOutVcs u)
    (ho : d'.outVcState = d.outVcState) (hc : c ≠ (l, v)) :
    senderVc net d' c = senderVc net d c ∧ pendOf net d' c = pendOf net d c := by
  unfold senderVc pendOf
  cases hsrc : (net.link c.1).src with
  | router r => exact ⟨by rw [ho], rfl⟩
  | ni m =>
    dsimp only
    split_ifs with hcar
    · have hne : ¬ (m = n ∧ c.2 = v) := by
        rintro ⟨rfl, hv⟩
        have hm := (Net.outportForVnet_spec hcar).1
        grind [vnetOf_outLinks]
      simp_all
    · exact ⟨rfl, rfl⟩

end

lemma ni_update (d d' : Data) {x : NiState} {q : List Flit}
    (hd : d'.ni = update d.ni n x) (hx : x.outVcState = update (d.ni n).outVcState v o)
    (hq : x.niOutVcs = update (d.ni n).niOutVcs v q) :
    (d'.ni n).outVcState v = o ∧ (d'.ni n).niOutVcs v = q ∧ ∀ m u, ¬ (m = n ∧ u = v) →
      (d'.ni m).outVcState u = (d.ni m).outVcState u ∧ (d'.ni m).niOutVcs u = (d.ni m).niOutVcs u := by
  rw [hd]
  refine ⟨by simp [hx], by simp [hq], fun m u hmu => ?_⟩
  by_cases hm : m = n
  · simp_all
  · simp [update_of_ne hm]

section

variable (h : Flow net s w) {rest : List Credit} (hl : l ∈ net.outLinks (.ni n))
  (hbuf : (s.data.creditLink l).linkBuffer = e :: rest)
include h hl hbuf

lemma Flow.niPort : net.outportForVnet n (e.vc / net.niVcPerVnet n) = some l := by
  have hb : (view net s.data (l, e.vc)).back = _ := backOf_front hbuf
  obtain ⟨wc, hw, -⟩ := h.inv.busy (c := (l, e.vc)) (by simp [hb])
  have hleg := h.legal _ wc hw
  rw [← vnetOf_outLinks hl, ← hleg.vnet]
  exact hleg.entry n (Net.mem_outLinks.mp hl).2

lemma Flow.niRoom :
    ((s.data.ni n).outVcState e.vc).creditCount + 1 ≤ ((s.data.ni n).outVcState e.vc).maxCreditCount := by
  have hroom := h.room (backOf_front hbuf)
  rwa [senderVc_ni (h.niPort hl hbuf), vnetOf_outLinks hl, ← (h.niOut n e.vc).max] at hroom

lemma Flow.niRefund (ho : ((s.data.ni n).outVcState e.vc).incrementCredit = .ok o) : ∃ wc, w (l, e.vc) = some wc ∧
      Flow net { s with data := s.data.niRefund n l e rest (if e.isFreeSignal then o.setState .idle s.now else o) }
        (Function.update w (l, e.vc) (if e.isFreeSignal then none else some { wc with ret := wc.ret + 1 })) := by
  have hp := h.niPort hl hbuf
  obtain ⟨hself, hpend, hne⟩ := ni_update s.data (s.data.niRefund n l e rest (o.refunded s.now e.isFreeSignal)) (n := n)
    (v := e.vc) (o := o.refunded s.now e.isFreeSignal) (q := (s.data.ni n).niOutVcs e.vc) rfl rfl
    (update_eq_self ..).symm
  change ∃ wc, w (l, e.vc) = some wc ∧
    Flow net { s with data := s.data.niRefund n l e rest (o.refunded s.now e.isFreeSignal) } _
  refine h.refundWith (backOf_front hbuf)
    ⟨rfl, fun _ => id, fun _ => id, h.out, fun m v => ?_, h.ids, h.made, fun m v g hg => ?_⟩
    (by rw [senderVc_ni hp]; exact ho)
    (by rw [senderVc_ni hp, vnetOf_outLinks hl]; exact h.niOut n e.vc) ?_ ?_ (fun c => ?_) rfl rfl rfl fun c' hc => ?_
  · by_cases hmv : m = n ∧ v = e.vc
    · obtain ⟨rfl, rfl⟩ := hmv
      rw [hself]
      exact ((h.niOut _ _).refunded ho e.isFreeSignal).1
    · rw [(hne m v hmv).1]
      exact h.niOut m v
  · grind [Flow.pend]
  · simp [backOf, Data.niRefund, Data.setNi, Data.setCredit]
  · rw [senderVc_ni hp, hself]
  · by_cases hc : c = (l, e.vc)
    · rw [hc, pendOf_ni hp, pendOf_ni hp, hpend]
    · exact (ni_of_ne hp hne rfl hc).2
  · obtain ⟨h1, h2⟩ := ni_of_ne hp hne rfl hc
    exact view_congr h2 rfl rfl (backOf_pop_of_ne hbuf rfl hc) h1 rfl

end

/-! ### Packets -/

/-- The packet that `flitisizeMessage` makes of a message for a destination. -/
def packetOf (net : Net) (d : Data) (n vnet port destId destRouter : ℕ) (msg : Message) : Packet :=
  ⟨d.nextPacketId, vnet, numFlits net port msg,
    routeTo net n vnet port destId destRouter, { msg with destination := [destId] }⟩

/-- What `makePacket` does when it returns. -/
lemma makePacket_eq {now vnet destId : ℕ} {msg : Message}
    (h : makePacket net n now vnet port vc destId msg d = .ok d') :
    ∃ destRouter fs, net.getRouterId destId vnet = some destRouter ∧
      fs.map tok = Wormhole.seg (packetOf net d n vnet port destId destRouter msg) 0 (numFlits net port msg) ∧
      (∀ f ∈ fs, f.time = now ∧ f.vc = vc) ∧
      d' = { d.setNi n { d.ni n with
          niOutVcs := update (d.ni n).niOutVcs vc ((d.ni n).niOutVcs vc ++ fs)
          outVcsEnqueueTime := update (d.ni n).outVcsEnqueueTime vc now
          outVcState := update (d.ni n).outVcState vc (((d.ni n).outVcState vc).setState .active now) } with
        nextPacketId := d.nextPacketId + 1
        created := d.created ++ [packetOf net d n vnet port destId destRouter msg] } := by
  unfold makePacket at h
  split at h
  · cases h
  · rename_i destRouter hr
    refine ⟨destRouter, flitsOf d.nextPacketId vc vnet
      (routeTo net n vnet port destId destRouter) (numFlits net port msg)
      { msg with destination := [destId] } (net.link port).bitWidth now, hr, ?_, ?_, (Except.ok.inj h).symm⟩
    · rw [flitsOf, map_map, Wormhole.seg, slice, Nat.sub_zero, ← range_eq_range']
      rfl
    · intro f hf
      obtain ⟨i, -, rfl⟩ := mem_map.mp hf
      exact ⟨rfl, rfl⟩

lemma Flow.id_lt (h : Flow net s w) {p : Packet} (hp : p ∈ s.data.created) : p.id < s.data.nextPacketId := by
  grind [mem_map_of_mem, Flow.ids]

lemma Flow.create (h : Flow net s w) {vnet dest : ℕ} {msg : Message}
    (hvnet : vnet < net.virtualNetworks) (hport : net.outportForVnet n vnet = some port)
    (hvc : ∃ i < net.niVcPerVnet n, vc = vnet * net.niVcPerVnet n + i)
    (hidle : ((s.data.ni n).outVcState vc).vcState = .idle)
    (hd : makePacket net n s.now vnet port vc dest msg s.data = .ok d) :
    ∃ destRouter, net.getRouterId dest vnet = some destRouter ∧ w (port, vc) = none ∧
      (s.data.ni n).niOutVcs vc = [] ∧ d.created = s.data.created ++ [packetOf net s.data n vnet port dest destRouter msg] ∧
      Flow net { s with data := d }
        (Function.update w (port, vc) (some ⟨packetOf net s.data n vnet port dest destRouter msg, 0, 0, 0, 0, 0⟩)) := by
  obtain ⟨destRouter, fs, hdr, hfs, hfvc, rfl⟩ := makePacket_eq hd
  generalize hpk : packetOf net s.data n vnet port dest destRouter msg = p at hfs
  have hpid : p.id = s.data.nextPacketId := by rw [← hpk]; rfl
  have hpv : p.vnet = vnet := by rw [← hpk]; rfl
  have hdiv : vc / net.niVcPerVnet n = vnet := by
    obtain ⟨i, hi, rfl⟩ := hvc
    rw [Nat.mul_comm, Nat.mul_add_div (by omega), Nat.div_eq_of_lt hi, Nat.add_zero]
  have hp : net.outportForVnet n (vc / net.niVcPerVnet n) = some port := by rw [hdiv]; exact hport
  obtain ⟨hsrc, -⟩ := carried hp
  have hl := (Net.outportForVnet_spec hport).1
  have hfree : (view net s.data (port, vc)).idle = true := by simp [view, mkView, senderVc_ni hp, hidle]
  obtain ⟨hw, hf⟩ := (h.inv.holds (port, vc)).free hfree
  have hempty : (s.data.ni n).niOutVcs vc = [] := by
    have : pendOf net s.data (port, vc) = [] := hf.pend
    rw [pendOf_ni hp] at this
    simpa using this
  rw [hempty, nil_append]
  refine ⟨destRouter, hdr, hw, rfl, by rw [hpk], ?_⟩
  rw [hpk]
  generalize hd' : ({ s.data.setNi n _ with nextPacketId := _, created := _ } : Data) = d'
  obtain ⟨hself, hpend, hne⟩ := ni_update s.data d' (n := n) (v := vc)
    (o := ((s.data.ni n).outVcState vc).setState .active s.now) (q := fs) (by rw [← hd']; rfl) rfl rfl
  have hother : ∀ c' ≠ (port, vc), view net d' c' = view net s.data c' := by
    intro c' hc
    obtain ⟨h1, h2⟩ := ni_of_ne hp hne (by rw [← hd']; rfl) hc
    subst hd'
    exact view_congr h2 rfl rfl rfl h1 rfl
  have hthis : view net d' (port, vc) = { view net s.data (port, vc) with
      pend := Wormhole.seg p 0 ((params net).size p)
      idle := false } := by
    have hsize : (params net).size p = numFlits net port msg := by rw [← hpk]; rfl
    have h1 : (senderVc net d' (port, vc)).creditCount = (senderVc net s.data (port, vc)).creditCount := by
      rw [senderVc_ni hp, senderVc_ni hp, hself]; rfl
    have h2 : (senderVc net d' (port, vc)).vcState = .active := by rw [senderVc_ni hp, hself]; rfl
    simp only [view, mkView, h1, h2, pendOf_ni hp, hpend, hfs, hsize]
    subst hd'
    rfl
  have hinv : Wormhole.Inv (params net) (view net d') _ := h.inv.create (isEntry_of_ni hsrc) hfree p hthis hother
  have hcr : d'.created = s.data.created ++ [p] := by rw [← hd']
  have hvcs : d'.virtualChannels = s.data.virtualChannels := by rw [← hd']; rfl
  have hout : d'.outVcState = s.data.outVcState := by rw [← hd']; rfl
  have hmade : Made net p := ⟨n, port, dest, destRouter, by rw [hpv]; exact hport, by rw [hpv]; exact hdr, by rw [← hpk]; rfl⟩
  refine h.step ⟨rfl, fun q hq => ?_, fun x => ?_, fun c => ?_, fun m v => ?_, ?_, fun q hq => ?_, fun m v g hg => ?_⟩ hinv
    (h.trail.extend fun c wc hwc heq => ?_) (fun c x hx => ?_) (fun c => ?_) fun c wc lo hwc hlo => ?_
  · dsimp only; rw [hcr]; exact mem_append_left _ hq
  · subst hd'; exact id
  · dsimp only; rw [hout]; exact h.out c
  · by_cases hmv : m = n ∧ v = vc
    · obtain ⟨rfl, rfl⟩ := hmv
      dsimp only
      rw [hself]
      exact ⟨le_rfl, Or.inr rfl, (h.niOut _ _).max⟩
    grind [Flow.niOut]
  · grind [Flow.ids, range_succ, map_singleton]
  · grind [Flow.made]
  · grind [Flow.pend]
  · -- the packet is new
    have := h.id_lt (h.legal c wc hwc).created
    simp_all
  · by_cases hc : c = (port, vc)
    · subst hc
      rw [update_self] at hx
      cases hx
      refine Or.inr ⟨⟨(Net.mem_outLinks.mp hl).1, ?_, by rw [hpv]; exact hvnet, ?_, PathAt.zero ?_, fun m hm => ?_⟩, rfl, ?_⟩
      · rw [hpv, vnetOf_outLinks hl, hdiv]
      · dsimp only; rw [hcr]; exact mem_append_right _ (mem_singleton_self _)
      · rw [← hpk]; exact hport
      · simp_all
      · dsimp only; rw [hvcs]; exact (h.idle_vc hw).2.1
    grind
  · dsimp only; rw [hvcs]; exact h.vc c
  · dsimp only at hlo
    rw [hvcs] at hlo
    exact h.port c wc lo hwc hlo

section

variable (h : Flow net s w) (hbuf : (s.data.ni n).niOutVcs vc = f :: rest)
include h hbuf

lemma Flow.waiting : ∃ l wc, net.outportForVnet n (vc / net.niVcPerVnet n) = some l ∧ w (l, vc) = some wc ∧
      f.vnet = vc / net.niVcPerVnet n ∧ f.vc = vc ∧ pendOf net s.data (l, vc) = tok f :: rest.map tok := by
  obtain ⟨hvc, l, hl⟩ := h.pend n vc f (by rw [hbuf]; exact mem_cons_self ..)
  have hpend : pendOf net s.data (l, vc) = tok f :: rest.map tok := by rw [pendOf_ni hl, hbuf]; rfl
  have hpend' : (view net s.data (l, vc)).pend = tok f :: rest.map tok := hpend
  obtain ⟨wc, hw, hb⟩ := h.inv.busy (c := (l, vc)) (by simp [hpend'])
  refine ⟨l, wc, hl, hw, ?_, hvc, hpend⟩
  have hleg := h.legal _ wc hw
  have hentry : (params net).entry (l, vc) = true := isEntry_of_ni (carried hl).1
  have htok : tok f = (wc.pkt, wc.sent) := by
    have := hb.pend
    rw [hpend', hentry, if_pos rfl] at this
    exact (slice_eq_cons this.symm).2.1
  have : f.vnet = wc.pkt.vnet := congrArg Packet.vnet (Prod.mk.inj htok).1
  rw [this, hleg.vnet, vnetOf_outLinks (Net.outportForVnet_spec hl).1]

lemma Flow.send {edge : ℕ} (ho : ((s.data.ni n).outVcState vc).decrementCredit = .ok o)
    (hport : net.outportForVnet n f.vnet = some port) (σ : Sched) :
    ∃ wc, w (port, vc) = some wc ∧ tok f = (wc.pkt, wc.sent) ∧
      Flow net ⟨s.now, s.data.send edge n l port vc f rest o, σ⟩
        (Function.update w (port, vc) (some { wc with sent := wc.sent + 1 })) := by
  obtain ⟨l', -, hp, -, hvnet, hvc, hpend⟩ := h.waiting hbuf
  obtain rfl : port = l' := by rw [hvnet, hp] at hport; exact (Option.some.inj hport).symm
  obtain ⟨hsrc, -⟩ := carried hp
  obtain ⟨rfl, hcredit⟩ := OutVcState.decrementCredit_eq ho
  generalize hd : s.data.send edge n l port vc f rest _ = d
  obtain ⟨hself, hrest, hne⟩ := ni_update s.data d (n := n) (v := vc)
    (o := { (s.data.ni n).outVcState vc with creditCount := ((s.data.ni n).outVcState vc).creditCount - 1 }) (q := rest)
    (by rw [← hd]; rfl) rfl rfl
  have hlink : d.networkLink = Function.update s.data.networkLink port { s.data.networkLink port with
      srcQueue := (s.data.networkLink port).srcQueue ++ [{ f with time := edge }] } := by rw [← hd]; rfl
  have hsw : ∀ l, switchFor net d l = switchFor net s.data l := switchFor_congr (by rw [← hd]; rfl)
  have hswp : switchFor net s.data port = [] := by simp [switchFor, hsrc]
  have hother : ∀ c' ≠ (port, vc), view net d c' = view net s.data c' := by
    intro c' hc
    obtain ⟨h1, h2⟩ := ni_of_ne hp hne (by rw [← hd]; rfl) hc
    refine view_congr h2 ?_ (by rw [← hd]; rfl) (by rw [← hd]; rfl) h1 (by rw [← hd]; rfl)
    by_cases hl' : c'.1 = port
    · have hv : f.vc ≠ c'.2 := fun hv => hc (Prod.ext hl' (by rw [← hv, hvc]))
      simp_all [wireOf, lane_cons_of_ne]
    · rw [wireOf_congr (by rw [hlink, update_of_ne hl']) (hsw _)]
  have hthis : view net d (port, vc) = { view net s.data (port, vc) with
      pend := rest.map tok
      wire := (view net s.data (port, vc)).wire ++ [tok f]
      credit := (view net s.data (port, vc)).credit - 1 } := by
    have h1 : lane vc (wireOf net d port) = lane vc (wireOf net s.data port) ++ [tok f] := by
      rw [wireOf, wireOf, hsw, hswp, hlink]
      simp [lane_cons_self (f := { f with time := edge }) [] hvc]
      rfl
    have h2 : (senderVc net d (port, vc)).creditCount = (senderVc net s.data (port, vc)).creditCount - 1 := by
      rw [senderVc_ni hp, senderVc_ni hp, hself]
    have h3 : (senderVc net d (port, vc)).vcState = (senderVc net s.data (port, vc)).vcState := by
      rw [senderVc_ni hp, senderVc_ni hp, hself]
    simp only [view, mkView, h1, h2, h3, pendOf_ni hp, hrest]
    subst hd
    rfl
  have hcr : 0 < (view net s.data (port, vc)).credit := by simpa [view, mkView, senderVc_ni hp] using hcredit
  obtain ⟨wc, hw, htok, -, hinv⟩ := h.inv.inject hpend hcr hthis hother
  have hvcs : d.virtualChannels = s.data.virtualChannels := by rw [← hd]; rfl
  refine ⟨wc, hw, htok, h.update hw ⟨rfl, fun p => ?_, fun x => ?_, fun c => ?_, fun m v => ?_, ?_, fun p => ?_,
    fun m v g hg => ?_⟩ hinv rfl rfl le_rfl (fun _ j hj => Or.inl hj) (fun c => ?_) fun c v lo hv hlo => ?_⟩
  · subst hd; exact id
  · subst hd; exact id
  · subst hd; exact h.out c
  · by_cases hmv : m = n ∧ v = vc
    · obtain ⟨rfl, rfl⟩ := hmv
      dsimp only
      rw [hself]
      exact ⟨(h.niOut _ _).time, (h.niOut _ _).state, (h.niOut _ _).max⟩
    grind [Flow.niOut]
  · subst hd; exact h.ids
  · subst hd; exact h.made p
  · grind [Flow.pend]
  · dsimp only; rw [hvcs]; exact h.vc c
  · dsimp only at hlo
    rw [hvcs] at hlo
    exact h.port c v lo hv hlo

end

/-! ### The input side -/

/-- What moves on the input side of an interface leave alone. -/
structure InputSide (s s' : State) : Prop where
  now : s'.now = s.now
  vcs : s'.data.virtualChannels = s.data.virtualChannels
  out : s'.data.outVcState = s.data.outVcState
  niOut : ∀ n, (s'.data.ni n).outVcState = (s.data.ni n).outVcState
  niVcs : ∀ n, (s'.data.ni n).niOutVcs = (s.data.ni n).niOutVcs
  created : s'.data.created = s.data.created
  nextPacketId : s'.data.nextPacketId = s.data.nextPacketId
  switch : s'.data.switchBuffers = s.data.switchBuffers
  received : ∀ x, Received s.data x → Received s'.data x

namespace InputSide

variable {s' : State} (hi : InputSide s s')

include hi

lemma records (h : Flow net s w) : Records net s s' :=
  h.records hi.now hi.created hi.nextPacketId hi.received hi.out hi.niOut hi.niVcs

lemma pendOf_eq (c : Chan) : pendOf net s'.data c = pendOf net s.data c := by
  unfold pendOf
  simp only [hi.niVcs]

lemma senderVc_eq (c : Chan) : senderVc net s'.data c = senderVc net s.data c := by
  unfold senderVc
  simp only [hi.niOut, hi.out]

lemma view_of_ne {l v : ℕ} {c : Chan} (hc : c ≠ (l, v))
    (hwire : c.2 ≠ v → lane c.2 (wireOf net s'.data l) = lane c.2 (wireOf net s.data l))
    (hlink : c.1 ≠ l → s'.data.networkLink c.1 = s.data.networkLink c.1)
    (hstall : c.2 ≠ v → lane c.2 (s'.data.inPort l).stallQueue = lane c.2 (s.data.inPort l).stallQueue)
    (hin : c.1 ≠ l → s'.data.inPort c.1 = s.data.inPort c.1)
    (hback : backOf s'.data c = backOf s.data c) : view net s'.data c = view net s.data c := by
  refine view_congr (hi.pendOf_eq c) ?_ ?_ hback (hi.senderVc_eq c) (by rw [hi.vcs])
  · grind [wireOf_congr, switchFor_congr, switch]
  grind

lemma same (h : Flow net s w) (hlink : s'.data.networkLink = s.data.networkLink)
    (hcr : s'.data.creditLink = s.data.creditLink)
    (hin : ∀ l, (s'.data.inPort l).stallQueue = (s.data.inPort l).stallQueue) : Flow net s' w := by
  refine h.same (hi.records h) (funext fun c => ?_) hi.vcs
  exact view_congr (hi.pendOf_eq c) (by rw [wireOf_congr (by rw [hlink]) (switchFor_congr hi.switch _)]) (by rw [hin])
    (backOf_congr (by rw [hcr])) (hi.senderVc_eq c) (by rw [hi.vcs])

lemma flow (h : Flow net s w) {c : Chan} {wc wc' : Wormhole.Worm Packet} (hw : w c = some wc)
    (hinv : Wormhole.Inv (params net) (view net s'.data) (update w c (some wc'))) (hpkt : wc'.pkt = wc.pkt)
    (hhop : wc'.hop = wc.hop) (hleft : wc.left ≤ wc'.left)
    (hrec : ∀ j < wc'.left, j < wc.left ∨ Received s'.data (wc.pkt, j)) :
    Flow net s' (update w c (some wc')) :=
  h.update hw (hi.records h) hinv hpkt hhop hleft (fun _ => hrec) (fun c' => by rw [hi.vcs]; exact h.vc c')
    fun c' v lo hv hlo => h.port c' v lo hv (by rw [hi.vcs] at hlo; exact hlo)

end InputSide

section

variable {b : Bool} {t : ℕ}
  (h : d'.creditLink = update d.creditLink l { d.creditLink l with srcQueue := (d.creditLink l).srcQueue ++ [⟨v, b, t⟩] })
include h

lemma backOf_push_self : backOf d' (l, v) = backOf d (l, v) ++ [b] := by
  simp [backOf, h, creditLane_cons_self]

lemma backOf_push_of_ne {c : Chan} (hc : c ≠ (l, v)) : backOf d' c = backOf d c := by
  by_cases hl : c.1 = l
  · have hv : v ≠ c.2 := fun hv => hc (Prod.ext hl hv.symm)
    simp [backOf, h, hl, creditLane_cons_of_ne _ (by exact hv : (⟨v, b, t⟩ : Credit).vc ≠ c.2)]
  · exact backOf_congr (by rw [h, update_of_ne hl])

end

lemma Flow.last (h : Flow net s w) (hx : isExit net (l, f.vc) = true)
    (hbuf : (s.data.networkLink l).linkBuffer = f :: rest) :
    ∃ wc, w (l, f.vc) = some wc ∧ tok f = (wc.pkt, wc.left) ∧ f.isTail = decide (f.id + 1 = f.size) := by
  have hwire : (view net s.data (l, f.vc)).wire = _ := wireOf_front hbuf
  obtain ⟨wc, hw, hb⟩ := h.inv.busy (c := (l, f.vc)) (Or.inr (Or.inl (by rw [hwire]; exact cons_ne_nil _ _)))
  obtain ⟨ht, hlt, hlr, -⟩ := hb.absorb hx hwire
  have hid : f.id = wc.rcvd := (Prod.mk.inj ht).2
  have hsize : f.size = wc.pkt.size := congrArg Packet.size (Prod.mk.inj ht).1
  have hle : wc.sent ≤ wc.pkt.size := hb.sent_le
  exact ⟨wc, hw, by rw [ht, hlr], by rw [Bool.eq_iff_iff, Flit.isTail_iff (by omega), decide_eq_true_eq]⟩

section

variable (h : Flow net s w) {g : Flit} (hl : l ∈ net.inLinks (.ni n))
  (hbuf : (s.data.networkLink l).linkBuffer = f :: rest)
include h hl hbuf

lemma Flow.takeWith (hi : InputSide s s')
    (hlink : s'.data.networkLink = Function.update s.data.networkLink l { s.data.networkLink l with linkBuffer := rest })
    (hcr : s'.data.creditLink = Function.update s.data.creditLink l { s.data.creditLink l with
      srcQueue := (s.data.creditLink l).srcQueue ++ [⟨f.vc, f.isTail, s.now⟩] })
    (hin : s'.data.inPort = s.data.inPort) (hg : tok g = tok f)
    (hrec : s'.data.received = s.data.received ++ [(n, g)]) :
    ∃ wc, w (l, f.vc) = some wc ∧ tok f = (wc.pkt, wc.left) ∧
      Flow net s' (Function.update w (l, f.vc) (some { wc with rcvd := wc.rcvd + 1, left := wc.left + 1 })) := by
  have hx : isExit net (l, f.vc) = true := isExit_of_ni (Net.mem_inLinks.mp hl).2
  obtain ⟨-, -, -, htail⟩ := h.last hx hbuf
  have hwire : (view net s.data (l, f.vc)).wire = _ := wireOf_front hbuf
  have hw' : wireOf net s'.data l = rest ++ (s.data.networkLink l).srcQueue ++ switchFor net s.data l := by
    simp [wireOf, hlink, switchFor_congr hi.switch]
  have hother : ∀ c' ≠ (l, f.vc), view net s'.data c' = view net s.data c' := by
    intro c' hc
    refine hi.view_of_ne hc (fun hv => ?_) (fun hl' => by rw [hlink, update_of_ne hl']) (fun _ => by rw [hin])
      (fun _ => by rw [hin]) (backOf_push_of_ne hcr hc)
    rw [hw', wireOf, hbuf, cons_append, cons_append, lane_cons_of_ne _ (Ne.symm hv)]
  have hthis : view net s'.data (l, f.vc) = { view net s.data (l, f.vc) with
      wire := lane f.vc (rest ++ (s.data.networkLink l).srcQueue ++ switchFor net s.data l)
      back := (view net s.data (l, f.vc)).back ++ [decide ((tok f).2 + 1 = (params net).size (tok f).1)] } := by
    have ht : f.isTail = decide ((tok f).2 + 1 = (params net).size (tok f).1) := htail
    simp only [view_ni hx, hi.pendOf_eq, hi.senderVc_eq, hw', hin, backOf_push_self hcr, ht]
  obtain ⟨wc, hw, htok, -, hinv⟩ := h.inv.absorb hx hwire hthis hother
  refine ⟨wc, hw, htok, hi.flow h hw hinv rfl rfl (Nat.le_succ _) fun j hj => ?_⟩
  rcases Nat.lt_succ_iff_lt_or_eq.mp hj with hj | rfl
  · exact Or.inl hj
  · refine Or.inr ⟨(n, g), by rw [hrec]; exact mem_append_right _ (mem_singleton_self _), ?_⟩
    rw [← htok]
    exact hg

lemma Flow.stallWith (htail : f.isTail = true) (hi : InputSide s s')
    (hlink : s'.data.networkLink = Function.update s.data.networkLink l { s.data.networkLink l with linkBuffer := rest })
    (hcr : s'.data.creditLink = s.data.creditLink)
    (hin : s'.data.inPort = Function.update s.data.inPort l { s.data.inPort l with stallQueue := (s.data.inPort l).stallQueue ++ [g] })
    (hg : tok g = tok f) (hgv : g.vc = f.vc) :
    ∃ wc, w (l, f.vc) = some wc ∧ tok f = (wc.pkt, wc.rcvd) ∧
      Flow net s' (Function.update w (l, f.vc) (some { wc with rcvd := wc.rcvd + 1 })) := by
  have hx : isExit net (l, f.vc) = true := isExit_of_ni (Net.mem_inLinks.mp hl).2
  obtain ⟨-, -, -, ht⟩ := h.last hx hbuf
  have ht' : (tok f).2 + 1 = (params net).size (tok f).1 := by
    rw [htail] at ht
    exact of_decide_eq_true ht.symm
  have hwire : (view net s.data (l, f.vc)).wire = _ := wireOf_front hbuf
  have hw' : wireOf net s'.data l = rest ++ (s.data.networkLink l).srcQueue ++ switchFor net s.data l := by
    simp [wireOf, hlink, switchFor_congr hi.switch]
  have hother : ∀ c' ≠ (l, f.vc), view net s'.data c' = view net s.data c' := by
    intro c' hc
    refine hi.view_of_ne hc (fun hv => ?_) (fun hl' => by rw [hlink, update_of_ne hl']) (fun hv => ?_)
      (fun hl' => by rw [hin, update_of_ne hl']) (backOf_congr (by rw [hcr]))
    · rw [hw', wireOf, hbuf, cons_append, cons_append, lane_cons_of_ne _ (Ne.symm hv)]
    · rw [hin, update_self, lane_append, lane_cons_of_ne _ (by rw [hgv]; exact Ne.symm hv), lane_nil, append_nil]
  have hthis : view net s'.data (l, f.vc) = { view net s.data (l, f.vc) with
      wire := lane f.vc (rest ++ (s.data.networkLink l).srcQueue ++ switchFor net s.data l)
      buf := (view net s.data (l, f.vc)).buf ++ [tok f] } := by
    have h1 : lane f.vc (s'.data.inPort l).stallQueue = lane f.vc (s.data.inPort l).stallQueue ++ [tok f] := by
      rw [hin, update_self, lane_append, lane_cons_self _ hgv, hg, lane_nil]
    have h2 : backOf s'.data (l, f.vc) = backOf s.data (l, f.vc) := backOf_congr (by rw [hcr])
    simp only [view_ni hx, hi.pendOf_eq, hi.senderVc_eq, hw', h1, h2]
  obtain ⟨wc, hw, htok, hinv⟩ := h.inv.stall hx hwire ht' hthis hother
  exact ⟨wc, hw, htok, hi.flow h hw hinv rfl rfl le_rfl fun j hj => Or.inl hj⟩

end

lemma Flow.unstallWith (h : Flow net s w) {pre post : List Flit}
    (hl : l ∈ net.inLinks (.ni n)) (hq : (s.data.inPort l).stallQueue = pre ++ f :: post) (hi : InputSide s s')
    (hlink : s'.data.networkLink = s.data.networkLink)
    (hcr : s'.data.creditLink = Function.update s.data.creditLink l
      { s.data.creditLink l with srcQueue := (s.data.creditLink l).srcQueue ++ [⟨f.vc, true, s.now⟩] })
    (hin : s'.data.inPort = Function.update s.data.inPort l ⟨pre ++ post, true⟩)
    (hrec : s'.data.received = s.data.received ++ [(n, f)]) :
    ∃ wc, w (l, f.vc) = some wc ∧ tok f = (wc.pkt, wc.left) ∧ wc.left + 1 = wc.pkt.size ∧
      Flow net s' (Function.update w (l, f.vc) (some { wc with left := wc.left + 1 })) := by
  have hx : isExit net (l, f.vc) = true := isExit_of_ni (Net.mem_inLinks.mp hl).2
  have hbuf : (view net s.data (l, f.vc)).buf = lane f.vc pre ++ tok f :: lane f.vc post := by
    simp_all [view_ni, lane_append, lane_cons_self]
  have hmem : tok f ∈ (view net s.data (l, f.vc)).buf := by rw [hbuf]; simp
  have hwire : ∀ c : Chan, lane c.2 (wireOf net s'.data c.1) = lane c.2 (wireOf net s.data c.1) := fun c => by
    rw [wireOf_congr (by rw [hlink]) (switchFor_congr hi.switch _)]
  have hother : ∀ c' ≠ (l, f.vc), view net s'.data c' = view net s.data c' := by
    intro c' hc
    refine hi.view_of_ne hc (fun _ => hwire (l, c'.2)) (fun _ => by rw [hlink]) (fun hv => ?_)
      (fun hl' => by rw [hin, update_of_ne hl']) (backOf_push_of_ne hcr hc)
    rw [hin, update_self, hq, lane_append, lane_append, lane_cons_of_ne _ (Ne.symm hv)]
  -- it is the only one of its channel in the queue
  obtain ⟨wb, -, hbusy⟩ := h.inv.busy (c := (l, f.vc)) (Or.inr (Or.inr (Or.inl (ne_nil_of_mem hmem))))
  have hone := (hbusy.unstall hx hmem).1
  rw [hbuf] at hone
  have hnil : lane f.vc pre = [] ∧ lane f.vc post = [] := by
    have := congrArg length hone
    simp only [length_append, length_cons, length_nil] at this
    exact ⟨eq_nil_of_length_eq_zero (by omega), eq_nil_of_length_eq_zero (by omega)⟩
  have hthis : view net s'.data (l, f.vc) = { view net s.data (l, f.vc) with
      buf := []
      back := (view net s.data (l, f.vc)).back ++ [true] } := by
    have h1 : lane f.vc (s'.data.inPort l).stallQueue = [] := by simp_all
    have h2 : lane f.vc (wireOf net s'.data l) = lane f.vc (wireOf net s.data l) := hwire (l, f.vc)
    simp only [view_ni hx, hi.pendOf_eq, hi.senderVc_eq, h1, h2, backOf_push_self hcr]
  obtain ⟨wc, hw, htok, ht, hinv⟩ := h.inv.unstall hx hmem hthis hother
  refine ⟨wc, hw, htok, ht, hi.flow h hw hinv rfl rfl (Nat.le_succ _) fun j hj => ?_⟩
  rcases Nat.lt_succ_iff_lt_or_eq.mp hj with hj | rfl
  · exact Or.inl hj
  · exact Or.inr ⟨(n, f), by rw [hrec]; exact mem_append_right _ (mem_singleton_self _), htok⟩

/-! ### Any move -/

lemma InputSide.setNi {x : NiState} {σ : Sched}
    (hout : x.outVcState = (s.data.ni n).outVcState) (hvcs : x.niOutVcs = (s.data.ni n).niOutVcs)
    (hni : d.ni = update s.data.ni n x) (hv : d.virtualChannels = s.data.virtualChannels)
    (ho : d.outVcState = s.data.outVcState) (hc : d.created = s.data.created)
    (hid : d.nextPacketId = s.data.nextPacketId) (hs : d.switchBuffers = s.data.switchBuffers)
    (hr : ∀ e ∈ s.data.received, e ∈ d.received) : InputSide s ⟨s.now, d, σ⟩ where
  now := rfl
  vcs := hv
  out := ho
  niOut := fun m => by
    dsimp only
    by_cases hm : m = n
    · rw [hni, hm, update_self, hout]
    · rw [hni, update_of_ne hm]
  niVcs := fun m => by
    dsimp only
    by_cases hm : m = n
    · rw [hni, hm, update_self, hvcs]
    · rw [hni, update_of_ne hm]
  created := hc
  nextPacketId := hid
  switch := hs
  received := fun _ ⟨e, he, ht⟩ => ⟨e, hr e he, ht⟩

section

variable (h : Flow net s w) (hl : l ∈ net.inLinks (.ni n)) (hbuf : (s.data.networkLink l).linkBuffer = f :: rest)
include h hl hbuf

lemma Flow.absorb (htail : f.isTail = false) : ∃ wc, w (l, f.vc) = some wc ∧ tok f = (wc.pkt, wc.left) ∧
      Flow net (absorb n l { f with dequeueTime := s.now } { s with data := s.data.popLink l rest })
        (Function.update w (l, f.vc) (some { wc with rcvd := wc.rcvd + 1, left := wc.left + 1 })) := by
  have hi : InputSide s (NetworkInterface.absorb n l { f with dequeueTime := s.now }
      { s with data := s.data.popLink l rest }) :=
    ⟨rfl, rfl, rfl, fun _ => rfl, fun _ => rfl, rfl, rfl, rfl, fun _ ⟨e, he, ht⟩ => ⟨e, mem_append_left _ he, ht⟩⟩
  exact h.takeWith hl hbuf hi rfl (by rw [htail]; rfl) rfl (g := { f with dequeueTime := s.now }) rfl rfl

lemma Flow.eject {b : MessageBuffer} (htail : f.isTail = true)
    (hd : deliver net n l b { f with dequeueTime := s.now } { s with data := s.data.popLink l rest } = .ok s') :
    ∃ wc, w (l, f.vc) = some wc ∧ tok f = (wc.pkt, wc.left) ∧
      Flow net s' (Function.update w (l, f.vc) (some { wc with rcvd := wc.rcvd + 1, left := wc.left + 1 })) := by
  obtain ⟨b', t, draws, -, hs'⟩ := deliver_eq hd
  have hi : InputSide s s' := by
    rw [hs']
    refine InputSide.setNi (n := n) (x := { s.data.ni n with
      outNode := Function.update (s.data.ni n).outNode f.vnet (some b') }) ?_ ?_ ?_ ?_ ?_ ?_ ?_ ?_ ?_
    all_goals first | rfl | exact fun _ => mem_append_left _
  exact h.takeWith hl hbuf hi (by rw [hs']; rfl) (by rw [hs', htail]; rfl) (by rw [hs']; rfl)
    (g := { f with dequeueTime := s.now }) rfl (by rw [hs']; rfl)

lemma Flow.stall (htail : f.isTail = true) : ∃ wc, w (l, f.vc) = some wc ∧ tok f = (wc.pkt, wc.rcvd) ∧
      Flow net ⟨s.now, stall n l { f with dequeueTime := s.now } (s.data.popLink l rest), s.sched⟩
        (Function.update w (l, f.vc) (some { wc with rcvd := wc.rcvd + 1 })) := by
  have hi : InputSide s
      ⟨s.now, NetworkInterface.stall n l { f with dequeueTime := s.now } (s.data.popLink l rest), s.sched⟩ := by
    refine InputSide.setNi (n := n) (x := { s.data.ni n with
      stallCount := Function.update (s.data.ni n).stallCount f.vnet ((s.data.ni n).stallCount f.vnet + 1)
      outNode := Function.update (s.data.ni n).outNode f.vnet
        (((s.data.ni n).outNode f.vnet).map (·.registerDequeueCallback)) }) ?_ ?_ ?_ ?_ ?_ ?_ ?_ ?_ ?_
    all_goals first | rfl | exact fun _ => id
  exact h.stallWith hl hbuf htail hi rfl rfl (g := { f with dequeueTime := s.now }) rfl rfl rfl

end

lemma Flow.unstall (h : Flow net s w) {pre post : List Flit} {b : MessageBuffer}
    (hl : l ∈ net.inLinks (.ni n)) (hq : (s.data.inPort l).stallQueue = pre ++ f :: post)
    (hd : deliver net n l b f s = .ok s') :
    ∃ wc, w (l, f.vc) = some wc ∧ tok f = (wc.pkt, wc.left) ∧ wc.left + 1 = wc.pkt.size ∧
      Flow net { s' with data := (unstall n f.vnet s'.data).setInPort l ⟨pre ++ post, true⟩ }
        (Function.update w (l, f.vc) (some { wc with left := wc.left + 1 })) := by
  obtain ⟨b', t, draws, -, hs'⟩ := deliver_eq hd
  have hd' : (NetworkInterface.unstall n f.vnet s'.data).setInPort l ⟨pre ++ post, true⟩ = { s.data with
      ni := ((NetworkInterface.unstall n f.vnet s'.data).setInPort l ⟨pre ++ post, true⟩).ni
      creditLink := Function.update s.data.creditLink l
        { s.data.creditLink l with srcQueue := (s.data.creditLink l).srcQueue ++ [⟨f.vc, true, s.now⟩] }
      inPort := Function.update s.data.inPort l ⟨pre ++ post, true⟩
      timeDraws := draws
      received := s.data.received ++ [(n, f)]
      enqueued := s.data.enqueued ++ [(n, f.vnet, f)] } := by
    rw [hs']
    rfl
  have hni : ∀ m, (((NetworkInterface.unstall n f.vnet s'.data).setInPort l ⟨pre ++ post, true⟩).ni m).outVcState =
      (s.data.ni m).outVcState ∧
      (((NetworkInterface.unstall n f.vnet s'.data).setInPort l ⟨pre ++ post, true⟩).ni m).niOutVcs =
      (s.data.ni m).niOutVcs := by
    intro m
    rw [hs']
    by_cases hm : m = n
    · subst hm
      simp [unstall, setNi, setInPort, pushCredit, setCredit]
    · simp [NetworkInterface.unstall, setNi, setInPort, pushCredit, setCredit, update_of_ne hm]
  generalize (NetworkInterface.unstall n f.vnet s'.data).setInPort l ⟨pre ++ post, true⟩ = d' at hd' hni
  have hi : InputSide s { s' with data := d' } := by
    refine ⟨by rw [hs'], by rw [hd'], by rw [hd'], fun m => (hni m).1, fun m => (hni m).2, by rw [hd'], by rw [hd'],
      by rw [hd'], ?_⟩
    rintro x ⟨e, he, ht⟩
    refine ⟨e, ?_, ht⟩
    rw [hd']
    exact mem_append_left _ he
  exact h.unstallWith hl hq hi (by rw [hd']) (by rw [hd']) (by rw [hd']) (by rw [hd'])

lemma Flow.move (h : Flow net s w) {self : ConsumerId} {a : Label} (hm : Move net self s a s') :
    ∃ w', Flow net s' w' := by
  cases hm with
  | sched hσ => exact ⟨w, h.later le_rfl _⟩
  | requests pr wi hr => exact ⟨w, h.same (h.records rfl rfl rfl (fun _ => id) rfl (fun _ => rfl) fun _ => rfl) rfl rfl⟩
  | arrive hr hl hbuf htime hvc hσ hsa hmore =>
    obtain ⟨wc, -, -, hf⟩ := h.arrive hl hbuf hvc _ _
    exact ⟨_, hf⟩
  | refund hr hl hbuf htime ho hσ hmore =>
    obtain ⟨wc, -, hf⟩ := h.refund hl hbuf ho _
    exact ⟨_, hf⟩
  | forward hr hli hlo hreq hv hsw hσ hcredit =>
    obtain ⟨-, -, wc, -, -, -, hf⟩ := h.forward hli hlo hreq hv hsw _
    exact ⟨_, hf⟩
  | traverse hr hli hlo hbuf hout hsw hσ hlink => exact ⟨w, h.traverse hli hlo hbuf hout hsw _⟩
  | link hl hself hbuf htime hσ hread hmore => exact ⟨w, h.link hbuf _⟩
  | creditLink hl hself hbuf htime hσ hread hmore => exact ⟨w, h.creditLink hbuf _⟩
  | @interface n x hn hvc hbuf htime hstall hnode =>
    have hi : InputSide s { s with data := s.data.setNi n x } := by
      refine InputSide.setNi hvc hbuf ?_ ?_ ?_ ?_ ?_ ?_ ?_
      all_goals first | rfl | exact fun _ => id
    exact ⟨w, hi.same h rfl rfl fun _ => rfl⟩
  | create hn hvnet hport hvc hidle hd => grind [Flow.create]
  | send hn hmay hbuf ho hport hσ hlink =>
    obtain ⟨wc, -, -, hf⟩ := h.send hbuf ho hport _
    exact ⟨_, hf⟩
  | @flag l b =>
    have hi : InputSide s
        { s with data := s.data.setInPort l { s.data.inPort l with messageEnqueuedThisCycle := b } } :=
      ⟨rfl, rfl, rfl, fun _ => rfl, fun _ => rfl, rfl, rfl, rfl, fun _ => id⟩
    refine ⟨w, hi.same h rfl rfl fun l' => ?_⟩
    by_cases hl : l' = l
    · simp [setInPort, hl]
    · simp [setInPort, update_of_ne hl]
  | absorb hn hl hbuf htime htail => grind [Flow.absorb]
  | eject hn hl hbuf htime htail hnode hslot hstall hd => grind [Flow.eject]
  | stall hn hl hbuf htime htail => grind [Flow.stall]
  | unstall hn hl hq hpre hnode hslot hd => grind [Flow.unstall]
  | niRefund hn hl hbuf htime ho => grind [Flow.niRefund]

end Gem5.Garnet
