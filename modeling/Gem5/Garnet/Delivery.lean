import Gem5.Garnet.FlowControl
import Gem5.Lib.Places

/-!
# Delivery

Every flit of every packet that was made is in one buffer, or has left the network, and it leaves at the
interface it was sent to. The buffers are places in the sense of `Gem5.Lib.Places`; a move takes at most one flit from
one place to another, or puts the flits of a new packet into the buffer where they wait. A message is put into the
protocol's buffer when the tail flit of its packet leaves, which happens once.
-/

namespace Gem5.Garnet

open Sim Ruby Lib Function List NetworkInterface Net Data

/-! ### Places -/

inductive Place where
  | niOutVc (n v : ℕ)
  /-- The buffer a link reads from: `outBuffer` of an output unit or `outFlitQueue` of an interface. -/
  | srcQueue (l : ℕ)
  | linkBuffer (l : ℕ)
  | inputVc (l u : ℕ)
  | switchBuffer (l : ℕ)
  | stallQueue (l : ℕ)
  /-- It has left the network. -/
  | received
  deriving DecidableEq

def flitsAt (d : Data) : Place → List Flit
  | .niOutVc n v => (d.ni n).niOutVcs v
  | .srcQueue l => (d.networkLink l).srcQueue
  | .linkBuffer l => (d.networkLink l).linkBuffer
  | .inputVc l u => (d.virtualChannels (l, u)).inputBuffer
  | .switchBuffer l => d.switchBuffers l
  | .stallQueue l => (d.inPort l).stallQueue
  | .received => d.received.map Prod.snd

/-- The same as packets and numbers. -/
def tokensAt (d : Data) (i : Place) : List (Packet × ℕ) := (flitsAt d i).map tok

section FlitsAt

variable {d : Data}

lemma flitsAt_setVc (c : Chan) (v : VirtualChannel) :
    flitsAt (d.setVc c v) = update (flitsAt d) (.inputVc c.1 c.2) v.inputBuffer := by
  funext k
  cases k with
  | inputVc l u =>
    by_cases h : (l, u) = c
    · subst h
      simp [flitsAt, setVc]
    · have hk : Place.inputVc l u ≠ .inputVc c.1 c.2 := fun hk => h (by cases hk; rfl)
      simp [flitsAt, setVc, update_of_ne h, update_of_ne hk]
  | _ => rfl

lemma flitsAt_setSwitch (l : ℕ) (b : List Flit) :
    flitsAt (d.setSwitch l b) = update (flitsAt d) (.switchBuffer l) b := by
  funext k
  cases k with
  | switchBuffer m => by_cases h : m = l <;> simp [flitsAt, setSwitch, h]
  | _ => rfl

lemma flitsAt_setInPort (l : ℕ) (p : InputPort) :
    flitsAt (d.setInPort l p) = update (flitsAt d) (.stallQueue l) p.stallQueue := by
  funext k
  cases k with
  | stallQueue m => by_cases h : m = l <;> simp [flitsAt, setInPort, h]
  | _ => rfl

lemma flitsAt_setLink (l : ℕ) (b : LinkState Flit) : flitsAt (d.setLink l b) =
    update (update (flitsAt d) (.srcQueue l) b.srcQueue) (.linkBuffer l) b.linkBuffer := by
  funext k
  cases k with
  | srcQueue m => by_cases h : m = l <;> simp [flitsAt, setLink, h]
  | linkBuffer m => by_cases h : m = l <;> simp [flitsAt, setLink, h]
  | _ => rfl

lemma flitsAt_pushFlit (l : ℕ) (f : Flit) :
    flitsAt (d.pushFlit l f) = update (flitsAt d) (.srcQueue l) (flitsAt d (.srcQueue l) ++ [f]) := by
  rw [pushFlit, flitsAt_setLink]
  exact update_eq_self_iff.mpr (by simp [flitsAt])

lemma flitsAt_popLink (l : ℕ) (rest : List Flit) :
    flitsAt (d.popLink l rest) = update (flitsAt d) (.linkBuffer l) rest := by
  rw [popLink, flitsAt_setLink]
  congr 1
  exact update_eq_self (Place.srcQueue l) (flitsAt d)

variable {n : ℕ}

lemma flitsAt_setNi {v : ℕ} {x : NiState} {q : List Flit} (h : x.niOutVcs = update (d.ni n).niOutVcs v q) :
    flitsAt (d.setNi n x) = update (flitsAt d) (.niOutVc n v) q := by
  funext k
  cases k with
  | niOutVc m u =>
    by_cases hm : m = n
    · by_cases hu : u = v <;> simp [flitsAt, setNi, h, hm, hu]
    · simp [flitsAt, setNi, hm]
  | _ => rfl

lemma flitsAt_setNi_of_eq {x : NiState} (h : x.niOutVcs = (d.ni n).niOutVcs) : flitsAt (d.setNi n x) = flitsAt d := by
  rw [flitsAt_setNi (v := 0) (q := (d.ni n).niOutVcs 0) (by rw [h, update_eq_self])]
  exact update_eq_self (Place.niOutVc n 0) (flitsAt d)

lemma flitsAt_congr {d' : Data} (hni : d'.ni = d.ni) (hl : d'.networkLink = d.networkLink)
    (hv : d'.virtualChannels = d.virtualChannels) (hs : d'.switchBuffers = d.switchBuffers) (hp : d'.inPort = d.inPort)
    (hr : d'.received = d.received) : flitsAt d' = flitsAt d := by
  funext k
  cases k <;> simp only [flitsAt, hni, hl, hv, hs, hp, hr]

lemma flitsAt_absorb (n l : ℕ) (f : Flit) (s : State) : flitsAt (absorb n l f s).data =
    update (flitsAt s.data) .received (flitsAt s.data .received ++ [f]) := by
  funext k
  cases k with
  | received => simp [flitsAt, absorb, pushCredit, setCredit]
  | _ => rfl

lemma flitsAt_deliver {l : ℕ} {b : MessageBuffer} {f : Flit}
    (h : deliver net n l b f s = .ok s') : s'.data.created = s.data.created ∧
      flitsAt s'.data = update (flitsAt s.data) .received (flitsAt s.data .received ++ [f]) := by
  obtain ⟨b', t, draws, -, rfl⟩ := deliver_eq h
  refine ⟨rfl, funext fun k => ?_⟩
  cases k with
  | received => simp [flitsAt]
  | niOutVc m v => by_cases hm : m = n <;> simp [flitsAt, pushCredit, setCredit, setNi, hm]
  | _ => rfl

end FlitsAt

inductive Carried (d d' : Data) : Prop where
  | same (hc : d'.created = d.created) (h : flitsAt d' = flitsAt d)
  /-- One goes to another place. -/
  | moved {i j : Place} {f g : Flit} {pre post : List Flit} (hc : d'.created = d.created) (hne : i ≠ j)
      (hi : flitsAt d i = pre ++ f :: post) (hg : tok g = tok f)
      (h : flitsAt d' = update (update (flitsAt d) i (pre ++ post)) j (flitsAt d j ++ [g]))
  /-- Those of a new packet are made. -/
  | made {i : Place} {p : Packet} {fs : List Flit} (hp : p.id = d.nextPacketId) (hc : d'.created = d.created ++ [p])
      (hfs : fs.map tok = Wormhole.seg p 0 p.size) (h : flitsAt d' = update (flitsAt d) i (flitsAt d i ++ fs))

variable {net : Net} {s s' : State} {w : Worms} {self : ConsumerId} {a : Label}

variable {d d' : Data} {l : ℕ} {p : Packet} {x : Packet × ℕ}

lemma Carried.front {i j : Place} {f g : Flit} {rest : List Flit} (hc : d'.created = d.created) (hne : i ≠ j)
    (hi : flitsAt d i = f :: rest) (hg : tok g = tok f)
    (h : flitsAt d' = update (update (flitsAt d) i rest) j (flitsAt d j ++ [g])) : Carried d d' :=
  .moved hc hne (show flitsAt d i = [] ++ f :: rest from hi) hg h

lemma Entered.inputBuffer_eq {now r : ℕ} {f : Flit} {vc vc' : VirtualChannel} (h : Entered net now r l f vc vc') :
    vc'.inputBuffer = vc.inputBuffer := by
  cases h <;> rfl

lemma Move.carried (h : Move net self s a s') : Carried s.data s'.data := by
  cases h with
  | sched | requests | refund | creditLink => exact .same rfl (flitsAt_congr rfl rfl rfl rfl rfl rfl)
  | niRefund =>
    refine .same rfl (Eq.trans (flitsAt_setNi_of_eq ?_) ?_)
    · rfl
    · exact flitsAt_congr rfl rfl rfl rfl rfl rfl
  | interface _ _ hbuf => exact .same rfl (flitsAt_setNi_of_eq hbuf)
  | @flag l =>
    refine .same rfl ?_
    rw [flitsAt_setInPort]
    exact update_eq_self (Place.stallQueue l) (flitsAt s.data)
  | @arrive r l f rest vc σ _ _ hbuf _ hvc =>
    refine .front (i := .linkBuffer l) (j := .inputVc l f.vc)
      (g := f.incrementHops.advanceStage .sa (InputUnit.saTime net s.now r)) rfl (by simp) hbuf rfl ?_
    rw [Data.arrive, flitsAt_setVc, ← Data.popLink, flitsAt_popLink]
    dsimp only
    rw [hvc.inputBuffer_eq]
    rfl
  | @forward r li u lo v f rest σ _ _ _ hreq =>
    refine .front (i := .inputVc li u) (j := .switchBuffer li)
      (g := { f with outport := some lo, vc := v }.advanceStage .st s.now) rfl (by simp) hreq.buf rfl ?_
    have hvc : ∀ vc : VirtualChannel, ((if f.isTail then { vc with inputBuffer := rest }.setIdle s.now
        else { vc with inputBuffer := rest, outputVc := some v } : VirtualChannel)).inputBuffer = rest := fun vc => by
      split_ifs <;> rfl
    refine Eq.trans (flitsAt_congr (d := setVc _ _ (setSwitch _ _ s.data)) rfl rfl rfl rfl rfl rfl) ?_
    rw [flitsAt_setVc, flitsAt_setSwitch, hvc, update_comm (by simp)]
    rfl
  | @traverse r li lo f rest σ _ _ _ hbuf =>
    refine .front (i := .switchBuffer li) (j := .srcQueue lo) rfl (by simp) hbuf
      (g := { f.advanceStage .lt (clockEdge (net.period (.router r)) s.now 1) with
        time := clockEdge (net.period (.router r)) s.now 1 }) rfl ?_
    rw [Data.traverse, flitsAt_setSwitch, flitsAt_pushFlit, update_comm (by simp)]
  | @link l f rest σ _ _ hbuf =>
    refine .front (i := .srcQueue l) (j := .linkBuffer l) rfl (by simp) hbuf
      (g := { f with time := clockEdge (net.period self) s.now (net.link l).latency }) rfl ?_
    rw [flitsAt_setLink]
    rfl
  | @create n vnet port vc dest msg d _ _ _ _ _ hd =>
    obtain ⟨destRouter, fs, -, hfs, -, rfl⟩ := makePacket_eq hd
    refine .made (i := .niOutVc n vc) (p := packetOf net s.data n vnet port dest destRouter msg) rfl rfl hfs ?_
    refine Eq.trans (flitsAt_congr (d := s.data.setNi n _) rfl rfl rfl rfl rfl rfl) ?_
    exact flitsAt_setNi rfl
  | @send n l port vc f rest o σ _ _ hbuf =>
    refine .front (i := .niOutVc n vc) (j := .srcQueue port) rfl (by simp) hbuf
      (g := { f with time := clockEdge (net.period (.ni n)) s.now 1 }) rfl ?_
    refine Eq.trans (flitsAt_pushFlit ..) ?_
    have : ∀ x, flitsAt { s.data.setNi n x with vcRoundRobin := update s.data.vcRoundRobin l vc } =
        flitsAt (s.data.setNi n x) := fun x => flitsAt_congr rfl rfl rfl rfl rfl rfl
    rw [this, flitsAt_setNi rfl]
    rfl
  | @absorb n l f rest _ _ hbuf =>
    refine .front (i := .linkBuffer l) (j := .received) rfl (by simp) hbuf
      (g := { f with dequeueTime := s.now }) rfl ?_
    rw [flitsAt_absorb, flitsAt_popLink]
    rfl
  | @eject n l f rest b _ _ _ hbuf _ _ _ _ _ hd =>
    obtain ⟨hc, h⟩ := flitsAt_deliver hd
    refine .front (i := .linkBuffer l) (j := .received) hc (by simp) hbuf
      (g := { f with dequeueTime := s.now }) rfl ?_
    rw [h, flitsAt_popLink]
    rfl
  | @stall n l f rest _ _ hbuf =>
    refine .front (i := .linkBuffer l) (j := .stallQueue l) rfl (by simp) hbuf
      (g := { f with dequeueTime := s.now }) rfl ?_
    refine Eq.trans (flitsAt_setNi_of_eq ?_) ?_
    · rfl
    · rw [flitsAt_setInPort, flitsAt_popLink]
      rfl
  | @unstall n l f pre post b s1 _ _ hq _ _ _ hd =>
    obtain ⟨hc, h⟩ := flitsAt_deliver hd
    refine .moved (i := .stallQueue l) (j := .received) hc (by simp) hq (g := f) rfl ?_
    have hun : flitsAt (NetworkInterface.unstall n f.vnet s1.data) = flitsAt s1.data := flitsAt_setNi_of_eq rfl
    rw [flitsAt_setInPort, hun, h, update_comm (by simp)]

/-! ### No flit is lost or duplicated -/

/-- Every flit that was made is in one place, and there are no others. -/
structure Accounted (d : Data) : Prop where
  known : ∀ i, ∀ x ∈ tokensAt d i, x.1 ∈ d.created ∧ x.2 < x.1.size
  once : ∀ p ∈ d.created, ∀ k < p.size, Once (tokensAt d) (p, k)

lemma mem_seg : x ∈ Wormhole.seg p 0 p.size ↔ x.1 = p ∧ x.2 < p.size := by grind [Wormhole.seg, mem_slice]

lemma nodup_seg (p : Packet) : (Wormhole.seg p 0 p.size).Nodup := by
  refine List.Nodup.map (fun i j hij => ?_) nodup_range'
  exact (Prod.mk.inj hij).2

lemma Accounted.carried (h : Accounted d) (hid : ∀ p ∈ d.created, p.id < d.nextPacketId)
    (hc : Carried d d') : Accounted d' := by
  cases hc with
  | same hc hf =>
    have ht : tokensAt d' = tokensAt d := funext fun i => by rw [tokensAt, hf, tokensAt]
    exact ⟨by rw [ht, hc]; exact h.known, by rw [ht, hc]; exact h.once⟩
  | @moved i j f g pre post hc hne hi hg hf =>
    have hti : tokensAt d i = pre.map tok ++ tok f :: post.map tok := by rw [tokensAt, hi]; simp
    have hti' : tokensAt d' i = pre.map tok ++ post.map tok := by
      rw [tokensAt, hf, update_of_ne hne, update_self, map_append]
    have htj' : tokensAt d' j = tokensAt d j ++ [tok f] := by
      rw [tokensAt, hf, update_self, map_append, map_singleton, hg, tokensAt]
    have hto : ∀ k, k ≠ i → k ≠ j → tokensAt d' k = tokensAt d k := fun k h1 h2 => by
      rw [tokensAt, hf, update_of_ne h2, update_of_ne h1, tokensAt]
    refine ⟨fun k x hx => ?_, fun p hp n hn => ?_⟩
    · rw [hc]
      by_cases hki : k = i
      · grind [Accounted.known]
      · by_cases hkj : k = j
        · grind [Accounted.known]
        · exact h.known k x (by rwa [hto k hki hkj] at hx)
    · rw [hc] at hp
      exact (h.once p hp n hn).move hne hti hti' htj' hto
  | @made i q fs hq hc hfs hf =>
    have hti' : tokensAt d' i = tokensAt d i ++ Wormhole.seg q 0 q.size := by
      rw [tokensAt, hf, update_self, map_append, hfs, tokensAt]
    have hto : ∀ k, k ≠ i → tokensAt d' k = tokensAt d k := fun k hk => by
      rw [tokensAt, hf, update_of_ne hk, tokensAt]
    -- no flit of the new packet is anywhere
    have hnew : ∀ k x, x.1 = q → x ∉ tokensAt d k := fun k x hx hmem => by grind [Accounted.known]
    refine ⟨fun k x hx => ?_, fun p hp n hn => ?_⟩
    · rw [hc]
      by_cases hk : k = i
      · grind [Accounted.known, mem_seg]
      grind [Accounted.known]
    · rw [hc] at hp
      rcases mem_append.mp hp with hp | hp
      · refine (h.once p hp n hn).append (fun hmem => ?_) hti' hto
        have hpq : p = q := (mem_seg.mp hmem).1
        have := hid p hp
        rw [hpq, hq] at this
        exact lt_irrefl _ this
      · rw [mem_singleton.mp hp] at hn ⊢
        exact Once.new (nodup_seg q) (mem_seg.mpr ⟨rfl, hn⟩) (fun k => hnew k _ rfl) hti' hto

/-! ### Where flits leave -/

lemma PathAt.lt_length {ρ : RouteInfo} {k : ℕ} (h : PathAt net ρ k l) : l < net.links.length := by
  cases h with
  | zero h => exact (mem_outLinks.mp (outportForVnet_spec h).1).1
  | succ _ _ hr => exact (mem_outLinks.mp hr.mem_outLinks).1

lemma Net.router_lt {r : ℕ} (hl : l < net.links.length) (hd : (net.link l).dst = .router r) : r < net.numRouters := by
  have := (net.link_ends _ (link_mem hl)).2
  rw [hd] at this
  exact of_decide_eq_true this

lemma PathAt.exit (ht : IsTopology net) {k n : ℕ} (hp : Made net p) (h : PathAt net p.route k l)
    (hn : (net.link l).dst = .ni n) : n = p.route.destNi := by
  obtain ⟨m, port, destId, destRouter, -, hdr, hroute⟩ := hp
  have hlt : p.route.destRouter < net.numRouters := by
    unfold getRouterId at hdr
    obtain ⟨l', hl', hdr⟩ := Option.map_eq_some_iff.mp hdr
    have hmem := (outportForVnet_spec hl').1
    obtain ⟨r, hr⟩ := dst_of_outLinks_ni hmem
    have : p.route.destRouter = r := by rw [hroute, ← hdr]; simp [routeTo, routerId, hr]
    rw [this]
    exact router_lt (mem_outLinks.mp hmem).1 hr
  cases h with
  | zero h =>
    obtain ⟨r, hr⟩ := dst_of_outLinks_ni (outportForVnet_spec h).1
    rw [hr] at hn
    cases hn
  | succ h hd hr =>
    have hmem := hr.exit ht (router_lt h.lt_length hd) hlt hn
    rw [hroute] at hmem ⊢
    exact mem_singleton.mp hmem

/-- What a move does to the history of deliveries: nothing, or a flit leaves, and its message is put into the protocol's
buffer if it is the last of its packet. -/
lemma Flow.leaves (h : Flow net s w) (hm : Move net self s a s') :
    (s'.data.received = s.data.received ∧ s'.data.enqueued = s.data.enqueued) ∨
      ∃ n l f wc, (net.link l).dst = .ni n ∧ w (l, f.vc) = some wc ∧ tok f = (wc.pkt, wc.left) ∧ f.id < f.size ∧
        s'.data.received = s.data.received ++ [(n, f)] ∧
        s'.data.enqueued = s.data.enqueued ++ if f.isTail then [(n, f.vnet, f)] else [] := by
  have hlt : ∀ {c : Chan} {wc : Wormhole.Worm Packet} {k : ℕ} {f : Flit} {s' : State}, tok f = (wc.pkt, wc.left) →
      Flow net s' (Function.update w c (some { wc with rcvd := k, left := wc.left + 1 })) → f.id < f.size := by
    intro c wc k f s' htok hf
    have hb := hf.inv.holds c
    rw [update_self] at hb
    have h1 := hb.left_le
    have h2 := hb.rcvd_le
    have h3 : _ ≤ wc.pkt.size := hb.sent_le
    have hid : f.id = wc.left := (Prod.mk.inj htok).2
    have hsize : f.size = wc.pkt.size := congrArg Packet.size (Prod.mk.inj htok).1
    dsimp only at h1 h2 h3
    omega
  cases hm with
  | @absorb n l f rest _ hl hbuf _ htail =>
    obtain ⟨wc, hw, htok, hf⟩ := h.absorb hl hbuf htail
    refine Or.inr ⟨n, l, { f with dequeueTime := s.now }, wc, (mem_inLinks.mp hl).2, hw, htok, hlt htok hf, rfl, ?_⟩
    have : ({ f with dequeueTime := s.now } : Flit).isTail = false := htail
    rw [this]
    exact (append_nil _).symm
  | @eject n l f rest b _ _ hl hbuf _ htail _ _ _ hd =>
    obtain ⟨wc, hw, htok, hf⟩ := h.eject hl hbuf htail hd
    obtain ⟨b', t, draws, -, rfl⟩ := deliver_eq hd
    refine Or.inr ⟨n, l, { f with dequeueTime := s.now }, wc, (mem_inLinks.mp hl).2, hw, htok, hlt htok hf, rfl, ?_⟩
    have : ({ f with dequeueTime := s.now } : Flit).isTail = true := htail
    rw [this]
    rfl
  | @unstall n l f pre post b s1 _ hl hq _ _ _ hd =>
    obtain ⟨wc, hw, htok, hlast, hf⟩ := h.unstall hl hq hd
    have hid := hlt htok hf
    obtain ⟨b', t, draws, -, rfl⟩ := deliver_eq hd
    refine Or.inr ⟨n, l, f, wc, (mem_inLinks.mp hl).2, hw, htok, hid, rfl, ?_⟩
    have : f.isTail = true := by
      have h1 : f.id = wc.left := (Prod.mk.inj htok).2
      have h2 : f.size = wc.pkt.size := congrArg Packet.size (Prod.mk.inj htok).1
      rw [Flit.isTail_iff hid]
      omega
    rw [this]
    rfl
  | create _ _ _ _ _ hd =>
    obtain ⟨_, _, -, -, -, rfl⟩ := makePacket_eq hd
    exact Or.inl ⟨rfl, rfl⟩
  | _ => exact Or.inl ⟨rfl, rfl⟩

structure History (d : Data) : Prop where
  /-- Flits leave where they were sent to. -/
  home : ∀ e ∈ d.received, e.1 = e.2.route.destNi
  /-- The messages put into the protocol's buffers are those of the tail flits that left. -/
  enqueued : d.enqueued = (d.received.filter fun e => e.2.isTail).map fun e => (e.1, e.2.vnet, e.2)
  /-- With a tail flit all flits of its packet have left. -/
  complete : ∀ e ∈ d.received, e.2.isTail = true → ∀ k < e.2.size, Received d (e.2.packet, k)

lemma Received.mono (h : Received d x) (hd : ∀ e ∈ d.received, e ∈ d'.received) : Received d' x := by
  obtain ⟨e, he, hx⟩ := h
  exact ⟨e, hd e he, hx⟩

lemma Flow.history (h : Flow net s w) (ht : IsTopology net) (hh : History s.data) (hm : Move net self s a s') :
    History s'.data := by
  rcases h.leaves hm with ⟨hr, he⟩ | ⟨n, l, f, wc, hdst, hw, htok, hid, hr, he⟩
  · refine ⟨by rw [hr]; exact hh.home, by rw [hr, he]; exact hh.enqueued, fun e hmem htail k hk => ?_⟩
    rw [hr] at hmem
    exact (hh.complete e hmem htail k hk).mono (by rw [hr]; exact fun _ => id)
  · have hleg := h.legal _ wc hw
    have hpkt : f.packet = wc.pkt := (Prod.mk.inj htok).1
    have hn : n = f.route.destNi := by
      rw [hleg.path.exit ht (h.made _ hleg.created) hdst, ← hpkt]
      rfl
    have hmono : ∀ x, Received s.data x → Received s'.data x := fun x hx =>
      hx.mono fun e hmem => by rw [hr]; exact mem_append_left _ hmem
    refine ⟨fun e hmem => ?_, ?_, fun e hmem htail k hk => ?_⟩
    · grind [History.home]
    · grind [History.enqueued]
    · rw [hr] at hmem
      rcases mem_append.mp hmem with hmem | hmem
      · exact hmono _ (hh.complete e hmem htail k hk)
      · -- the flits before the tail have left through the same channel
        rw [mem_singleton.mp hmem] at htail hk ⊢
        dsimp only at htail hk ⊢
        have hlast := (Flit.isTail_iff hid).mp htail
        have hleft : f.id = wc.left := (Prod.mk.inj htok).2
        by_cases hlt : k < wc.left
        · rw [hpkt]
          exact hmono _ (h.received _ wc k (isExit_of_ni hdst) hw hlt)
        · refine ⟨(n, f), by rw [hr]; simp, ?_⟩
          rw [show k = f.id by omega]
          rfl

/-! ### Runs -/

lemma accounted_init (net : Net) : Accounted (init net) where
  known := fun i x hx => by cases i <;> cases hx
  once := fun p hp => by cases hp

lemma history_init (net : Net) : History (init net) where
  home := fun e he => by cases he
  enqueued := rfl
  complete := fun e he => by cases he

lemma Moves.delivery {tr : List Label} (ht : IsTopology net) (hm : Moves net self s tr s')
    (h : (∃ w, Flow net s w) ∧ Accounted s.data ∧ History s.data) :
    (∃ w, Flow net s' w) ∧ Accounted s'.data ∧ History s'.data := by
  refine Moves.invariant (I := fun s => (∃ w, Flow net s w) ∧ Accounted s.data ∧ History s.data) ?_ hm h
  rintro s a s' hm ⟨⟨w, hw⟩, ha, hh⟩
  exact ⟨hw.move hm, ha.carried (fun p hp => hw.id_lt hp) hm.carried, hw.history ht hh hm⟩

lemma FreeReachable.delivery (ht : IsTopology net) (h : FreeReachable net s) : Accounted s.data ∧ History s.data := by
  induction h with
  | init => exact ⟨accounted_init net, history_init net⟩
  | wakeup c hc hs0 hs ih =>
    obtain ⟨tr, hm, -⟩ := ((wakeup_spec hc hs0.sound).of_ok hs).moves
    exact (hm.delivery ht ⟨hs0.sound.flows, ih⟩).2
  | @protocol s s' n vnet op hn _ hs ih =>
    obtain ⟨x, σ, rfl, hx⟩ := protocol_eq hs
    have hvcs : x.niOutVcs = (s.data.ni n).niOutVcs := by
      rcases hx with ⟨_, _, _, _, _, _, -, -, -, rfl, -⟩ | ⟨_, _, _, -, -, rfl, -⟩ <;> rfl
    have hf : Carried s.data (s.data.setNi n x) := .same rfl (flitsAt_setNi_of_eq hvcs)
    obtain ⟨w, hw⟩ := FreeReachable.sound ‹_› |>.flows
    exact ⟨ih.1.carried (fun p hp => hw.id_lt hp) hf, ih.2.home, ih.2.enqueued, ih.2.complete⟩
  | later now σ _ hle ih => exact ih

/-! ### Exactly once -/

/-- No message of the packet has been put into a protocol buffer; its last flit is still in a buffer of the network, and
the others are, or have left. -/
structure OnTheWay (d : Data) (p : Packet) : Prop where
  not_enqueued : ∀ e ∈ d.enqueued, e.2.2.packet ≠ p
  last : 0 < p.size → ∃ i, i ≠ Place.received ∧ (p, p.size - 1) ∈ tokensAt d i

/-- All flits of the packet have left the network, and its message was put once into a protocol buffer, that of
its virtual network at its destination. -/
structure IsDelivered (d : Data) (p : Packet) : Prop where
  enqueued : ∃ f : Flit, f.packet = p ∧ f.isTail = true ∧
    (d.enqueued.filter fun e => e.2.2.packet = p) = [(p.route.destNi, p.vnet, f)]
  received : ∀ k < p.size, Received d (p, k)

lemma mem_tokensAt_received : x ∈ tokensAt d .received ↔ Received d x := by
  simp [tokensAt, flitsAt, Received]

/-- The messages of a packet that were put into protocol buffers are as many as its tail flits that left. -/
lemma length_enqueued (ha : Accounted d) (hh : History d) (hp : 0 < p.size) :
    (d.enqueued.filter fun e => e.2.2.packet = p).length = (tokensAt d .received).count (p, p.size - 1) := by
  have htail : ∀ e ∈ d.received, (decide (e.2.packet = p) && e.2.isTail) = (tok e.2 == (p, p.size - 1)) := by
    intro e he
    obtain ⟨-, hid⟩ := ha.known .received (tok e.2) (mem_tokensAt_received.mpr ⟨e, he, rfl⟩)
    rw [Bool.eq_iff_iff, Bool.and_eq_true, decide_eq_true_eq, Flit.isTail_iff hid, beq_iff_eq, tok, Prod.mk.injEq]
    refine and_congr_right fun hpk => ?_
    have : e.2.size = p.size := congrArg Packet.size hpk
    omega
  have hmap : ∀ q : ℕ × ℕ × Flit → Bool, ((d.received.filter fun e => e.2.isTail).map fun e => (e.1, e.2.vnet, e.2)).filter q =
      ((d.received.filter fun e => e.2.isTail).filter fun e => q (e.1, e.2.vnet, e.2)).map fun e => (e.1, e.2.vnet, e.2) :=
    fun q => filter_map
  rw [hh.enqueued, hmap, length_map, filter_filter, count, tokensAt, flitsAt, map_map,
    countP_map, countP_eq_length_filter]
  exact congrArg length (filter_congr htail)

lemma onTheWay_or_isDelivered (ha : Accounted d) (hh : History d) (hp : p ∈ d.created) :
    OnTheWay d p ∨ IsDelivered d p := by
  by_cases hrec : ∃ e ∈ d.enqueued, e.2.2.packet = p
  · obtain ⟨e, he, hpk⟩ := hrec
    have he' := he
    rw [hh.enqueued] at he'
    obtain ⟨⟨n, f⟩, hf, rfl⟩ := mem_map.mp he'
    obtain ⟨hf, htail⟩ := mem_filter.mp hf
    dsimp only at hpk htail he
    have hsize : f.size = p.size := congrArg Packet.size hpk
    obtain ⟨-, hid⟩ := ha.known .received (tok f) (mem_tokensAt_received.mpr ⟨(n, f), hf, rfl⟩)
    have hid : f.id < f.size := hid
    have hlast := (Flit.isTail_iff hid).mp htail
    have hmem : (p, p.size - 1) ∈ tokensAt d .received :=
      mem_tokensAt_received.mpr ⟨(n, f), hf, Prod.ext hpk (by change f.id = p.size - 1; omega)⟩
    have hone : (d.enqueued.filter fun e => e.2.2.packet = p).length = 1 := by
      rw [length_enqueued ha hh (by omega)]
      exact ((ha.once p hp (p.size - 1) (by omega)).count_eq_one hmem).1
    obtain ⟨x, hx⟩ := length_eq_one_iff.mp hone
    have hin : (n, f.vnet, f) ∈ d.enqueued.filter fun e => e.2.2.packet = p :=
      mem_filter.mpr ⟨he, by simpa using hpk⟩
    rw [hx, mem_singleton] at hin
    refine Or.inr ⟨⟨f, hpk, htail, ?_⟩, fun k hk => ?_⟩
    · have hn : n = f.route.destNi := hh.home _ hf
      rw [hx, ← hin, hn, ← hpk]
      rfl
    · rw [← hpk]
      exact hh.complete _ hf htail k (by dsimp only; omega)
  · refine Or.inl ⟨fun e he hpk => hrec ⟨e, he, hpk⟩, fun hpos => ?_⟩
    obtain ⟨i, hi, -⟩ := ha.once p hp (p.size - 1) (by omega)
    refine ⟨i, ?_, count_pos_iff.mp (by omega)⟩
    rintro rfl
    rw [← length_enqueued ha hh hpos, length_eq_one_iff] at hi
    obtain ⟨x, hx⟩ := hi
    have hmem : x ∈ d.enqueued.filter fun e => e.2.2.packet = p := by rw [hx]; simp
    grind

/-- Exactly-once delivery. In every free run of a network that routes as its topology promises, each flit of each packet
that was made is in one buffer, or has left the network, once; there are no other flits; they leave at the interface the
packet was made for; and the packet is either on its way, or it is delivered: all its flits have left, and its message
was put once into the buffer of its virtual network at its destination, when the tail flit left. -/
theorem delivered_exactly_once (ht : IsTopology net) (h : FreeReachable net s) :
    (∀ p ∈ s.data.created, ∀ k < p.size, Once (tokensAt s.data) (p, k)) ∧
      (∀ i, ∀ f ∈ flitsAt s.data i, f.packet ∈ s.data.created ∧ f.id < f.size) ∧
      (∀ e ∈ s.data.received, e.1 = e.2.route.destNi) ∧
      (s.data.enqueued = (s.data.received.filter fun e => e.2.isTail).map fun e => (e.1, e.2.vnet, e.2)) ∧
      ∀ p ∈ s.data.created, OnTheWay s.data p ∨ IsDelivered s.data p := by
  obtain ⟨ha, hh⟩ := h.delivery ht
  exact ⟨ha.once, fun i f hf => ha.known i (tok f) (mem_map_of_mem hf), hh.home, hh.enqueued,
    fun p hp => onTheWay_or_isDelivered ha hh hp⟩

lemma isTopology_star (nodes vnets vcs latency creditLatency : ℕ) (toNet fromNet : { b : MessageBuffer // b.IsNew }) :
    IsTopology (star nodes vnets vcs latency creditLatency toNet fromNet) where
  table := by
    intro l n vnet hn m hm
    by_cases hl : l < (star nodes vnets vcs latency creditLatency toNet fromNet).links.length
    · have hmem := link_mem hl
      generalize (star nodes vnets vcs latency creditLatency toNet fromNet).link l = x at hmem hn hm
      obtain ⟨i, -, hx⟩ := mem_flatMap.mp hmem
      simp only [Link.pair, mem_cons, not_mem_nil, or_false] at hx
      grind
    simp_all [link]
  mesh := fun h => by cases h

/-- The two flits of the packet go to interface `1`. -/
def sendBoth : List Action :=
  sendFirst ++ [.globalWakeup [], .advance 2, .fire (.ni 0), .fire (.networkLink 0), .globalWakeup [(0, 0)],
    .advance 3, .fire (.router 0), .fire (.networkLink 0), .globalWakeup [(0, 0)],
    .advance 4, .fire (.router 0), .fire (.creditLink 0), .fire (.networkLink 3), .globalWakeup [],
    .advance 5, .fire (.ni 0), .fire (.ni 1), .fire (.creditLink 0), .fire (.networkLink 3), .globalWakeup [],
    .advance 6, .fire (.ni 0), .fire (.ni 1)]

theorem delivered_exactly_once_sendBoth : ∃ s p, FreeReachable Net.two s ∧ p ∈ s.data.created ∧
    Once (tokensAt s.data) (p, 0) ∧ Once (tokensAt s.data) (p, 1) ∧ IsDelivered s.data p := by
  obtain ⟨s, hs, hrun⟩ := exists_reachable two sendBoth (fun s => s.data.created.any fun p =>
    p.size == 2 && s.data.enqueued.any (·.2.2.packet = p)) (by decide +kernel)
  obtain ⟨p, hp, hq⟩ := any_eq_true.mp hrun
  obtain ⟨hsize, hq⟩ := (Bool.and_eq_true _ _).mp hq
  obtain ⟨e, he, hpacket⟩ := any_eq_true.mp hq
  have hsize : p.size = 2 := eq_of_beq hsize
  have hfree := hs.free_schedOk.1
  obtain ⟨h1, -, -, -, h2⟩ := delivered_exactly_once (isTopology_star ..) hfree
  refine ⟨s, p, hfree, hp, h1 p hp 0 (by omega), h1 p hp 1 (by omega), (h2 p hp).resolve_left fun h => ?_⟩
  exact h.not_enqueued e he (of_decide_eq_true hpacket)

/-! ### In order -/

/-- A flit leaves after the flits before it in its packet. -/
def InOrder (received : List (ℕ × Flit)) : Prop :=
  ∀ pre e post, received = pre ++ e :: post → ∀ k < e.2.id, ∃ e' ∈ pre, tok e'.2 = (e.2.packet, k)

lemma Flow.inOrder (h : Flow net s w) (hs : InOrder s.data.received) (hm : Move net self s a s') :
    InOrder s'.data.received := by
  rcases h.leaves hm with ⟨hr, -⟩ | ⟨n, l, f, wc, hdst, hw, htok, -, hr, -⟩
  · rwa [hr]
  · rw [hr]
    intro pre e post heq k hk
    rcases eq_nil_or_concat post with rfl | ⟨post, x, rfl⟩
    · -- it is the next of those that leave its channel
      obtain ⟨rfl, he⟩ := append_inj' heq rfl
      cases he
      obtain ⟨hp, hid⟩ := Prod.mk.inj htok
      obtain ⟨e', he', heq'⟩ := h.received _ wc k (isExit_of_ni hdst) hw (hid ▸ hk)
      exact ⟨e', he', heq'.trans (Prod.ext hp.symm rfl)⟩
    · rw [concat_eq_append, ← cons_append, ← append_assoc] at heq
      exact hs pre e post (append_inj' heq rfl).1 k hk

/-- **The flits of a packet leave in order**: in every free run, a flit has left only if all flits before it in its packet
had left before. -/
theorem flits_leave_in_order (h : FreeReachable net s) (pre : List (ℕ × Flit)) (e : ℕ × Flit) (post : List (ℕ × Flit))
    (he : s.data.received = pre ++ e :: post) : ∀ k < e.2.id, ∃ e' ∈ pre, tok e'.2 = (e.2.packet, k) := by
  suffices hs : InOrder s.data.received from hs pre e post he
  clear he
  induction h with
  | init => exact fun pre e post he => by simp [State.init, Data.init] at he
  | wakeup c hc hs₀ hs ih =>
    obtain ⟨tr, hm, -⟩ := ((wakeup_spec hc hs₀.sound).of_ok hs).moves
    refine (hm.invariant (I := fun s => (∃ w, Flow net s w) ∧ InOrder s.data.received) ?_ ⟨hs₀.sound.flows, ih⟩).2
    rintro s a s' hm ⟨⟨w, hw⟩, hs⟩
    exact ⟨hw.move hm, hw.inOrder hs hm⟩
  | protocol n vnet op hn _ hs ih =>
    obtain ⟨x, σ, rfl, -⟩ := protocol_eq hs
    exact ih
  | later now σ _ hle ih => exact ih

theorem flits_leave_in_order_sendBoth : ∃ s e e', FreeReachable Net.two s ∧ s.data.received = [e', e] ∧ e.2.id = 1 ∧
    tok e'.2 = (e.2.packet, 0) := by
  obtain ⟨s, hs, hids⟩ := exists_reachable two sendBoth (fun s => s.data.received.map (·.2.id) == [0, 1]) (by decide +kernel)
  have hfree := hs.free_schedOk.1
  rcases hr : s.data.received with _ | ⟨e', _ | ⟨e, _ | _⟩⟩ <;> simp [hr] at hids
  obtain ⟨x, hx, htok⟩ := flits_leave_in_order hfree [e'] e [] hr 0 (by omega)
  exact ⟨s, e, e', hfree, hr, hids.2, mem_singleton.mp hx ▸ htok⟩

end Gem5.Garnet
