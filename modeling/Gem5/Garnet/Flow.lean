import Gem5.Garnet.View

/-!
# The flow of flits and credits

`Flow` is the invariant of a network: its channels keep the rules of wormhole flow control, each packet on
a channel has been made, has the channel's virtual network and is on its way as the routing units say,
and the records of senders and receivers agree with that. It is preserved by every move, so it holds
in every state of every run, whatever the order of wakeups.
-/

namespace Gem5.Garnet

open Sim Ruby Lib

/-- Which packet is on which channel. -/
abbrev Worms := Chan → Option (Wormhole.Worm Packet)

variable (net : Net)

/-- The link number `k` on the way of a packet with this route. -/
inductive PathAt (ρ : RouteInfo) : ℕ → ℕ → Prop where
  | zero {l : ℕ} (h : net.outportForVnet ρ.srcNi ρ.vnet = some l) : PathAt ρ 0 l
  | succ {k l r lo : ℕ} (h : PathAt ρ k l) (hd : (net.link l).dst = .router r) (hr : Routed net r ρ l lo) :
      PathAt ρ (k + 1) lo

structure Legal (d : Data) (c : Chan) (w : Wormhole.Worm Packet) : Prop where
  link : c.1 < net.links.length
  vnet : w.pkt.vnet = vnetOf net c
  vnet_lt : w.pkt.vnet < net.virtualNetworks
  created : w.pkt ∈ d.created
  path : PathAt net w.pkt.route w.hop c.1
  /-- An interface sends it on the port of its virtual network. -/
  entry : ∀ n, (net.link c.1).src = .ni n → net.outportForVnet n w.pkt.vnet = some c.1

/-- The record of an input virtual channel. -/
structure VcOk (now : ℕ) (c : Chan) (vc : VirtualChannel) : Prop where
  time : vc.vcState.2 ≤ now
  state : vc.vcState.1 = .idle ∧ vc.outputPort = none ∧ vc.outputVc = none ∨
    vc.vcState.1 = .active ∧ ∃ r lo, (net.link c.1).dst = .router r ∧ lo ∈ net.outLinks (.router r) ∧
      vc.outputPort = some lo

/-- The record of an output virtual channel. -/
structure OutOk (now vnet : ℕ) (o : OutVcState) : Prop where
  time : o.time ≤ now
  state : o.vcState = .idle ∨ o.vcState = .active
  max : o.maxCreditCount = net.buffersPerVc vnet

def Received (d : Data) (x : Packet × ℕ) : Prop := ∃ e ∈ d.received, tok e.2 = x

/-- A packet as `flitisizeMessage` makes it. -/
def Made (p : Packet) : Prop :=
  ∃ n port destId destRouter, net.outportForVnet n p.vnet = some port ∧ net.getRouterId destId p.vnet = some destRouter ∧
    p.route = NetworkInterface.routeTo net n p.vnet port destId destRouter

structure Flow (s : State) (w : Worms) : Prop where
  inv : Wormhole.Inv (params net) (view net s.data) w
  trail : Wormhole.Trail w
  legal : ∀ c wc, w c = some wc → Legal net s.data c wc
  vc : ∀ c, VcOk net s.now c (s.data.virtualChannels c)
  out : ∀ c, OutOk net s.now (vnetOf net c) (s.data.outVcState c)
  niOut : ∀ n v, OutOk net s.now (v / net.niVcPerVnet n) ((s.data.ni n).outVcState v)
  /-- A packet goes to the output port that the routing unit chose for it. -/
  port : ∀ c wc lo, w c = some wc → (s.data.virtualChannels c).outputPort = some lo →
    ∃ r, (net.link c.1).dst = .router r ∧ Routed net r wc.pkt.route c.1 lo
  /-- What has left a channel to an interface has been received. -/
  received : ∀ c wc j, isExit net c = true → w c = some wc → j < wc.left → Received s.data (wc.pkt, j)
  /-- Packets are numbered in the order in which they are made. -/
  ids : s.data.created.map Packet.id = List.range s.data.nextPacketId
  made : ∀ p ∈ s.data.created, Made net p
  /-- What waits at an interface waits for an output port. -/
  pend : ∀ n v, ∀ f ∈ (s.data.ni n).niOutVcs v, f.vc = v ∧ ∃ l, net.outportForVnet n (v / net.niVcPerVnet n) = some l

variable {net} {s : State} {w : Worms} {c : Chan}

lemma isExit_of_router {r : ℕ} (h : (net.link c.1).dst = .router r) : isExit net c = false := by
  simp [isExit, h]

lemma isExit_of_ni {n : ℕ} (h : (net.link c.1).dst = .ni n) : isExit net c = true := by
  simp [isExit, h]

lemma isEntry_of_router {r : ℕ} (h : (net.link c.1).src = .router r) : isEntry net c = false := by
  simp [isEntry, h]

lemma isEntry_of_ni {n : ℕ} (h : (net.link c.1).src = .ni n) : isEntry net c = true := by
  simp [isEntry, h]

lemma OutOk.new (now vnet : ℕ) : OutOk net now vnet (OutVcState.new net vnet) :=
  ⟨Nat.zero_le _, Or.inl rfl, rfl⟩

lemma OutOk.later {now now' vnet : ℕ} {o : OutVcState} (h : OutOk net now vnet o) (hle : now ≤ now') :
    OutOk net now' vnet o := ⟨h.time.trans hle, h.state, h.max⟩

lemma flow_init (net : Net) : Flow net (State.init net) fun _ => none where
  inv := by
    have hnext : ∀ c, (view net (State.init net).data c).next = none := fun c => by
      simp only [view, mkView]
      split_ifs <;> rfl
    refine ⟨fun c => ?_, fun c d h => ?_, fun c c' d h => ?_⟩
    · have hs : senderVc net (Data.init net) c = OutVcState.new net (vnetOf net c) := by
        unfold senderVc
        cases hsrc : (net.link c.1).src with
        | router r => rfl
        | ni n =>
          dsimp only
          split_ifs with hp
          · have hm := (Net.outportForVnet_spec hp).1
            simp only [Data.init, vnetOf, Net.niVcPerVnet_eq hm]
          · rfl
      have hw : wireOf net (Data.init net) c.1 = [] := by
        unfold wireOf switchFor
        cases (net.link c.1).src <;> simp [Data.init]
      have hp : pendOf net (Data.init net) c = [] := by
        unfold pendOf
        cases (net.link c.1).src <;> simp [Data.init]
      refine ⟨?_, ?_, ?_, ?_, ?_, ?_, ?_, ?_⟩ <;> simp only [view, State.init, mkView, hs, hw, hp]
      · rfl
      · rfl
      · simp [Data.init]
      · rfl
      · rfl
      · simp [Data.init]
      · split_ifs <;> rfl
    · rw [hnext] at h
      cases h
    · rw [hnext] at h
      cases h
  trail := by constructor <;> intro c c' wc wc' h <;> cases h
  legal := fun c wc h => by cases h
  vc := fun c => ⟨le_rfl, Or.inl ⟨rfl, rfl, rfl⟩⟩
  out := fun c => OutOk.new _ _
  niOut := fun n v => OutOk.new _ _
  port := fun c wc lo h => by cases h
  received := fun c wc j _ h => by cases h
  ids := rfl
  made := fun p h => by cases h
  pend := fun n v f h => by cases h

lemma Flow.later (h : Flow net s w) {now : ℕ} (hle : s.now ≤ now) (σ : Sched) : Flow net ⟨now, s.data, σ⟩ w :=
  { h with
    vc := fun c => ⟨(h.vc c).time.trans hle, (h.vc c).state⟩
    out := fun c => (h.out c).later hle
    niOut := fun n v => (h.niOut n v).later hle }

lemma Legal.congr {d d' : Data} {wc wc' : Wormhole.Worm Packet} (h : Legal net d c wc) (hp : wc'.pkt = wc.pkt)
    (hh : wc'.hop = wc.hop) (hd : ∀ p ∈ d.created, p ∈ d'.created) : Legal net d' c wc' :=
  ⟨h.link, hp ▸ h.vnet, hp ▸ h.vnet_lt, hp ▸ hd _ h.created, hp ▸ hh ▸ h.path, hp ▸ h.entry⟩

/-- What the records of a move have to satisfy. -/
structure Records (net : Net) (s s' : State) : Prop where
  now : s'.now = s.now
  created : ∀ p ∈ s.data.created, p ∈ s'.data.created
  received : ∀ x, Received s.data x → Received s'.data x
  out : ∀ c, OutOk net s.now (vnetOf net c) (s'.data.outVcState c)
  niOut : ∀ n v, OutOk net s.now (v / net.niVcPerVnet n) ((s'.data.ni n).outVcState v)
  ids : s'.data.created.map Packet.id = List.range s'.data.nextPacketId
  made : ∀ p ∈ s'.data.created, Made net p
  pend : ∀ n v, ∀ f ∈ (s'.data.ni n).niOutVcs v, f.vc = v ∧ ∃ l, net.outportForVnet n (v / net.niVcPerVnet n) = some l

section

variable (h : Flow net s w)
include h

/-- A move after which the worms are where they were, or further on, or have taken a new channel. -/
lemma Flow.step {s' : State} {w' : Worms} (hr : Records net s s')
    (hinv : Wormhole.Inv (params net) (view net s'.data) w') (htrail : Wormhole.Trail w')
    (hw : ∀ c v, w' c = some v → (∃ wc, w c = some wc ∧ v.pkt = wc.pkt ∧ v.hop = wc.hop ∧
      (isExit net c = true → ∀ j < v.left, j < wc.left ∨ Received s'.data (wc.pkt, j))) ∨
      Legal net s'.data c v ∧ v.left = 0 ∧ (s'.data.virtualChannels c).outputPort = none)
    (hvc : ∀ c, VcOk net s.now c (s'.data.virtualChannels c))
    (hport : ∀ c wc lo, w c = some wc → (s'.data.virtualChannels c).outputPort = some lo →
      ∃ r, (net.link c.1).dst = .router r ∧ Routed net r wc.pkt.route c.1 lo) : Flow net s' w' where
  inv := hinv
  trail := htrail
  legal := by
    intro c v hv
    rcases hw c v hv with ⟨wc, h1, h2, h3, -⟩ | ⟨hl, -⟩
    · exact (h.legal c wc h1).congr h2 h3 hr.created
    · exact hl
  vc := fun c => by rw [hr.now]; exact hvc c
  out := fun c => by rw [hr.now]; exact hr.out c
  niOut := fun n v => by rw [hr.now]; exact hr.niOut n v
  port := by
    intro c v lo hv hlo
    rcases hw c v hv with ⟨wc, h1, h2, -⟩ | ⟨-, -, hn⟩
    · rw [h2]
      exact hport c wc lo h1 hlo
    · rw [hn] at hlo
      cases hlo
  received := by
    intro c v j hx hv hj
    rcases hw c v hv with ⟨wc, h1, h2, -, h3⟩ | ⟨-, h0, -⟩
    · rw [h2]
      rcases h3 hx j hj with hj | hj
      · exact hr.received _ (h.received c wc j hx h1 hj)
      · exact hj
    · omega
  ids := hr.ids
  made := hr.made
  pend := hr.pend

lemma Flow.idle_vc (hc : w c = none) : (s.data.virtualChannels c).vcState.1 = .idle ∧
    (s.data.virtualChannels c).outputPort = none ∧ (s.data.virtualChannels c).outputVc = none := by
  rcases (h.vc c).state with h' | ⟨hact, r, lo, hdst, -⟩
  · exact h'
  · have hf : Wormhole.Free (params net) c (view net s.data c) := by
      have := h.inv.holds c
      rwa [hc] at this
    have := hf.opened
    rw [view_router (isExit_of_router hdst)] at this
    simp [hact] at this

lemma Flow.update {s' : State} {wc wc' : Wormhole.Worm Packet} (hw : w c = some wc) (hr : Records net s s')
    (hinv : Wormhole.Inv (params net) (view net s'.data) (Function.update w c (some wc'))) (hpkt : wc'.pkt = wc.pkt)
    (hhop : wc'.hop = wc.hop) (hleft : wc.left ≤ wc'.left)
    (hrec : isExit net c = true → ∀ j < wc'.left, j < wc.left ∨ Received s'.data (wc.pkt, j))
    (hvc : ∀ c', VcOk net s.now c' (s'.data.virtualChannels c'))
    (hport : ∀ c' wc' lo, w c' = some wc' → (s'.data.virtualChannels c').outputPort = some lo →
      ∃ r, (net.link c'.1).dst = .router r ∧ Routed net r wc'.pkt.route c'.1 lo) :
    Flow net s' (Function.update w c (some wc')) := by
  refine h.step hr hinv (h.trail.update hw hpkt hhop hleft) (fun c' v hv => Or.inl ?_) hvc hport
  by_cases hc : c' = c
  · subst hc
    rw [Function.update_self] at hv
    cases hv
    exact ⟨wc, hw, hpkt, hhop, hrec⟩
  · rw [Function.update_of_ne hc] at hv
    exact ⟨v, hv, rfl, rfl, fun _ j hj => Or.inl hj⟩

lemma Flow.records {s' : State} (hnow : s'.now = s.now) (hcr : s'.data.created = s.data.created)
    (hid : s'.data.nextPacketId = s.data.nextPacketId) (hrec : ∀ x, Received s.data x → Received s'.data x)
    (hout : s'.data.outVcState = s.data.outVcState) (hni : ∀ n, (s'.data.ni n).outVcState = (s.data.ni n).outVcState)
    (hpend : ∀ n, (s'.data.ni n).niOutVcs = (s.data.ni n).niOutVcs) : Records net s s' where
  now := hnow
  created := fun p hp => by rw [hcr]; exact hp
  received := hrec
  out := fun c => by rw [hout]; exact h.out c
  niOut := fun n v => by rw [hni]; exact h.niOut n v
  ids := by rw [hcr, hid]; exact h.ids
  made := by rw [hcr]; exact h.made
  pend := fun n v => by rw [hpend]; exact h.pend n v

lemma Flow.same {s' : State} (hr : Records net s s') (hview : view net s'.data = view net s.data)
    (hvc : s'.data.virtualChannels = s.data.virtualChannels) : Flow net s' w where
  inv := by rw [hview]; exact h.inv
  trail := h.trail
  legal := fun c wc hw => (h.legal c wc hw).congr rfl rfl hr.created
  vc := fun c => by rw [hr.now, hvc]; exact h.vc c
  out := fun c => by rw [hr.now]; exact hr.out c
  niOut := fun n v => by rw [hr.now]; exact hr.niOut n v
  port := fun c wc lo hw hlo => h.port c wc lo hw (by rw [hvc] at hlo; exact hlo)
  received := fun c wc j hx hw hj => hr.received _ (h.received c wc j hx hw hj)
  ids := hr.ids
  made := hr.made
  pend := hr.pend

end

end Gem5.Garnet
