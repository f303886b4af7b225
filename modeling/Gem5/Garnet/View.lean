import Gem5.Garnet.Moves
import Gem5.Lib.Wormhole

/-!
# A network seen as channels

A virtual channel of a link is a channel in the sense of `Gem5.Lib.Wormhole`: the flits of that virtual
channel on the link and in the buffers before it are on the wire, those in the input virtual channel of
the router at its end, or in the stall queue of the interface there, are in the receiver's buffer, and
the credits for it in the buffers of the credit link are on the way back. `view` reads all this off the
state. The lemmas say what the moves do to it.

A virtual channel of an interface belongs to the one output port that its virtual network uses. On other
links that start at the interface the channel is never used.
-/

namespace Gem5.Garnet

open Sim Ruby Lib Function List

variable (net : Net)

/-- A flit as a packet and a number. -/
def tok (f : Flit) : Packet × ℕ := (f.packet, f.id)

def lane (v : ℕ) (fs : List Flit) : List (Packet × ℕ) := (fs.filter fun f => f.vc = v).map tok

/-- The credits of a virtual channel. -/
def creditLane (v : ℕ) (cs : List Credit) : List Bool := (cs.filter fun c => c.vc = v).map (·.isFreeSignal)

section Lanes

variable {v : ℕ}

@[simp] lemma lane_nil : lane v [] = [] := rfl

@[simp] lemma lane_append (fs gs : List Flit) : lane v (fs ++ gs) = lane v fs ++ lane v gs := by
  simp [lane]

lemma lane_cons_self {f : Flit} (fs : List Flit) (h : f.vc = v) : lane v (f :: fs) = tok f :: lane v fs := by
  simp [lane, h]

lemma lane_cons_of_ne {f : Flit} (fs : List Flit) (h : f.vc ≠ v) : lane v (f :: fs) = lane v fs := by
  simp [lane, h]

lemma lane_cons (f : Flit) (fs : List Flit) : lane v (f :: fs) = lane v [f] ++ lane v fs := lane_append [f] fs

lemma lane_singleton_congr {f g : Flit} (hv : g.vc = f.vc) (ht : tok g = tok f) : lane v [g] = lane v [f] := by
  simp [lane, hv, filter_cons]
  split_ifs <;> simp [ht]

@[simp] lemma creditLane_append (cs es : List Credit) :
    creditLane v (cs ++ es) = creditLane v cs ++ creditLane v es := by
  simp [creditLane]

@[simp] lemma creditLane_nil : creditLane v [] = [] := rfl

lemma creditLane_cons (c : Credit) (cs : List Credit) : creditLane v (c :: cs) = creditLane v [c] ++ creditLane v cs :=
  creditLane_append [c] cs

lemma creditLane_cons_self {c : Credit} (cs : List Credit) (h : c.vc = v) :
    creditLane v (c :: cs) = c.isFreeSignal :: creditLane v cs := by
  simp [creditLane, h]

lemma creditLane_cons_of_ne {c : Credit} (cs : List Credit) (h : c.vc ≠ v) :
    creditLane v (c :: cs) = creditLane v cs := by
  simp [creditLane, h]

end Lanes

/-- The virtual network of a channel. -/
def vnetOf (c : Chan) : ℕ := c.2 / net.consumerVcs c.1

/-- The flits on the way over a link. -/
def wireOf (d : Data) (l : ℕ) : List Flit :=
  (d.networkLink l).linkBuffer ++ (d.networkLink l).srcQueue ++ switchFor net d l

def backOf (d : Data) (c : Chan) : List Bool :=
  creditLane c.2 ((d.creditLink c.1).linkBuffer ++ (d.creditLink c.1).srcQueue)

/-- The flits that wait at an interface for the channel. -/
def pendOf (d : Data) (c : Chan) : List (Packet × ℕ) :=
  match (net.link c.1).src with
  | .router _ => []
  | .ni n => if net.outportForVnet n (vnetOf net c) = some c.1 then ((d.ni n).niOutVcs c.2).map tok else []

/-- What the sender knows about the channel. -/
def senderVc (d : Data) (c : Chan) : OutVcState :=
  match (net.link c.1).src with
  | .router _ => d.outVcState c
  | .ni n =>
    if net.outportForVnet n (vnetOf net c) = some c.1 then (d.ni n).outVcState c.2 else OutVcState.new net (vnetOf net c)

/-- Where the packet in an input virtual channel goes next. -/
def VirtualChannel.next (vc : VirtualChannel) : Option Chan :=
  match vc.outputPort, vc.outputVc with
  | some lo, some v => some (lo, v)
  | _, _ => none

/-- The end of the channel is an interface. -/
def isExit (c : Chan) : Bool :=
  match (net.link c.1).dst with
  | .router _ => false
  | .ni _ => true

/-- The start of the channel is an interface. -/
def isEntry (c : Chan) : Bool :=
  match (net.link c.1).src with
  | .router _ => false
  | .ni _ => true

/-- A network as a network of channels. -/
def params : Wormhole.Params Chan Packet where
  size := Packet.size
  depth c := net.buffersPerVc (vnetOf net c)
  entry := isEntry net
  exit := isExit net

/-- A channel, from the parts of the state it depends on. -/
def mkView (c : Chan) (pend wire stall : List (Packet × ℕ)) (back : List Bool) (o : OutVcState) (vc : VirtualChannel) :
    Wormhole.View Chan Packet where
  pend := pend
  wire := wire
  buf := if isExit net c then stall else vc.inputBuffer.map tok
  back := back
  credit := o.creditCount
  idle := o.vcState == .idle
  opened := !isExit net c && vc.vcState.1 == .active
  next := if isExit net c then none else vc.next

def view (d : Data) (c : Chan) : Wormhole.View Chan Packet :=
  mkView net c (pendOf net d c) (lane c.2 (wireOf net d c.1)) (lane c.2 (d.inPort c.1).stallQueue) (backOf d c)
    (senderVc net d c) (d.virtualChannels c)

variable {net} {d d' : Data} {c : Chan}

lemma view_congr (hp : pendOf net d' c = pendOf net d c)
    (hw : lane c.2 (wireOf net d' c.1) = lane c.2 (wireOf net d c.1))
    (hs : lane c.2 (d'.inPort c.1).stallQueue = lane c.2 (d.inPort c.1).stallQueue) (hb : backOf d' c = backOf d c)
    (ho : senderVc net d' c = senderVc net d c) (hv : d'.virtualChannels c = d.virtualChannels c) :
    view net d' c = view net d c := by
  unfold view
  rw [hp, hw, hs, hb, ho, hv]

lemma view_router (h : isExit net c = false) (d : Data) : view net d c =
    { pend := pendOf net d c, wire := lane c.2 (wireOf net d c.1), buf := (d.virtualChannels c).inputBuffer.map tok
      back := backOf d c, credit := (senderVc net d c).creditCount, idle := (senderVc net d c).vcState == .idle
      opened := (d.virtualChannels c).vcState.1 == .active, next := (d.virtualChannels c).next } := by
  simp [view, mkView, h]

lemma view_ni (h : isExit net c = true) (d : Data) : view net d c =
    { pend := pendOf net d c, wire := lane c.2 (wireOf net d c.1), buf := lane c.2 (d.inPort c.1).stallQueue
      back := backOf d c, credit := (senderVc net d c).creditCount, idle := (senderVc net d c).vcState == .idle
      opened := false, next := none } := by
  simp [view, mkView, h]

lemma pendOf_congr (h : d'.ni = d.ni) : pendOf net d' c = pendOf net d c := by
  unfold pendOf
  rw [h]

lemma senderVc_congr (h : d'.ni = d.ni) (ho : d'.outVcState c = d.outVcState c) :
    senderVc net d' c = senderVc net d c := by
  unfold senderVc
  rw [h, ho]

lemma switchFor_congr (h : d'.switchBuffers = d.switchBuffers) (l : ℕ) : switchFor net d' l = switchFor net d l := by
  unfold switchFor
  rw [h]

lemma wireOf_congr {l : ℕ} (h : d'.networkLink l = d.networkLink l) (hs : switchFor net d' l = switchFor net d l) :
    wireOf net d' l = wireOf net d l := by
  unfold wireOf
  rw [h, hs]

lemma backOf_congr (h : d'.creditLink c.1 = d.creditLink c.1) : backOf d' c = backOf d c := by
  unfold backOf
  rw [h]

/-! ### The crossbar -/

section Switch

variable {α : Type} {g : ℕ → List α} {ls : List ℕ} {i : ℕ}

lemma flatMap_update_of_not_mem (h : i ∉ ls) (x : List α) : ls.flatMap (update g i x) = ls.flatMap g := by
  refine flatMap_congr fun j hj => ?_
  rw [update_of_ne]
  rintro rfl
  exact h hj

lemma flatMap_update_push (hn : ls.Nodup) (hi : i ∈ ls) (h : ls.flatMap g = []) (x : α) :
    ls.flatMap (update g i [x]) = [x] := by
  obtain ⟨a, b, rfl⟩ := append_of_mem hi
  have hd := nodup_middle.mp hn
  rw [nodup_cons, mem_append, not_or] at hd
  rw [flatMap_append, flatMap_cons, append_eq_nil_iff, append_eq_nil_iff] at h
  rw [flatMap_append, flatMap_cons, flatMap_update_of_not_mem hd.1.1, flatMap_update_of_not_mem hd.1.2,
    update_self, h.1, h.2.2]
  rfl

lemma flatMap_update_pop (hn : ls.Nodup) (hi : i ∈ ls) {x : α} {r : List α} (h : ls.flatMap g = [x])
    (hg : g i = x :: r) : ls.flatMap (update g i r) = [] := by
  obtain ⟨a, b, rfl⟩ := append_of_mem hi
  have hd := nodup_middle.mp hn
  rw [nodup_cons, mem_append, not_or] at hd
  rw [flatMap_append, flatMap_cons, hg] at h
  rw [flatMap_append, flatMap_cons, flatMap_update_of_not_mem hd.1.1, flatMap_update_of_not_mem hd.1.2, update_self]
  have hl := congrArg length h
  simp only [length_append, length_cons, length_nil] at hl
  rw [eq_nil_of_length_eq_zero (by omega : (a.flatMap g).length = 0),
    eq_nil_of_length_eq_zero (by omega : r.length = 0),
    eq_nil_of_length_eq_zero (by omega : (b.flatMap g).length = 0)]
  rfl

end Switch

lemma switchFor_eq {r l : ℕ} (h : (net.link l).src = .router r) (d : Data) : switchFor net d l =
    (net.inLinks (.router r)).flatMap fun li => (d.switchBuffers li).filter fun f => f.outport = some l := by
  unfold switchFor
  rw [h]

lemma switchFor_filter (d : Data) (li l : ℕ) (b : List Flit) :
    (fun i => (update d.switchBuffers li b i).filter fun f => f.outport = some l) =
      update (fun i => (d.switchBuffers i).filter fun f => f.outport = some l) li
        (b.filter fun f => f.outport = some l) := by
  funext i
  by_cases hi : i = li
  · subst hi
    simp
  · simp [update_of_ne hi]

variable (d') in
lemma switchFor_push {r li lo : ℕ} {f : Flit} (hli : li ∈ net.inLinks (.router r)) (hlo : (net.link lo).src = .router r)
    (hf : f.outport = some lo) (hsw : switchFor net d lo = [])
    (hd : d'.switchBuffers = update d.switchBuffers li (d.switchBuffers li ++ [f])) :
    switchFor net d' lo = [f] ∧ ∀ l, l ≠ lo → switchFor net d' l = switchFor net d l := by
  have hbuf : (d.switchBuffers li).filter (fun f => f.outport = some lo) = [] := by
    rw [switchFor_eq hlo] at hsw
    exact flatMap_eq_nil_iff.mp hsw li hli
  constructor
  · rw [switchFor_eq hlo] at hsw ⊢
    rw [hd, switchFor_filter, filter_append, hbuf]
    simpa [hf] using flatMap_update_push (Net.nodup_inLinks _) hli hsw f
  · intro l hl
    cases hsrc : (net.link l).src with
    | ni n => simp [switchFor, hsrc]
    | router r' =>
      rw [switchFor_eq hsrc, switchFor_eq hsrc, hd, switchFor_filter, filter_append]
      have : ([f].filter fun f => f.outport = some l) = [] := by simp [hf, Ne.symm hl]
      rw [this, append_nil, update_eq_self]

variable (d') in
lemma switchFor_pop {r li lo : ℕ} {f : Flit} {rest : List Flit} (hli : li ∈ net.inLinks (.router r))
    (hlo : (net.link lo).src = .router r) (hf : f.outport = some lo) (hsw : switchFor net d lo = [f])
    (hbuf : d.switchBuffers li = f :: rest) (hd : d'.switchBuffers = update d.switchBuffers li rest) :
    switchFor net d' lo = [] ∧ ∀ l, l ≠ lo → switchFor net d' l = switchFor net d l := by
  constructor
  · rw [switchFor_eq hlo] at hsw ⊢
    rw [hd, switchFor_filter]
    exact flatMap_update_pop (Net.nodup_inLinks _) hli hsw (by simp [hbuf, hf])
  · intro l hl
    cases hsrc : (net.link l).src with
    | ni n => simp [switchFor, hsrc]
    | router r' =>
      rw [switchFor_eq hsrc, switchFor_eq hsrc, hd, switchFor_filter]
      have : (rest.filter fun f => f.outport = some l) = (d.switchBuffers li).filter fun f => f.outport = some l := by
        rw [hbuf, filter_cons_of_neg (by simp [hf, Ne.symm hl])]
      rw [this, update_eq_self]

end Gem5.Garnet
