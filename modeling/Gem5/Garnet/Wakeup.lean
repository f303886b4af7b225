import Gem5.Garnet.InterfaceMoves

/-!
# Wakeups keep the flow

Every wakeup of a component, and every operation of the protocol, keeps the invariant of the network, and
no wakeup stops at a check of flow control. So the invariant holds in every state of every free run: it does
not depend on who is woken when.
-/

namespace Gem5.Garnet

open Sim Ruby Lib NetworkInterface NetworkLink

variable {net : Net} {s : State}

/-! ### Links -/

variable {self : ConsumerId} {s' : State}

lemma NetworkLink.wakeupWith_sat {α : Type} [Timed α] {reader : ConsumerId} {latency now : ℕ}
    {check : α → Except Fault PUnit} {b : LinkState α} {σ : Sched} (hself : self ∈ net.consumerList)
    (hreader : reader ∈ net.consumerList) (hlat : net.IsDelay latency) (hcheck : ∀ a, Sat Benign (fun _ => True) (check a)) :
    Sat Benign (fun x => net.period self ∣ now ∧ SchedOps net now self σ x.2 ∧
        (x.1.srcQueue ≠ [] → x.2.Asked net self (clockEdge (net.period self) now 1)) ∧
        (x.1 = b ∨ ∃ f rest, b.srcQueue = f :: rest ∧ Timed.time f ≤ now ∧
          x.1 = ⟨rest, b.linkBuffer ++ [Timed.setTime (clockEdge (net.period self) now latency) f]⟩ ∧
          x.2.Asked net reader (clockEdge (net.period self) now latency)))
      (wakeupWith net self reader latency check now b σ) := by
  unfold wakeupWith
  refine (benign_ensure rfl).bind fun _ hedge => ?_
  have hedge := of_decide_eq_true hedge
  have hself₁ : SchedOps net now self σ (σ.scheduleEvent net now self 1) := .event _ 1 hself (isDelay_one net) .refl
  cases hq : b.srcQueue with
  | nil => exact ⟨hedge, .refl, fun h => absurd hq h, Or.inl rfl⟩
  | cons f rest =>
    refine Sat.ite (fun htime => ?_) fun _ => ⟨hedge, hself₁, fun _ => asked_scheduleEvent _ 1, Or.inl rfl⟩
    refine (hcheck f).bind fun _ _ => ?_
    have hread : SchedOps net now self σ (σ.scheduleEventAbsolute net now reader (clockEdge (net.period self) now latency)) :=
      .absolute _ (net.object self) latency hreader hlat .refl
    dsimp only
    cases rest with
    | nil =>
      exact ⟨hedge, hread, fun h => absurd rfl h, Or.inr ⟨f, [], rfl, htime, rfl, asked_scheduleEventAbsolute _ _⟩⟩
    | cons g rest =>
      have hops : SchedOps net now self (σ.scheduleEventAbsolute net now reader (clockEdge (net.period self) now latency))
          ((σ.scheduleEventAbsolute net now reader (clockEdge (net.period self) now latency)).scheduleEvent net now self 1) :=
        .event _ 1 hself (isDelay_one net) .refl
      exact ⟨hedge, hread.trans hops, fun _ => asked_scheduleEvent _ 1,
        Or.inr ⟨f, g :: rest, rfl, htime, rfl, (asked_scheduleEventAbsolute _ _).mono hops⟩⟩

lemma consumer_mem {x : Node} (h : x.isIn net.numRouters net.numNodes = true) : x.consumer ∈ net.consumerList := by
  cases x with
  | router r => simp [Net.consumerList, Node.consumer, of_decide_eq_true h]
  | ni n => simp [Net.consumerList, Node.consumer, of_decide_eq_true h]

variable {l : ℕ}

lemma NetworkLink.wakeup_spec (hl : l < net.links.length) :
    Sat Benign (fun s' => net.period (.networkLink l) ∣ s.now ∧ Moves net (.networkLink l) s [] s' ∧
      ((s'.data.networkLink l).srcQueue ≠ [] →
        s'.sched.Asked net (.networkLink l) (clockEdge (net.period (.networkLink l)) s.now 1))) (wakeup net l s) := by
  unfold wakeup
  have hdst := (net.link_ends _ (Net.link_mem hl)).2
  refine (wakeupWith_sat (outputUnit_mem hl).2.1 (consumer_mem hdst) (Or.inr ⟨l, hl, Or.inl rfl⟩)
    fun f => (benign_ensure rfl).bind fun _ _ => (benign_ensure rfl).mono fun _ _ => trivial).bind fun x hx => ?_
  obtain ⟨b, σ⟩ := x
  obtain ⟨hedge, hops, hmore, hx⟩ := hx
  refine ⟨hedge, ?_, fun h => hmore (by simpa [Data.setLink] using h)⟩
  rcases hx with rfl | ⟨f, rest, hq, htime, rfl, hread⟩
  · have : s.data.setLink l (s.data.networkLink l) = s.data := by simp [Data.setLink]
    rw [this]
    exact (Move.sched hops).quiet
  · exact (Move.link hl rfl hq htime hops hread hmore).quiet

lemma CreditLink.wakeup_spec (hl : l < net.links.length) :
    Sat Benign (fun s' => net.period (.creditLink l) ∣ s.now ∧ Moves net (.creditLink l) s [] s' ∧
      ((s'.data.creditLink l).srcQueue ≠ [] →
        s'.sched.Asked net (.creditLink l) (clockEdge (net.period (.creditLink l)) s.now 1))) (CreditLink.wakeup net l s) := by
  unfold CreditLink.wakeup
  have hsrc := (net.link_ends _ (Net.link_mem hl)).1
  refine (wakeupWith_sat (outputUnit_mem hl).2.2 (consumer_mem hsrc) (Or.inr ⟨l, hl, Or.inr rfl⟩)
    fun _ => show Sat Benign (fun _ => True) (.ok ⟨⟩) from trivial).bind fun x hx => ?_
  obtain ⟨b, σ⟩ := x
  obtain ⟨hedge, hops, hmore, hx⟩ := hx
  refine ⟨hedge, ?_, fun h => hmore (by simpa [Data.setCredit] using h)⟩
  rcases hx with rfl | ⟨c, rest, hq, htime, rfl, hread⟩
  · have : s.data.setCredit l (s.data.creditLink l) = s.data := by simp [Data.setCredit]
    rw [this]
    exact (Move.sched hops).quiet
  · exact (Move.creditLink hl rfl hq htime hops hread hmore).quiet

/-! ### Every wakeup -/

structure Sound (net : Net) (s : State) : Prop where
  flows : Flows net s
  quiet : Quiet s.data
  allocators : Allocators net s.data

lemma Move.requests_eq {a : Label} (h : Move net self s a s') (hself : ∀ r, self ≠ .router r) :
    s'.data.portRequests = s.data.portRequests ∧ s'.data.switchBuffers = s.data.switchBuffers := by
  cases h with
  | requests _ _ hr => exact absurd hr (hself _)
  | arrive hr => exact absurd hr (hself _)
  | forward hr => exact absurd hr (hself _)
  | traverse hr => exact absurd hr (hself _)
  | create _ _ _ _ _ hd =>
    obtain ⟨_, _, -, -, -, rfl⟩ := makePacket_eq hd
    exact ⟨rfl, rfl⟩
  | eject _ _ _ _ _ _ _ _ hd =>
    obtain ⟨_, _, _, -, rfl⟩ := deliver_eq hd
    exact ⟨rfl, rfl⟩
  | unstall _ _ _ _ _ _ hd =>
    obtain ⟨_, _, _, -, rfl⟩ := deliver_eq hd
    exact ⟨rfl, rfl⟩
  | _ => exact ⟨rfl, rfl⟩

lemma Moves.quiet {tr : List Label} (h : Moves net self s tr s')
    (hself : ∀ r, self ≠ .router r) (hq : Quiet s.data) : Quiet s'.data := by
  refine h.invariant (I := fun s => Quiet s.data) (fun s a s' hm hq l => ?_) hq
  obtain ⟨h1, h2⟩ := hm.requests_eq hself
  rw [h1, h2]
  exact hq l

/-- The labels a wakeup can have: each of them once. -/
def Labels (net : Net) (c : ConsumerId) (d : Data) : List Label :=
  match c with
  | .router r => (net.inLinks (.router r)).map .arrive
  | .ni n => (List.range net.virtualNetworks).flatMap fun vnet =>
      (destinations n vnet d).map (.create n vnet)
  | _ => []

/-- What a component has left to do, the schedule knows of. -/
def Rescheduled (net : Net) (c : ConsumerId) (now : ℕ) (s' : State) : Prop :=
  match c with
  | .router r => InputUnit.Asking net now r (net.inLinks (.router r)) s'.data s'.sched ∧
      OutputUnit.Asking net now r (net.outLinks (.router r)) s'.data s'.sched ∧
      SwitchAllocator.Watched net now r s'.data s'.sched
  | .ni n => (∀ l ∈ net.inLinks (.ni n), (s'.data.creditLink l).srcQueue ≠ [] →
        s'.sched.Asked net (.creditLink l) (clockEdge (net.period (.ni n)) now 1)) ∧
      ((∃ v < numVcs net n, isReady ((s'.data.ni n).niOutVcs v) (clockEdge (net.period (.ni n)) now 1) = true) ∨
        (∃ l ∈ net.inLinks (.ni n), isReady (s'.data.networkLink l).linkBuffer now = true) ∨
        (∃ l ∈ net.outLinks (.ni n), isReady (s'.data.creditLink l).linkBuffer now = true) →
        s'.sched.Asked net (.ni n) (clockEdge (net.period (.ni n)) now 1))
  | .networkLink l => (s'.data.networkLink l).srcQueue ≠ [] →
      s'.sched.Asked net (.networkLink l) (clockEdge (net.period (.networkLink l)) now 1)
  | .creditLink l => (s'.data.creditLink l).srcQueue ≠ [] →
      s'.sched.Asked net (.creditLink l) (clockEdge (net.period (.creditLink l)) now 1)
  | .outputUnit l => ∀ r, (net.link l).src = .router r → isReady (s'.data.creditLink l).linkBuffer now = true →
      s'.sched.Asked net (.outputUnit l) (clockEdge (net.period (.router r)) now 1)

/-- A wakeup of `c` led from `s` to `s'`. -/
structure Woken (net : Net) (c : ConsumerId) (s s' : State) : Prop where
  moves : ∃ tr, Moves net c s tr s' ∧ tr.Sublist (Labels net c s.data)
  quiet : Quiet s'.data
  rescheduled : Rescheduled net c s.now s'

lemma wakeup_spec {c : ConsumerId} (hc : c ∈ net.consumerList) (h : Sound net s) :
    Sat Benign (Woken net c s) (wakeup net c s) := by
  simp only [Net.consumerList, List.mem_append, List.mem_map, List.mem_range, List.mem_flatMap] at hc
  cases c with
  | router r =>
    refine (Router.wakeup_spec h.flows h.quiet).mono ?_
    rintro s' ⟨-, hd⟩
    exact ⟨hd.moves, hd.quiet, hd.flits, hd.credits, hd.watched⟩
  | ni n =>
    have hn : n < net.numNodes := by simpa using hc
    refine (NetworkInterface.wakeup_spec hn h.flows h.allocators).mono ?_
    rintro s' ⟨-, hd⟩
    obtain ⟨tr, hm, htr⟩ := hd.moves
    exact ⟨⟨tr, hm, htr⟩, hm.quiet (fun r => by simp) h.quiet, hd.sending, hd.waiting⟩
  | networkLink l =>
    have hl : l < net.links.length := by simpa using hc
    refine (NetworkLink.wakeup_spec hl).mono ?_
    rintro s' ⟨-, hm, hmore⟩
    exact ⟨⟨[], hm, List.nil_sublist _⟩, hm.quiet (fun r => by simp) h.quiet, hmore⟩
  | creditLink l =>
    have hl : l < net.links.length := by simpa using hc
    refine (CreditLink.wakeup_spec hl).mono ?_
    rintro s' ⟨-, hm, hmore⟩
    exact ⟨⟨[], hm, List.nil_sublist _⟩, hm.quiet (fun r => by simp) h.quiet, hmore⟩
  | outputUnit l =>
    have hl : l < net.links.length := by simpa using hc
    unfold wakeup
    dsimp only
    cases hsrc : (net.link l).src with
    | ni n =>
      refine ⟨⟨[], .refl, List.nil_sublist _⟩, h.quiet, fun r hr => ?_⟩
      rw [hsrc] at hr
      cases hr
    | router r =>
      refine (OutputUnit.wakeup_spec h.flows (Net.mem_outLinks.mpr ⟨hl, hsrc⟩) (Or.inr rfl)).mono ?_
      rintro s' ⟨hstep, hmore⟩
      have hm : Moves net (.outputUnit l) s [] s' := by
        rcases hstep with rfl | ⟨hm, -⟩
        · exact .refl
        · exact hm.quiet
      refine ⟨⟨[], hm, List.nil_sublist _⟩, hm.quiet (fun r => by simp) h.quiet, fun r' hr' => ?_⟩
      rw [hsrc] at hr'
      cases hr'
      exact hmore

lemma Woken.sound {c : ConsumerId} (hw : Woken net c s s') (h : Sound net s) : Sound net s' := by
  obtain ⟨tr, hm, -⟩ := hw.moves
  exact ⟨hm.flows h.flows, hw.quiet, hm.allocators h.allocators⟩

/-! ### The protocol -/

/-- What an operation of the protocol does: one of the buffers of an interface changes, and the interface may be
scheduled. -/
lemma protocol_eq {n vnet : ℕ} {op : ProtocolOp} (h : protocol net n vnet op s = .ok s') :
    ∃ x σ, s' = ⟨s.now, s.data.setNi n x, σ⟩ ∧
      ((∃ msg delta draw b b' t, op = .enqueue msg delta draw ∧ (s.data.ni n).inNode vnet = some b ∧
          b.enqueue msg s.now delta net.randomization net.warmupEnabled draw false = .ok (b', t) ∧
          x = { s.data.ni n with inNode := Function.update (s.data.ni n).inNode vnet (some b') } ∧
          σ = s.sched.scheduleEventAbsolute net s.now (.ni n) t) ∨
        ∃ b b' called, (s.data.ni n).outNode vnet = some b ∧ op.onOutNode net s.now b = .ok (b', called) ∧
          x = { s.data.ni n with outNode := Function.update (s.data.ni n).outNode vnet (some b') } ∧
          σ = if called then s.sched.scheduleEventAbsolute net s.now (.ni n) (clockEdge (net.period (.ni n)) s.now 1)
            else s.sched) := by
  have hof : ∀ {α : Type} {x : Except BufferFault α} {a : α}, ofBuffer x = .ok a → x = .ok a := by
    intro α x a hx
    exact (ofBuffer_sat x).of_ok hx
  have haccess : protocolAccess net n vnet op s = .ok s' → ∃ b b' called, (s.data.ni n).outNode vnet = some b ∧
      op.onOutNode net s.now b = .ok (b', called) ∧
      s' = ⟨s.now, s.data.setNi n { s.data.ni n with outNode := Function.update (s.data.ni n).outNode vnet (some b') },
        if called then s.sched.scheduleEventAbsolute net s.now (.ni n) (clockEdge (net.period (.ni n)) s.now 1)
          else s.sched⟩ := by
    intro h
    unfold protocolAccess at h
    dsimp only at h
    cases hb : (s.data.ni n).outNode vnet with
    | none => rw [hb] at h; cases h
    | some b =>
      rw [hb] at h
      obtain ⟨⟨b', called⟩, h1, h2⟩ := bind_eq_ok.mp h
      refine ⟨b, b', called, rfl, hof h1, ?_⟩
      have h2 := (Except.ok.inj h2).symm
      cases called with
      | false => exact h2
      | true => exact h2
  unfold protocol at h
  cases op with
  | enqueue msg delta draw =>
    unfold protocolEnqueue at h
    dsimp only at h
    cases hb : (s.data.ni n).inNode vnet with
    | none => rw [hb] at h; cases h
    | some b =>
      rw [hb] at h
      obtain ⟨⟨b', t⟩, h1, h2⟩ := bind_eq_ok.mp h
      cases h2
      exact ⟨_, _, rfl, Or.inl ⟨msg, delta, draw, b, b', t, rfl, rfl, hof h1, rfl, rfl⟩⟩
  | _ =>
    obtain ⟨b, b', called, h1, h2, h3⟩ := haccess h
    exact ⟨_, _, h3, Or.inr ⟨b, b', called, h1, h2, rfl, rfl⟩⟩

lemma protocol_sound {n vnet : ℕ} {op : ProtocolOp} (h : Sound net s) (hs : protocol net n vnet op s = .ok s') :
    Sound net s' := by
  obtain ⟨x, σ, rfl, hx⟩ := protocol_eq hs
  have hsame : x.outVcState = (s.data.ni n).outVcState ∧ x.niOutVcs = (s.data.ni n).niOutVcs ∧
      x.vcAllocator = (s.data.ni n).vcAllocator := by
    rcases hx with ⟨_, _, _, _, _, _, -, -, -, rfl, -⟩ | ⟨_, _, _, -, -, rfl, -⟩ <;> exact ⟨rfl, rfl, rfl⟩
  obtain ⟨w, hw⟩ := h.flows
  have hi : InputSide s ⟨s.now, s.data.setNi n x, σ⟩ := by
    refine InputSide.setNi hsame.1 hsame.2.1 ?_ ?_ ?_ ?_ ?_ ?_ ?_
    all_goals first | rfl | exact fun _ => id
  exact ⟨⟨w, hi.same hw rfl rfl fun _ => rfl⟩, h.quiet, h.allocators.update rfl fun v => Or.inl (by rw [hsame.2.2])⟩

/-! ### Free runs -/

lemma sound_init (net : Net) : Sound net (State.init net) :=
  ⟨⟨_, flow_init net⟩, fun _ => ⟨rfl, rfl⟩, fun _ _ h => h⟩

lemma FreeReachable.sound (h : FreeReachable net s) : Sound net s := by
  induction h with
  | init => exact sound_init net
  | wakeup c hc _ hs ih => exact ((wakeup_spec hc ih).of_ok hs).sound ih
  | protocol n vnet op hn _ hs ih => exact protocol_sound ih hs
  | later now σ _ hle ih =>
    obtain ⟨w, hw⟩ := ih.flows
    exact ⟨⟨w, hw.later hle σ⟩, ih.quiet, ih.allocators⟩

end Gem5.Garnet
