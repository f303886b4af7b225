import Gem5.Garnet.EventQueue

/-!
# Credits and virtual channels

What flow control promises, in terms of the components: for every virtual channel of every sender its
credits, the flits it has sent that are still on the way or in the receiver, and the credits on the way back
add up to the size of the receiver's buffer; and a virtual channel is used by one packet at a time.
Both hold in every state of every free run, so none of the asserts about them can fail.
-/

namespace Gem5.Garnet

open Sim Ruby Lib List

variable (net : Net)

/-! ### What is counted -/

/-- Flits of the virtual channel `v` between the sender of link `l` and its receiver: in the crossbar, in the
buffer the link reads from and on the link. -/
def flitsInFlight (d : Data) (l v : ℕ) : ℕ :=
  (switchFor net d l).countP (·.vc = v) + (d.networkLink l).srcQueue.countP (·.vc = v) +
    (d.networkLink l).linkBuffer.countP (·.vc = v)

/-- Flits of the virtual channel `v` that the receiver of link `l` holds. -/
def flitsBuffered (d : Data) (l v : ℕ) : ℕ :=
  match (net.link l).dst with
  | .router _ => (d.virtualChannels (l, v)).inputBuffer.length
  | .ni _ => (d.inPort l).stallQueue.countP (·.vc = v)

/-- Credits for the virtual channel `v` of link `l` on their way back. -/
def creditsInFlight (d : Data) (l v : ℕ) : ℕ :=
  (d.creditLink l).srcQueue.countP (·.vc = v) + (d.creditLink l).linkBuffer.countP (·.vc = v)

/-- What the virtual channel `v` of link `l` owes its sender: flits that have not left the receiver and credits
that have not come back. -/
def outstanding (d : Data) (l v : ℕ) : ℕ := flitsInFlight net d l v + flitsBuffered net d l v + creditsInFlight d l v

variable {net} {s : State} {w : Worms}

lemma length_lane (v : ℕ) (fs : List Flit) : (lane v fs).length = fs.countP (·.vc = v) := by
  rw [lane, length_map, countP_eq_length_filter]

lemma length_creditLane (v : ℕ) (cs : List Credit) : (creditLane v cs).length = cs.countP (·.vc = v) := by
  rw [creditLane, length_map, countP_eq_length_filter]

lemma outstanding_eq (d : Data) (l v : ℕ) : outstanding net d l v =
    (view net d (l, v)).wire.length + (view net d (l, v)).buf.length + (view net d (l, v)).back.length := by
  have hbuf : flitsBuffered net d l v = (view net d (l, v)).buf.length := by
    unfold flitsBuffered
    cases hd : (net.link l).dst with
    | router r => rw [view_router (isExit_of_router hd)]; simp
    | ni n => rw [view_ni (isExit_of_ni hd)]; exact (length_lane ..).symm
  have hwire : flitsInFlight net d l v = (view net d (l, v)).wire.length := by
    change _ = (lane v (wireOf net d l)).length
    grind [length_lane, wireOf, flitsInFlight]
  have hback : creditsInFlight d l v = (view net d (l, v)).back.length := by
    change _ = (creditLane v ((d.creditLink l).linkBuffer ++ (d.creditLink l).srcQueue)).length
    rw [length_creditLane, countP_append, creditsInFlight]
    omega
  rw [outstanding, hwire, hbuf, hback]

/-! ### Virtual channels of interfaces without a port -/

/-- The virtual channels of a virtual network for which an interface has no output port are not used. -/
def Unported (net : Net) (d : Data) : Prop :=
  ∀ n v, net.outportForVnet n (v / net.niVcPerVnet n) = none →
    ((d.ni n).outVcState v).creditCount = ((d.ni n).outVcState v).maxCreditCount

lemma Unported.update {d d' : Data} {n : ℕ} {x : NiState} (h : Unported net d) (hd : d'.ni = Function.update d.ni n x)
    (hx : ∀ v, net.outportForVnet n (v / net.niVcPerVnet n) = none → x.outVcState v = (d.ni n).outVcState v) :
    Unported net d' := by
  intro m v hm
  rw [hd]
  by_cases he : m = n
  · subst he
    rw [Function.update_self, hx v hm]
    exact h m v hm
  · rw [Function.update_of_ne he]
    exact h m v hm

lemma update_of_port {n v l : ℕ} (hp : net.outportForVnet n (v / net.niVcPerVnet n) = some l) (g : ℕ → OutVcState)
    (o : OutVcState) (u : ℕ) (hu : net.outportForVnet n (u / net.niVcPerVnet n) = none) : Function.update g v o u = g u := by
  grind

lemma Move.unported {self : ConsumerId} {a : Label} {s' : State} (hm : Move net self s a s') (hf : Flow net s w)
    (h : Unported net s.data) : Unported net s'.data := by
  cases hm with
  | interface hn hvc => exact h.update rfl fun v _ => by rw [hvc]
  | @create n vnet port vc dest msg d hn hvnet hport hvc hidle hd =>
    have hp : net.outportForVnet n (vc / net.niVcPerVnet n) = some port := by
      grind [Nat.mul_comm, Nat.mul_add_div, Nat.div_eq_of_lt]
    obtain ⟨_, _, -, -, -, rfl⟩ := makePacket_eq hd
    exact h.update rfl (update_of_port hp _ _)
  | send hn hmay hbuf ho hport =>
    obtain ⟨l, -, hl, -⟩ := hf.waiting hbuf
    exact h.update rfl (update_of_port hl _ _)
  | niRefund hn hl hbuf => exact h.update rfl (update_of_port (hf.niPort hl hbuf) _ _)
  | stall => exact h.update rfl fun _ _ => rfl
  | eject _ _ _ _ _ _ _ _ hd =>
    obtain ⟨_, _, _, -, rfl⟩ := deliver_eq hd
    exact h.update rfl fun _ _ => rfl
  | @unstall n _ f _ _ _ _ _ _ _ _ _ _ hd =>
    obtain ⟨b', _, _, -, rfl⟩ := deliver_eq hd
    refine Unported.update (d := s.data.setNi n { s.data.ni n with
      outNode := Function.update (s.data.ni n).outNode f.vnet (some b') }) (h.update rfl fun _ _ => rfl) rfl fun _ _ => rfl
  | _ => exact h

lemma FreeReachable.unported (h : FreeReachable net s) : Unported net s.data := by
  induction h with
  | init => exact fun _ _ _ => rfl
  | wakeup c hc hr hs ih =>
    obtain ⟨tr, hm, -⟩ := ((wakeup_spec hc hr.sound).of_ok hs).moves
    have := hm.invariant (I := fun s => Flows net s ∧ Unported net s.data)
      (fun s a s' hm ⟨⟨w, hw⟩, hu⟩ => ⟨hw.move hm, hm.unported hw hu⟩) ⟨hr.sound.flows, ih⟩
    exact this.2
  | protocol n vnet op hn _ hs ih =>
    obtain ⟨x, σ, rfl, hx⟩ := protocol_eq hs
    refine ih.update rfl fun v _ => ?_
    rcases hx with ⟨_, _, _, _, _, _, -, -, -, rfl, -⟩ | ⟨_, _, _, -, -, rfl, -⟩ <;> rfl
  | later now σ _ hle ih => exact ih

/-! ### Conservation of credits -/

/-- What the sender of link `l` knows of its virtual channel `v`, for an output unit and for an interface that
sends the virtual network on this link. -/
lemma Flow.balance (h : Flow net s w) (l v : ℕ) :
    (senderVc net s.data (l, v)).creditCount + outstanding net s.data l v = net.buffersPerVc (vnetOf net (l, v)) := by
  have := (h.inv.holds (l, v)).balance
  rw [outstanding_eq]
  exact_mod_cast this

lemma Flow.outstanding_eq_zero (h : Flow net s w) {n l v : ℕ} (hl : l ∈ net.outLinks (.ni n))
    (hp : net.outportForVnet n (v / net.niVcPerVnet n) ≠ some l) : outstanding net s.data l v = 0 := by
  have hsrc := (Net.mem_outLinks.mp hl).2
  rw [outstanding_eq]
  cases hw : w (l, v) with
  | some wc =>
    have hleg := h.legal _ wc hw
    refine absurd (hleg.entry n hsrc) ?_
    rw [hleg.vnet, vnetOf_outLinks hl]
    exact hp
  | none =>
    have hfree : Wormhole.Free (params net) (l, v) (view net s.data (l, v)) := by
      have := h.inv.holds (l, v)
      rwa [hw] at this
    rw [hfree.wire, hfree.buf, hfree.back]
    rfl

/-- Credits are conserved: at every sender and for every virtual channel, the credits at the sender, the flits on
the way and in the receiver and the credits on the way back add up to the maximum. So the asserts of
`increment_credit` and `decrement_credit` do not fail, and no receiver holds more flits than it has buffers. -/
theorem credits_conserved (h : FreeReachable net s) :
    (∀ r, ∀ l ∈ net.outLinks (.router r), ∀ v, (s.data.outVcState (l, v)).creditCount + outstanding net s.data l v =
      (s.data.outVcState (l, v)).maxCreditCount) ∧
    (∀ n v, ((s.data.ni n).outVcState v).creditCount +
        (((net.outLinks (.ni n)).map fun l => outstanding net s.data l v).sum : ℕ) =
      ((s.data.ni n).outVcState v).maxCreditCount) ∧
    (∀ c ∈ net.consumerList, wakeup net c s ≠ .error .incrementCredit ∧ wakeup net c s ≠ .error .decrementCredit) ∧
    ∀ l v, flitsBuffered net s.data l v ≤ net.buffersPerVc (v / net.consumerVcs l) := by
  obtain ⟨w, hw⟩ := h.sound.flows
  refine ⟨fun r l hl v => ?_, fun n v => ?_, fun c hc => ⟨fun he => ?_, fun he => ?_⟩, fun l v => ?_⟩
  · have hsend : senderVc net s.data (l, v) = s.data.outVcState (l, v) := by
      simp [senderVc, (Net.mem_outLinks.mp hl).2]
    rw [← hsend, hw.balance, hsend, (hw.out (l, v)).max]
  · rw [(hw.niOut n v).max]
    cases hp : net.outportForVnet n (v / net.niVcPerVnet n) with
    | none =>
      have hzero : ((net.outLinks (.ni n)).map fun l => outstanding net s.data l v).sum = 0 := by
        refine sum_eq_zero fun x hx => ?_
        obtain ⟨l, hl, rfl⟩ := mem_map.mp hx
        exact hw.outstanding_eq_zero hl (by rw [hp]; simp)
      rw [hzero, h.unported n v hp, (hw.niOut n v).max]
      simp
    | some l =>
      have hl := (Net.outportForVnet_spec hp).1
      have hone : ((net.outLinks (.ni n)).map fun l => outstanding net s.data l v).sum = outstanding net s.data l v := by
        rw [sum_map_eq_nsmul_single l _ fun l' hne hl' => hw.outstanding_eq_zero hl' (by simpa [hp] using hne.symm),
          count_eq_one_of_mem (Net.nodup_outLinks _) hl, one_nsmul]
      rw [hone, ← senderVc_ni hp, hw.balance, vnetOf_outLinks hl]
  · exact absurd ((wakeup_spec hc h.sound).of_error he) (by simp [Benign, Fault.isFlow])
  · exact absurd ((wakeup_spec hc h.sound).of_error he) (by simp [Benign, Fault.isFlow])
  · have hb := hw.balance l v
    have hc : 0 ≤ (senderVc net s.data (l, v)).creditCount := (hw.inv.holds (l, v)).credit_nonneg
    unfold outstanding at hb
    unfold vnetOf at hb
    dsimp only at hb
    omega

/-- A flit of two is on its way: it is what interface `0` lacks of its four credits. -/
theorem credits_conserved_sendFirst : ∃ s, FreeReachable Net.two s ∧ flitsInFlight Net.two s.data 0 0 = 1 ∧
    ((s.data.ni 0).outVcState 0).creditCount + (((Net.two.outLinks (.ni 0)).map fun l =>
      outstanding Net.two s.data l 0).sum : ℕ) = ((s.data.ni 0).outVcState 0).maxCreditCount := by
  obtain ⟨s, hs, ht⟩ := exists_reachable Net.two sendFirst (fun s => flitsInFlight Net.two s.data 0 0 == 1)
    (by decide +kernel)
  have hfree := hs.free_schedOk.1
  exact ⟨s, hfree, beq_iff_eq.mp ht, (credits_conserved hfree).2.1 0 0⟩

/-! ### Exclusive use of virtual channels -/

/-- The flits in a buffer are consecutive flits of one packet, and only the last of them can be its last. -/
def IsSegment (buf : List Flit) : Prop :=
  ∃ (p : Packet) (i : ℕ), ∀ k f, buf[k]? = some f → f.packet = p ∧ f.id = i + k ∧ (f.isTail = true → k + 1 = buf.length)

/-- The receiver of virtual channel `v` of link `l` is idle and empty. -/
def ReceiverIdle (net : Net) (d : Data) (l v : ℕ) : Prop :=
  match (net.link l).dst with
  | .router _ => (d.virtualChannels (l, v)).vcState.1 = .idle ∧ (d.virtualChannels (l, v)).inputBuffer = []
  | .ni _ => (d.inPort l).stallQueue.countP (·.vc = v) = 0

lemma isSegment_of_seg {buf : List Flit} {p : Packet} {i j : ℕ} (h : buf.map tok = Wormhole.seg p i j) (hj : j ≤ p.size) :
    IsSegment buf := by
  have hlen : buf.length = j - i := by
    have := congrArg length h
    simpa [Wormhole.seg, slice] using this
  refine ⟨p, i, fun k f hf => ?_⟩
  have hk : k < buf.length := (List.getElem?_eq_some_iff.mp hf).1
  have htok : tok f = (p, i + k) := by
    have hget := congrArg (·[k]?) h
    simp only [getElem?_map, hf, Option.map_some, Wormhole.seg, slice,
      getElem?_range' (show k < j - i by omega)] at hget
    simpa using Option.some.inj hget
  obtain ⟨hp, hid⟩ := Prod.mk.inj htok
  have hsize : f.size = p.size := congrArg Packet.size hp
  grind [Flit.isTail_iff]

lemma Flow.free_of_idle (h : Flow net s w) {l v : ℕ} (hi : (senderVc net s.data (l, v)).vcState = .idle) :
    (senderVc net s.data (l, v)).creditCount = net.buffersPerVc (vnetOf net (l, v)) ∧
      flitsInFlight net s.data l v = 0 ∧ creditsInFlight s.data l v = 0 ∧ ReceiverIdle net s.data l v := by
  have hidle : (view net s.data (l, v)).idle = true := by
    change ((senderVc net s.data (l, v)).vcState == .idle) = true
    rw [hi]
    rfl
  obtain ⟨hw, hfree⟩ := (h.inv.holds (l, v)).free hidle
  have hbal := h.balance l v
  have hcredit : (senderVc net s.data (l, v)).creditCount = net.buffersPerVc (vnetOf net (l, v)) := hfree.credit
  unfold outstanding at hbal
  refine ⟨hcredit, by omega, by omega, ?_⟩
  have hbuf : flitsBuffered net s.data l v = 0 := by omega
  unfold ReceiverIdle
  unfold flitsBuffered at hbuf
  grind [Flow.idle_vc]

/-- A virtual channel is used by one packet at a time: (a) an output virtual channel is held by one input virtual
channel at most, (b) one that its sender takes for idle has all its credits, nothing is on the way, and its
receiver is idle and empty, (c) what an input virtual channel holds is a piece of one packet. So the asserts
about virtual channels do not fail. -/
theorem virtualChannel_exclusive (h : FreeReachable net s) :
    (∀ c c' lo v, (s.data.virtualChannels c).outputPort = some lo → (s.data.virtualChannels c).outputVc = some v →
      (s.data.virtualChannels c').outputPort = some lo → (s.data.virtualChannels c').outputVc = some v → c = c') ∧
    (∀ r, ∀ l ∈ net.outLinks (.router r), ∀ v, (s.data.outVcState (l, v)).vcState = .idle →
      (s.data.outVcState (l, v)).creditCount = (s.data.outVcState (l, v)).maxCreditCount ∧
      flitsInFlight net s.data l v = 0 ∧ creditsInFlight s.data l v = 0 ∧ ReceiverIdle net s.data l v) ∧
    (∀ n v, ((s.data.ni n).outVcState v).vcState = .idle →
      ((s.data.ni n).outVcState v).creditCount = ((s.data.ni n).outVcState v).maxCreditCount ∧
      ∀ l ∈ net.outLinks (.ni n),
        flitsInFlight net s.data l v = 0 ∧ creditsInFlight s.data l v = 0 ∧ ReceiverIdle net s.data l v) ∧
    (∀ r, ∀ l ∈ net.inLinks (.router r), ∀ u, IsSegment (s.data.virtualChannels (l, u)).inputBuffer) ∧
    ∀ c ∈ net.consumerList, ∀ e, wakeup net c s = .error e →
      e ∉ [Fault.headNotIdle, .bodyNotActive, .needStage, .readyAfterTail, .vcAllocate, .hasCredit] := by
  obtain ⟨w, hw⟩ := h.sound.flows
  have hactive : ∀ c lo, (s.data.virtualChannels c).outputPort = some lo → ∃ r, (net.link c.1).dst = .router r := by
    intro c lo hlo
    rcases (hw.vc c).state with ⟨-, hnone, -⟩ | ⟨-, r, _, hdst, -⟩
    · rw [hnone] at hlo
      cases hlo
    · exact ⟨r, hdst⟩
  have hnext : ∀ c lo v, (s.data.virtualChannels c).outputPort = some lo → (s.data.virtualChannels c).outputVc = some v →
      (view net s.data c).next = some (lo, v) := by
    intro c lo v hlo hv
    obtain ⟨r, hdst⟩ := hactive c lo hlo
    rw [view_router (isExit_of_router hdst)]
    simp [VirtualChannel.next, hlo, hv]
  refine ⟨fun c c' lo v h1 h2 h3 h4 => ?_, fun r l hl v hi => ?_, fun n v hi => ?_, fun r l hl u => ?_,
    fun c hc e he hmem => ?_⟩
  · exact hw.inv.inj c c' (lo, v) (hnext c lo v h1 h2) (hnext c' lo v h3 h4)
  · have hsend : senderVc net s.data (l, v) = s.data.outVcState (l, v) := by
      simp [senderVc, (Net.mem_outLinks.mp hl).2]
    rw [← hsend] at hi
    have := hw.free_of_idle hi
    rwa [hsend, ← (hw.out (l, v)).max] at this
  · -- on the port of the virtual network the channel is free, on others it always is
    have hport : ∀ l ∈ net.outLinks (.ni n), (senderVc net s.data (l, v)).vcState = .idle := by
      intro l hl
      unfold senderVc
      rw [(Net.mem_outLinks.mp hl).2]
      dsimp only
      split_ifs
      · exact hi
      · rfl
    refine ⟨?_, fun l hl => (hw.free_of_idle (hport l hl)).2⟩
    cases hp : net.outportForVnet n (v / net.niVcPerVnet n) with
    | none => exact h.unported n v hp
    | some l =>
      have hl := (Net.outportForVnet_spec hp).1
      have := (hw.free_of_idle (hport l hl)).1
      rwa [senderVc_ni hp, vnetOf_outLinks hl, ← (hw.niOut n v).max] at this
  · have hx := isExit_of_router (c := (l, u)) (Net.mem_inLinks.mp hl).2
    cases hbuf : (s.data.virtualChannels (l, u)).inputBuffer with
    | nil => exact ⟨⟨0, 0, 0, ⟨0, [], 0, 0, 0, 0, 0⟩, default⟩, 0, fun k f hf => (by simp at hf)⟩
    | cons f rest =>
      have hview : (view net s.data (l, u)).buf = (f :: rest).map tok := by rw [view_router hx, hbuf]
      obtain ⟨wc, -, hb⟩ := hw.inv.busy (c := (l, u)) (by simp [hview])
      exact isSegment_of_seg (hview.symm.trans hb.buf) (hb.rcvd_le.trans hb.sent_le)
  · have := (wakeup_spec hc h.sound).of_error he
    simp only [mem_cons, not_mem_nil, or_false] at hmem
    rcases hmem with rfl | rfl | rfl | rfl | rfl | rfl <;> cases this

/-- A flit of two is on its way, and the virtual channel it waits for at the router is idle and empty. -/
theorem virtualChannel_exclusive_sendFirst : ∃ s, FreeReachable Net.two s ∧ ((s.data.ni 0).outVcState 0).vcState = .active ∧
    ((s.data.ni 0).outVcState 1).vcState = .idle ∧ ReceiverIdle Net.two s.data 0 1 := by
  obtain ⟨s, hs, ht⟩ := exists_reachable Net.two sendFirst
    (fun s => ((s.data.ni 0).outVcState 0).vcState == .active && ((s.data.ni 0).outVcState 1).vcState == .idle)
    (by decide +kernel)
  have hfree := hs.free_schedOk.1
  simp only [Bool.and_eq_true, beq_iff_eq] at ht
  have hl : 0 ∈ Net.two.outLinks (.ni 0) := by decide +kernel
  exact ⟨s, hfree, ht.1, ht.2, (((virtualChannel_exclusive hfree).2.2.1 0 1 ht.2).2 0 hl).2.2⟩

end Gem5.Garnet
