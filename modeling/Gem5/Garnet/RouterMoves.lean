import Gem5.Garnet.FlowInterface

/-!
# The moves of a router's wakeup

`Router::wakeup` is a sequence of moves. It never stops at a check of flow control, given that the flow is
as it should be when it starts, and at its end no request is left and every buffer of the crossbar is
empty. The proof follows the four loops of `wakeup`: input units, output units, the two arbitration
phases of the switch allocator, and the crossbar.
-/

namespace Gem5.Garnet

open Sim Ruby Lib Function List RoutingUnit Data OutputUnit

/-- The checks of flow control: asserts about credits, about the states of virtual channels and about
taking a flit from an empty buffer. -/
def Fault.isFlow : Fault → Bool
  | .incrementCredit | .decrementCredit | .headNotIdle | .bodyNotActive | .needStage | .readyAfterTail | .vcAllocate
  | .hasCredit | .emptyBuffer => true
  | _ => false

/-- It is not a check of flow control that stops a wakeup. -/
def Benign (e : Fault) : Prop := e.isFlow = false

lemma benign_ensure {b : Bool} {e : Fault} (h : e.isFlow = false) : Sat Benign (fun _ => b = true) (ensure b e) :=
  Sat.ensure fun _ => h

def Flows (net : Net) (s : State) : Prop := ∃ w, Flow net s w

/-- Nothing is left over from a wakeup of a router. -/
def Quiet (d : Data) : Prop := ∀ l, d.portRequests l = none ∧ d.switchBuffers l = []

variable {net : Net} {s : State} {self : ConsumerId}

variable {s' : State} {r : ℕ}

lemma Moves.flows {tr : List Label} (h : Moves net self s tr s') (hf : Flows net s) : Flows net s' :=
  h.invariant (fun _ _ _ hm ⟨_, hf⟩ => hf.move hm) hf

lemma Move.networkLink_of_ne {l l' : ℕ} (h : Move net self s (.arrive l) s') (hl : l' ≠ l) :
    s'.data.networkLink l' = s.data.networkLink l' := by
  cases h with
  | arrive => exact update_of_ne hl ..

lemma Move.linkBuffer_eq (h : Move net (.router r) s .quiet s') (l : ℕ) :
    (s'.data.networkLink l).linkBuffer = (s.data.networkLink l).linkBuffer := by
  cases h with
  | @traverse _ _ lo =>
    by_cases he : l = lo
    · subst he
      simp [Data.traverse, Data.pushFlit, Data.setSwitch, Data.setLink]
    · exact congrArg LinkState.linkBuffer (update_of_ne he ..)
  | link _ hself => cases hself
  | send hn => cases hn
  | absorb hn => cases hn
  | eject hn => cases hn
  | stall hn => cases hn
  | unstall hn => cases hn
  | _ => rfl

lemma Moves.linkBuffer_eq (h : Moves net (.router r) s [] s') (l : ℕ) :
    (s'.data.networkLink l).linkBuffer = (s.data.networkLink l).linkBuffer := by
  generalize htr : ([] : List Label) = tr at h
  induction h with
  | refl => rfl
  | @tail tr a _ _ _ hm ih =>
    by_cases ha : a = .quiet
    · grind [Move.linkBuffer_eq]
    · rw [if_neg ha] at htr
      simp at htr

/-! ### Input units -/

namespace InputUnit

variable {r l : ℕ}

lemma lookupRoutingTable_sat (now vnet : ℕ) (dest : List ℕ) (σ : Sched) :
    Sat Benign (fun x => SchedOps net now self σ x.2) (lookupRoutingTable net r vnet dest σ) := by
  unfold lookupRoutingTable
  dsimp only
  split
  · exact rfl
  · split_ifs
    · exact .refl
    · exact .draw .refl

lemma outportComputeXY_sat (route : RouteInfo) (dirn : PortDirection) :
    Sat Benign (fun _ => True) (outportComputeXY net r route dirn) := by
  have hdirn : ∀ dirn, Sat Benign (fun _ => True) (outportOfDirn net r dirn) := by
    intro dirn
    unfold outportOfDirn
    dsimp only
    split
    · exact trivial
    · exact trivial
    · exact rfl
  have hcheck : ∀ b : Bool, Sat Benign (fun _ => b = true) (ensure b Fault.xyRouting) := fun b => Sat.ensure fun _ => rfl
  unfold outportComputeXY
  refine (hcheck _).bind fun _ _ => (hcheck _).bind fun _ _ => Sat.ite (fun _ => Sat.ite ?_ ?_) fun _ => Sat.ite ?_ ?_ <;>
    exact fun _ => (hcheck _).bind fun _ _ => hdirn _

lemma outportCompute_sat (now : ℕ) (route : RouteInfo) (inport : ℕ) (σ : Sched) :
    Sat Benign (fun x => SchedOps net now self σ x.2) (outportCompute net r route inport σ) := by
  unfold outportCompute
  refine Sat.ite (fun _ => lookupRoutingTable_sat ..) fun _ => ?_
  split
  · exact lookupRoutingTable_sat ..
  · exact (outportComputeXY_sat ..).bind fun _ _ => .refl
  · exact rfl

variable (self) in
lemma enter_spec {now : ℕ} {f : Flit} {vc : VirtualChannel} {σ : Sched}
    (hhead : f.isHead = true → vc.vcState.1 = .idle) (hbody : f.isHead = false → vc.vcState.1 = .active) :
    Sat Benign (fun x => Entered net now r l f vc x.1 ∧ SchedOps net now self σ x.2) (enter net now r l f vc σ) := by
  unfold enter
  split_ifs with hf
  · refine (Sat.ensure fun h => ?_).bind fun _ hidle => ?_
    · rw [hhead hf] at h
      cases h
    · have hsat : Sat Benign (fun x => SchedOps net now self σ x.2) (outportCompute net r f.route l σ) :=
        outportCompute_sat ..
      cases hr : outportCompute net r f.route l σ with
      | error e => exact hsat.of_error hr
      | ok x => exact ⟨.head hf (beq_iff_eq.mp hidle) ⟨σ, x.2, hr⟩, hsat.of_ok hr⟩
  · refine (Sat.ensure fun h => ?_).bind fun _ hact => ?_
    · rw [hbody (by simpa using hf)] at h
      cases h
    · exact ⟨.other (by simpa using hf) (beq_iff_eq.mp hact), .refl⟩

lemma pipeline_spec {now : ℕ} {σ : Sched} (hr : self = .router r) :
    Sat Benign (fun x => x.1 = saTime net now r ∧ SchedOps net now self σ x.2 ∧
      (net.routerLatency r ≠ 1 → x.2.Asked net (.router r) (saTime net now r))) (pipeline net now r σ) := by
  unfold pipeline saTime
  by_cases h1 : net.routerLatency r = 1
  · rw [if_pos h1, if_pos h1]
    exact ⟨rfl, .refl, fun h => absurd h1 h⟩
  · rw [if_neg h1, if_neg h1]
    refine (benign_ensure rfl).bind fun _ hlat => ⟨rfl, ?_, fun _ => asked_scheduleWakeup r _⟩
    have := of_decide_eq_true hlat
    exact SchedOps.refl.wakeup r _ hr (by omega)

lemma wakeup_spec (hf : Flows net s) (hl : l ∈ net.inLinks (.router r)) :
    Sat Benign (fun s' => (s' = s ∨ Move net (.router r) s (.arrive l) s') ∧
      (isReady (s'.data.networkLink l).linkBuffer s.now = true →
        s'.sched.Asked net (.router r) (clockEdge (net.period (.router r)) s.now 1))) (wakeup net r s l) := by
  unfold wakeup
  cases hbuf : (s.data.networkLink l).linkBuffer with
  | nil => exact ⟨Or.inl rfl, fun h => by rw [hbuf] at h; cases h⟩
  | cons f rest =>
    refine Sat.ite (fun htime => ?_) fun htime => ⟨Or.inl rfl, fun h => ?_⟩
    · obtain ⟨w, hw⟩ := hf
      obtain ⟨wc, -, -, hhead, hact⟩ := hw.front hl hbuf
      refine (benign_ensure rfl).bind fun _ _ => ?_
      refine (enter_spec (.router r) (fun h => ?_) fun h => ?_).bind fun x hx => ?_
      · rcases (hw.vc (l, f.vc)).state with h' | h'
        · exact h'.1
        · have h0 := hhead.mp h
          have := hact.mp h'.1
          omega
      · refine hact.mpr (Nat.pos_of_ne_zero fun h0 => ?_)
        rw [show f.incrementHops.isHead = f.isHead from rfl, hhead.mpr h0] at h
        cases h
      · obtain ⟨hent, hops⟩ := hx
        refine (pipeline_spec rfl).bind fun y hy => ?_
        obtain ⟨t, σ⟩ := y
        obtain ⟨rfl, hops', hsa⟩ := hy
        have hread : ∀ d : Data, ((d.setLink l { d.networkLink l with linkBuffer := rest }).networkLink l).linkBuffer = rest :=
          fun d => by simp [setLink]
        by_cases hmore : isReady rest s.now = true
        · have hops1 : SchedOps net s.now (.router r) σ (σ.scheduleWakeup net s.now r 1) := .wakeup r 1 rfl le_rfl .refl
          simp only [if_pos hmore]
          refine ⟨Or.inr (.arrive rfl hl hbuf htime hent ((hops.trans hops').trans hops1)
            (fun h => (hsa h).mono hops1) fun _ => asked_scheduleWakeup r 1), fun _ => asked_scheduleWakeup r 1⟩
        · simp only [if_neg hmore]
          refine ⟨Or.inr (.arrive rfl hl hbuf htime hent (hops.trans hops') hsa fun h => absurd h hmore), fun h => ?_⟩
          simp only [setVc, hread] at h
          exact absurd h hmore
    · rw [hbuf] at h
      exact absurd (of_decide_eq_true h) htime

/-- What the input ports have to be told of in the next cycle. -/
def Asking (net : Net) (now r : ℕ) (ls : List ℕ) (d : Data) (σ : Sched) : Prop :=
  ∀ l ∈ ls, isReady (d.networkLink l).linkBuffer now = true →
    σ.Asked net (.router r) (clockEdge (net.period (.router r)) now 1)

lemma loop_sat (hf : Flows net s) (hq : Quiet s.data) :
    Sat Benign (fun s' => (∃ tr, Moves net (.router r) s tr s' ∧ tr.Sublist ((net.inLinks (.router r)).map .arrive)) ∧
        Quiet s'.data ∧ Asking net s.now r (net.inLinks (.router r)) s'.data s'.sched)
      ((net.inLinks (.router r)).foldlM (wakeup net r) s) := by
  refine Sat.foldlM (fun done s' => (∃ tr, Moves net (.router r) s tr s' ∧ tr.Sublist (done.map .arrive)) ∧ Quiet s'.data ∧
    Asking net s.now r done s'.data s'.sched) ⟨⟨[], .refl, List.Sublist.refl _⟩, hq, fun l hl => (by cases hl)⟩ ?_
  rintro done l rest s1 hls ⟨⟨tr, hmoves, htr⟩, hq1, hask⟩
  have hl : l ∈ net.inLinks (.router r) := by rw [hls]; simp
  have hnow : s1.now = s.now := hmoves.now
  refine (wakeup_spec (hmoves.flows hf) hl).mono fun s' hs' => ?_
  obtain ⟨hstep, hready⟩ := hs'
  rw [hnow] at hready
  rcases hstep with rfl | hm
  · refine ⟨⟨tr, hmoves, ?_⟩, hq1, fun l' hl' => ?_⟩
    · simp_all
    · rcases mem_append.mp hl' with hl' | hl'
      · exact hask l' hl'
      simp_all
  · refine ⟨⟨tr ++ [.arrive l], hmoves.trans (hm.moves (by simp)), ?_⟩, fun l' => ?_, fun l' hl' hr' => ?_⟩
    · simp_all
    · cases hm with
      | arrive => exact hq1 l'
    · by_cases he : l' = l
      · subst he
        exact hready hr'
      · have hmem : l' ∈ done := by simpa [he] using hl'
        refine (hask l' hmem ?_).mono hm.schedOps
        rwa [hm.networkLink_of_ne he] at hr'

end InputUnit

/-! ### Output units -/

lemma outputUnit_mem {l : ℕ} (hl : l < net.links.length) : .outputUnit l ∈ net.consumerList ∧
    .networkLink l ∈ net.consumerList ∧ .creditLink l ∈ net.consumerList := by
  simp [Net.consumerList, hl]

lemma incrementCredit_sat {o : OutVcState} (h : o.creditCount + 1 ≤ o.maxCreditCount) :
    Sat Benign (fun o' => o.incrementCredit = .ok o') o.incrementCredit := by
  unfold OutVcState.incrementCredit
  simp [h]

namespace OutputUnit

variable {r l : ℕ}

lemma wakeup_spec (hf : Flows net s) (hl : l ∈ net.outLinks (.router r)) (hself : self = .router r ∨ self = .outputUnit l) :
    Sat Benign (fun s' => (s' = s ∨ Move net self s .quiet s' ∧
        ∃ c rest o σ, s' = ⟨s.now, s.data.refund l c rest o, σ⟩) ∧
      (isReady (s'.data.creditLink l).linkBuffer s.now = true →
        s'.sched.Asked net (.outputUnit l) (clockEdge (net.period (.router r)) s.now 1)))
      (wakeup net r s l) := by
  obtain ⟨hlt, hsrc⟩ := Net.mem_outLinks.mp hl
  unfold wakeup
  cases hbuf : (s.data.creditLink l).linkBuffer with
  | nil =>
    refine ⟨Or.inl rfl, fun h => ?_⟩
    rw [hbuf] at h
    cases h
  | cons c rest =>
    refine Sat.ite (fun htime => ?_) fun htime => ⟨Or.inl rfl, fun h => ?_⟩
    · obtain ⟨w, hw⟩ := hf
      have hroom := hw.room (backOf_front hbuf)
      have hsend : senderVc net s.data (l, c.vc) = s.data.outVcState (l, c.vc) := by simp [senderVc, hsrc]
      rw [hsend, ← (hw.out (l, c.vc)).max] at hroom
      refine (incrementCredit_sat hroom).bind fun o ho => ?_
      have hread : ∀ d : Data, ((d.setCredit l { d.creditLink l with linkBuffer := rest }).creditLink l).linkBuffer = rest :=
        fun d => by simp [setCredit]
      by_cases hmore : isReady rest s.now = true
      · have hops : SchedOps net s.now self s.sched
            (s.sched.deferOrSchedule net s.now (.outputUnit l) (clockEdge (net.period (.router r)) s.now 1)) :=
          SchedOps.refl.deferOrSchedule (.router r) (outputUnit_mem hlt).1 (isDelay_one net)
        simp only [if_pos hmore]
        exact ⟨Or.inr ⟨.refund hself hl hbuf htime ho hops fun _ => asked_deferOrSchedule _ _, _, _, _, _, rfl⟩,
          fun _ => asked_deferOrSchedule _ _⟩
      · simp only [if_neg hmore]
        refine ⟨Or.inr ⟨.refund hself hl hbuf htime ho .refl fun h => absurd h hmore, _, _, _, _, rfl⟩, fun h => ?_⟩
        simp only [setOutVc, hread] at h
        exact absurd h hmore
    · rw [hbuf] at h
      exact absurd (of_decide_eq_true h) htime

/-- What the output ports have to be told of in the next cycle. -/
def Asking (net : Net) (now r : ℕ) (ls : List ℕ) (d : Data) (σ : Sched) : Prop :=
  ∀ l ∈ ls, isReady (d.creditLink l).linkBuffer now = true →
    σ.Asked net (.outputUnit l) (clockEdge (net.period (.router r)) now 1)

lemma loop_sat (hf : Flows net s) (hq : Quiet s.data) :
    Sat Benign (fun s' => Moves net (.router r) s [] s' ∧ Quiet s'.data ∧
        Asking net s.now r (net.outLinks (.router r)) s'.data s'.sched)
      ((net.outLinks (.router r)).foldlM (wakeup net r) s) := by
  refine Sat.foldlM (fun done s' => Moves net (.router r) s [] s' ∧ Quiet s'.data ∧ Asking net s.now r done s'.data s'.sched)
    ⟨.refl, hq, fun l hl => (by cases hl)⟩ ?_
  rintro done l rest s1 hls ⟨hmoves, hq1, hask⟩
  have hl : l ∈ net.outLinks (.router r) := by rw [hls]; simp
  have hnow : s1.now = s.now := hmoves.now
  refine (wakeup_spec (hmoves.flows hf) hl (Or.inl rfl)).mono fun s' hs' => ?_
  obtain ⟨hstep, hready⟩ := hs'
  rw [hnow] at hready
  rcases hstep with rfl | ⟨hm, c, rest, o, σ, rfl⟩
  · refine ⟨hmoves, hq1, fun l' hl' => ?_⟩
    rcases mem_append.mp hl' with hl' | hl'
    · exact hask l' hl'
    simp_all
  · refine ⟨hmoves.tail hm, hq1, fun l' hl' hr' => ?_⟩
    by_cases he : l' = l
    · subst he
      exact hready hr'
    · have hmem : l' ∈ done := by simpa [he] using hl'
      have hsame : (s1.data.refund l c rest o).creditLink l' = s1.data.creditLink l' := update_of_ne he ..
      refine (hask l' hmem ?_).mono hm.schedOps
      rwa [hsame] at hr'

end OutputUnit

/-! ### Switch allocation -/

namespace SwitchAllocator

variable {r l u : ℕ}

variable {w : Worms} {lo v li : ℕ} {f : Flit} {rest : List Flit} {d : Data}

section

variable (h : Flow net s w) (hl : l ∈ net.inLinks (.router r))
include h hl

/-- `need_stage` never stops, and says whether the front flit is ready. -/
lemma needStage_spec (u : ℕ) {t : ℕ} (ht : s.now ≤ t) : ∃ b, (s.data.virtualChannels (l, u)).needStage .sa t = .ok b ∧
      (b = true ↔ ∃ f rest, (s.data.virtualChannels (l, u)).inputBuffer = f :: rest ∧ f.time ≤ t ∧ f.isStage .sa t = true) := by
  unfold VirtualChannel.needStage
  cases hbuf : (s.data.virtualChannels (l, u)).inputBuffer with
  | nil => exact ⟨false, rfl, by simp⟩
  | cons f rest =>
    dsimp only
    by_cases hf : f.time ≤ t
    · obtain ⟨-, -, -, -, hact⟩ := h.top hl hbuf
      have htime := (h.vc (l, u)).time
      rw [if_pos hf, if_pos ⟨hact, htime.trans ht⟩]
      simp_all
    simp_all

lemma isOlder_ok (outport enqueueTime u : ℕ) : ∃ b, isOlder s.now l outport enqueueTime s.data u = .ok b := by
  obtain ⟨b, hb, -⟩ := needStage_spec h hl u le_rfl
  unfold isOlder
  dsimp only
  rw [hb]
  exact ⟨_, rfl⟩

lemma hasCredit_sat (hport : (s.data.virtualChannels (l, u)).outputPort = some lo)
    (hvc : (s.data.virtualChannels (l, u)).outputVc = some v) :
    Sat Benign (fun b => hasCredit s.now lo v s.data = .ok b) (hasCredit s.now lo v s.data) := by
  have hx : isExit net (l, u) = false := isExit_of_router (Net.mem_inLinks.mp hl).2
  have hn : (view net s.data (l, u)).next = some (lo, v) := by
    rw [view_router hx]
    simp [VirtualChannel.next, hport, hvc]
  obtain ⟨-, wd, -, hd, -, -, -, he⟩ := h.inv.next _ _ hn
  have hb : Wormhole.Busy (params net) (lo, v) (view net s.data (lo, v)) wd := by
    have := h.inv.holds (lo, v)
    rwa [hd] at this
  have hsend : senderVc net s.data (lo, v) = s.data.outVcState (lo, v) := by
    have he : isEntry net (lo, v) = false := he
    unfold senderVc
    unfold isEntry at he
    grind
  have hact : (s.data.outVcState (lo, v)).isInState .active s.now = true := by
    have hi : ((senderVc net s.data (lo, v)).vcState == .idle) = false := hb.idle
    have ho := h.out (lo, v)
    rw [hsend] at hi
    rcases ho.state with hs | hs
    · rw [hs] at hi
      cases hi
    · simp [OutVcState.isInState, hs, ho.time]
  unfold hasCredit
  rw [hact]
  exact rfl

/-- `send_allowed` never stops at a check of flow control, and says what it means. -/
lemma sendAllowed_sat (hport : (s.data.virtualChannels (l, u)).outputPort = some lo) :
    Sat Benign (fun b => b = true → u / net.vcPerVnet r < net.virtualNetworks ∧
        (match (s.data.virtualChannels (l, u)).outputVc with
          | none => hasFreeVc net s.now lo (u / net.vcPerVnet r) s.data = true
          | some v => hasCredit s.now lo v s.data = .ok true) ∧
        (net.isVnetOrdered (u / net.vcPerVnet r) = true → ∀ i < net.vcPerVnet r,
          isOlder s.now l lo (s.data.virtualChannels (l, u)).enqueueTime s.data
            (u / net.vcPerVnet r * net.vcPerVnet r + i) = .ok false))
      (sendAllowed net s.now r l u lo (s.data.virtualChannels (l, u)).outputVc s.data) := by
  unfold sendAllowed getVnet
  refine Sat.bind (Q := fun vnet => vnet = u / net.vcPerVnet r ∧ u / net.vcPerVnet r < net.virtualNetworks)
    ((benign_ensure rfl).bind fun _ hv => ⟨rfl, of_decide_eq_true hv⟩) ?_
  rintro _ ⟨rfl, hv⟩
  -- the second half of the function, for an answer to whether the output port is ready
  have hrest : ∀ (b : Bool) (P : Prop), (b = true → P) → Sat Benign (fun b => b = true →
      u / net.vcPerVnet r < net.virtualNetworks ∧ P ∧ (net.isVnetOrdered (u / net.vcPerVnet r) = true →
        ∀ i < net.vcPerVnet r, isOlder s.now l lo (s.data.virtualChannels (l, u)).enqueueTime s.data
          (u / net.vcPerVnet r * net.vcPerVnet r + i) = .ok false))
      (if b then
        if net.isVnetOrdered (u / net.vcPerVnet r) then do
          let older ← ((range (net.vcPerVnet r)).map (u / net.vcPerVnet r * net.vcPerVnet r + ·)).anyM
            (isOlder s.now l lo (s.data.virtualChannels (l, u)).enqueueTime s.data)
          pure (!older)
        else pure true
      else pure false) := by
    intro b P hb
    refine Sat.ite (fun hbt => Sat.ite (fun ho => ?_) fun ho => ?_) fun _ h => by cases h
    · obtain ⟨c, hc, hiff⟩ := anyM_eq_ok (p := isOlder s.now l lo (s.data.virtualChannels (l, u)).enqueueTime s.data)
        (l := (range (net.vcPerVnet r)).map (u / net.vcPerVnet r * net.vcPerVnet r + ·))
        fun x _ => isOlder_ok h hl lo _ x
      rw [hc]
      refine fun hcf => ⟨hv, hb hbt, fun _ i hi => ?_⟩
      obtain ⟨e, he⟩ := isOlder_ok h hl lo (s.data.virtualChannels (l, u)).enqueueTime
        (u / net.vcPerVnet r * net.vcPerVnet r + i)
      cases e with
      | false => exact he
      | true => simp_all
    · exact fun _ => ⟨hv, hb hbt, fun h => absurd h ho⟩
  cases hvc : (s.data.virtualChannels (l, u)).outputVc with
  | none => exact hrest _ _ id
  | some v => exact (hasCredit_sat h hl hport hvc).bind fun b hb => hrest b _ fun ht => by rw [ht] at hb; exact hb

/-- What `arbitrate_inports` finds at an input port may go. -/
lemma findWinner_sat (us : List ℕ) :
    Sat Benign (fun o => ∀ lo u, o = some (lo, u) → ∃ f rest, Request net s.now r l u lo f rest s.data)
      (findWinner net s.now r l s.data us) := by
  induction us with
  | nil => exact fun _ _ h => by cases h
  | cons u us ih =>
    unfold findWinner
    obtain ⟨b, hb, hiff⟩ := needStage_spec h hl u le_rfl
    dsimp only
    rw [hb]
    cases b with
    | false => exact ih
    | true =>
      obtain ⟨f, rest, hbuf, htime, hstage⟩ := hiff.mp rfl
      change Sat Benign _ (match (s.data.virtualChannels (l, u)).outputPort with
        | none => _
        | some outport => _)
      cases hport : (s.data.virtualChannels (l, u)).outputPort with
      | none => exact rfl
      | some lo =>
        refine (sendAllowed_sat h hl hport).bind fun b hsend => ?_
        cases b with
        | false => exact ih
        | true =>
          intro lo' u' heq
          cases heq
          obtain ⟨h1, h2, h3⟩ := hsend rfl
          exact ⟨f, rest, h1, hbuf, htime, hstage, hport, h2, h3⟩

end

/-- The requests of a router are well founded: each was found by `arbitrate_inports`, and its port has put
nothing into the crossbar yet. Requests for output ports in `done` do not count any more. -/
def Requests (net : Net) (now r : ℕ) (done : List ℕ) (d : Data) : Prop :=
  ∀ li ∈ net.inLinks (.router r), ∀ lo, d.portRequests li = some lo → lo ∉ done →
    d.switchBuffers li = [] ∧ ∃ u f rest, d.vcWinners li = some u ∧ Request net now r li u lo f rest d

lemma arbitrateInports_sat (hf : Flows net s) (hq : Quiet s.data) :
    Sat Benign (fun d => Move net (.router r) s .quiet { s with data := d } ∧ d.switchBuffers = s.data.switchBuffers ∧
        d.creditLink = s.data.creditLink ∧
        (∀ l, l ∉ net.inLinks (.router r) → d.portRequests l = none) ∧ Requests net s.now r [] d)
      ((net.inLinks (.router r)).foldlM (arbitrateInport net s.now r) s.data) := by
  obtain ⟨w, hw⟩ := hf
  have hloop : Sat Benign (fun d => ∃ pr vw, d = { s.data with portRequests := pr, vcWinners := vw } ∧
        (∀ l, l ∉ net.inLinks (.router r) → pr l = none) ∧
        ∀ li lo, pr li = some lo → ∃ u f rest, vw li = some u ∧ Request net s.now r li u lo f rest s.data)
      ((net.inLinks (.router r)).foldlM (arbitrateInport net s.now r) s.data) := by
    refine Sat.foldlM_const ⟨s.data.portRequests, s.data.vcWinners, rfl, fun l _ => (hq l).1, fun li lo h => ?_⟩ ?_
    · rw [(hq li).1] at h
      cases h
    · rintro l hl _ ⟨pr, vw, rfl, hother, hreq⟩
      have hw' : Flow net { s with data := { s.data with portRequests := pr, vcWinners := vw } } w :=
        hw.same (hw.records rfl rfl rfl (fun _ => id) rfl (fun _ => rfl) fun _ => rfl) rfl rfl
      unfold arbitrateInport
      refine (findWinner_sat hw' hl _).bind fun o ho => ?_
      cases o with
      | none => exact ⟨pr, vw, rfl, hother, hreq⟩
      | some x =>
        obtain ⟨f, rest, hr⟩ := ho x.1 x.2 rfl
        refine ⟨_, _, rfl, fun l' hl' => ?_, fun li lo h => ?_⟩
        · grind
        · by_cases hli : li = l
          · subst hli
            rw [update_self] at h
            cases h
            exact ⟨x.2, f, rest, update_self .., hr.congr (fun _ => rfl) fun _ => rfl⟩
          grind
  refine hloop.mono ?_
  rintro _ ⟨pr, vw, rfl, hother, hreq⟩
  refine ⟨.requests pr vw rfl, rfl, rfl, hother, fun li _ lo h _ => ⟨(hq li).2, ?_⟩⟩
  obtain ⟨u, f, rest, hu, hr⟩ := hreq li lo h
  exact ⟨u, f, rest, hu, hr.congr (fun _ => rfl) fun _ => rfl⟩

lemma outvc_exists {now : ℕ} (h : Request net now r li u lo f rest d) : ∃ v, Gets net now r li u lo d v := by
  have hallow := h.allowed
  cases hvc : (d.virtualChannels (li, u)).outputVc with
  | some v => exact ⟨v, Or.inl hvc⟩
  | none =>
    rw [hvc] at hallow
    obtain ⟨v0, hv0, hidle₀⟩ := any_eq_true.mp hallow
    cases hfind : (vcsOf net lo (u / net.vcPerVnet r)).find? (isVcIdle now lo d) with
    | none => exact absurd hidle₀ (find?_eq_none.mp hfind v0 hv0)
    | some v => exact ⟨v, Or.inr ⟨hvc, hfind⟩⟩

lemma outvcFor_eq {now : ℕ} (h : Request net now r li u lo f rest d) (hv : Gets net now r li u lo d v) :
    outvcFor net now r lo li u d = .ok (v, (d.setOutVc (lo, v) { d.outVcState (lo, v) with
        time := if (d.virtualChannels (li, u)).outputVc = none then now else (d.outVcState (lo, v)).time
        vcState := .active }).setVc (li, u) { d.virtualChannels (li, u) with outputVc := some v }) := by
  unfold outvcFor
  rcases hv with hv | ⟨hv, hfind⟩
  · -- it has one, which is active
    have hact : (d.outVcState (lo, v)).vcState = .active := by
      have hallow := h.allowed
      rw [hv] at hallow
      obtain ⟨_, hst, -⟩ := bind_eq_ok.mp hallow
      have := ensure_eq_ok.mp hst
      simp only [OutVcState.isInState, Bool.and_eq_true, beq_iff_eq] at this
      exact this.1
    have h1 : ({ d.outVcState (lo, v) with
        time := if (d.virtualChannels (li, u)).outputVc = none then now else (d.outVcState (lo, v)).time
        vcState := .active } : OutVcState) = d.outVcState (lo, v) := by
      rw [hv, if_neg (by simp), ← hact]
    have h2 : ({ d.virtualChannels (li, u) with outputVc := some v } : VirtualChannel) = d.virtualChannels (li, u) := by
      rw [← hv]
    rw [h1, h2, hv]
    simp [setOutVc, setVc]
  · rw [hv]
    dsimp only
    have hvnet : getVnet net r u = .ok (u / net.vcPerVnet r) := by
      rw [getVnet, decide_eq_true h.vnet]
      rfl
    unfold vcAllocate selectFreeVc
    rw [hvnet]
    dsimp only [bind, Except.bind]
    rw [hfind, if_pos rfl]
    rfl

/-- `grant`, when none of its checks fails. -/
lemma grant_eq {o : OutVcState}
    (hwin : s.data.vcWinners li = some u) (hout : outvcFor net s.now r lo li u s.data = .ok (v, d))
    (hbuf : (d.virtualChannels (li, u)).inputBuffer = f :: rest) (hdec : (d.outVcState (lo, v)).decrementCredit = .ok o)
    (hready : (!f.isTail || !isReady rest s.now) = true) : grant net r lo li s =
      .ok ⟨s.now, updateArbiters net r lo li u ((((d.setOutVc (lo, v) o).setSwitch li (d.switchBuffers li ++
          [{ f with outport := some lo, vc := v }.advanceStage .st s.now])).setVc (li, u)
          (if f.isTail then { d.virtualChannels (li, u) with inputBuffer := rest }.setIdle s.now
            else { d.virtualChannels (li, u) with inputBuffer := rest })).pushCredit li ⟨u, f.isTail, s.now⟩),
        s.sched.deferOrSchedule net s.now (.creditLink li) (clockEdge (net.period (.router r)) s.now 1)⟩ := by
  unfold grant
  rw [hwin]
  dsimp only
  rw [hout]
  dsimp only [bind, Except.bind]
  rw [hbuf]
  dsimp only
  rw [hdec]
  dsimp only
  rw [show (!(Flit.advanceStage .st s.now { f with vc := v, outport := some lo }).isTail || !isReady rest s.now) = true
    from hready]
  rfl

lemma grant_sat (hf : Flows net s) (hli : li ∈ net.inLinks (.router r))
    (hlo : lo ∈ net.outLinks (.router r)) (hwin : s.data.vcWinners li = some u)
    (hreq : Request net s.now r li u lo f rest s.data) (hsw : switchFor net s.data lo = []) :
    ∃ v s', grant net r lo li s = .ok s' ∧ s'.now = s.now ∧ s'.data = s.data.forward net s.now r lo li u v f rest ∧
      Move net (.router r) s .quiet s' := by
  obtain ⟨w, hw⟩ := hf
  obtain ⟨v, hv⟩ := outvc_exists hreq
  obtain ⟨hgo, -⟩ := hw.goes hli hlo hreq hv
  obtain ⟨-, hrest, -⟩ := hw.forward hli hlo hreq hv hsw s.sched
  have hcredit : 0 < (s.data.outVcState (lo, v)).creditCount := by
    have hsend : senderVc net s.data (lo, v) = s.data.outVcState (lo, v) := by
      simp [senderVc, (Net.mem_outLinks.mp hlo).2]
    rw [← hsend]
    rcases hgo with ⟨-, hc⟩ | ⟨-, hi⟩
    · exact hc
    · have hc : (senderVc net s.data (lo, v)).creditCount = (params net).depth (lo, v) := ((hw.inv.holds _).free hi).2.credit
      grind [Flow.depth_pos]
  have hdec : ∀ o : OutVcState, 0 < o.creditCount → o.decrementCredit = .ok { o with creditCount := o.creditCount - 1 } := by
    intro o ho
    unfold OutVcState.decrementCredit
    dsimp only
    rw [if_pos (by omega)]
  have hready : (!f.isTail || !isReady rest s.now) = true := by
    cases ht : f.isTail with
    | false => rfl
    | true => rw [hrest ht]; rfl
  have hok := grant_eq hwin (outvcFor_eq hreq hv) (by simpa only [setVc, update_self] using hreq.buf)
    (hdec _ (by simpa only [setVc, setOutVc, update_self] using hcredit)) hready
  refine ⟨v, ⟨s.now, s.data.forward net s.now r lo li u v f rest, _⟩, ?_, rfl, rfl, .forward rfl hli hlo hreq hv hsw
    (SchedOps.refl.deferOrSchedule (.router r) (outputUnit_mem (Net.mem_inLinks.mp hli).1).2.2 (isDelay_one net))
    (asked_deferOrSchedule _ _)⟩
  rw [hok]
  simp only [forward, setSwitch, setVc, setOutVc, update_idem, update_self]
  cases f.isTail <;> rfl

/-- A buffer of the crossbar of router `r` holds nothing, or one flit that leaves in this wakeup. -/
def Loaded (net : Net) (now r : ℕ) (b : List Flit) : Prop :=
  b = [] ∨ ∃ f lo, b = [f] ∧ f.outport = some lo ∧ lo ∈ net.outLinks (.router r) ∧ f.time ≤ now ∧ f.isStage .st now = true

/-- How far the second phase has come when it is done with the output ports in `done`. -/
structure Granted (net : Net) (r : ℕ) (done : List ℕ) (s s' : State) : Prop where
  moves : Moves net (.router r) s [] s'
  requests : Requests net s.now r done s'.data
  free : ∀ lo ∈ net.outLinks (.router r), lo ∉ done → switchFor net s'.data lo = []
  one : ∀ lo ∈ net.outLinks (.router r), (switchFor net s'.data lo).length ≤ 1
  loaded : ∀ l, Loaded net s.now r (s'.data.switchBuffers l)
  other : ∀ l, l ∉ net.inLinks (.router r) → s'.data.portRequests l = none ∧ s'.data.switchBuffers l = []
  credits : ∀ l, (s'.data.creditLink l).linkBuffer = (s.data.creditLink l).linkBuffer

lemma arbitrateOutport_sat {s0 : State} {done : List ℕ} (hf : Flows net s0) (h : Granted net r done s0 s)
    (hlo : lo ∈ net.outLinks (.router r)) (hdone : lo ∉ done) :
    Sat Benign (Granted net r (done ++ [lo]) s0) (arbitrateOutport net r s lo) := by
  have hnow : s.now = s0.now := h.moves.now
  unfold arbitrateOutport
  dsimp only
  cases hfind : ((net.inLinks (.router r)).rotate (s.data.roundRobinInport lo)).find?
      (fun l => s.data.portRequests l == some lo) with
  | none =>
    exact { h with
      requests := fun li hli lo' hpr hne => h.requests li hli lo' hpr fun hm => hne (mem_append_left _ hm)
      free := fun lo' hlo' hne => h.free lo' hlo' fun hm => hne (mem_append_left _ hm) }
  | some li =>
    have hli : li ∈ net.inLinks (.router r) := mem_rotate.mp (mem_of_find?_eq_some hfind)
    have hpr : s.data.portRequests li = some lo := by simpa using find?_some hfind
    obtain ⟨hempty, u, f, rest, hwin, hreq⟩ := h.requests li hli lo hpr hdone
    rw [← hnow] at hreq
    have hfree := h.free lo hlo hdone
    obtain ⟨v, s', hok, hnow', hdata, hmove⟩ := grant_sat (h.moves.flows hf) hli hlo hwin hreq hfree
    have hsw : s'.data.switchBuffers = update s.data.switchBuffers li
        (s.data.switchBuffers li ++ [{ f with outport := some lo, vc := v }.advanceStage .st s.now]) := by rw [hdata]; rfl
    obtain ⟨hpush, hpush'⟩ := switchFor_push s'.data hli (Net.mem_outLinks.mp hlo).2 rfl hfree hsw
    dsimp only
    rw [hok]
    refine ⟨h.moves.tail hmove, ?_, ?_, ?_, ?_, ?_, ?_⟩
    · -- requests for other output ports are untouched
      intro li' hli' lo' hpr' hne
      have hd' : lo' ∉ done := fun hm => hne (mem_append_left _ hm)
      have hlo' : lo' ≠ lo := fun he => hne (mem_append_right _ (by simp [he]))
      have hpr1 : update s.data.portRequests li none li' = some lo' := by
        rw [hdata] at hpr'
        exact hpr'
      have hli1 : li' ≠ li := by grind
      rw [update_of_ne hli1] at hpr1
      obtain ⟨hempty', u', f', rest', hwin', hreq'⟩ := h.requests li' hli' lo' hpr1 hd'
      refine ⟨?_, u', f', rest', ?_, hreq'.congr (fun v' => ?_) fun v' => ?_⟩
      · rw [hsw, update_of_ne hli1, hempty']
      · rw [hdata]
        exact hwin'
      · rw [hdata]
        exact update_of_ne (fun he => hli1 (congrArg Prod.fst he)) ..
      · rw [hdata]
        exact update_of_ne (fun he => hlo' (congrArg Prod.fst he)) ..
    · grind [Granted.free]
    · grind [Granted.one]
    · intro l
      rw [hsw]
      by_cases he : l = li
      · rw [he, update_self, hempty]
        refine Or.inr ⟨_, lo, rfl, rfl, hlo, ?_, ?_⟩
        · exact hnow ▸ hreq.time
        · simp [Flit.isStage, Flit.advanceStage, hnow]
      grind [Granted.loaded]
    · intro l hl
      have he : l ≠ li := fun he => hl (he ▸ hli)
      rw [hsw, update_of_ne he, hdata]
      exact ⟨(update_of_ne he ..).trans (h.other l hl).1, (h.other l hl).2⟩
    · intro l
      rw [← h.credits l, hdata]
      by_cases he : l = li
      · rw [he]
        simp [forward, updateArbiters, pushCredit, setCredit, setVc, setSwitch, setOutVc]
      · exact congrArg LinkState.linkBuffer (update_of_ne he ..)

/-- What router `r` has to look at in the next cycle: a flit that will be ready for switch allocation. -/
def Watched (net : Net) (now r : ℕ) (d : Data) (σ : Sched) : Prop :=
  ∀ l ∈ net.inLinks (.router r), ∀ u < numVcs net r, ∀ f rest, (d.virtualChannels (l, u)).inputBuffer = f :: rest →
    f.time ≤ clockEdge (net.period (.router r)) now 1 → f.isStage .sa (clockEdge (net.period (.router r)) now 1) = true →
    clockEdge (net.period (.router r)) now 1 ∈ σ.ticks (.router r)

/-- `check_for_wakeup`: no flit that will be ready in the next cycle is forgotten. -/
lemma checkForWakeup_sat (hf : Flows net s) :
    Sat Benign (fun s' => ∃ σ, s' = { s with sched := σ } ∧ SchedOps net s.now (.router r) s.sched σ ∧
      Watched net s.now r s.data σ) (checkForWakeup net r s) := by
  obtain ⟨w, hw⟩ := hf
  have hle : s.now ≤ clockEdge (net.period (.router r)) s.now 1 := le_clockEdge (net.period_pos _) ..
  unfold checkForWakeup
  refine Sat.ite (fun halready => ⟨s.sched, rfl, .refl, fun _ _ _ _ _ _ _ _ _ => ?_⟩) fun _ => ?_
  · exact mem_of_find?_eq_some (beq_iff_eq.mp halready)
  · have hstage : ∀ l ∈ net.inLinks (.router r), ∀ u, ∃ b, (s.data.virtualChannels (l, u)).needStage .sa
        (clockEdge (net.period (.router r)) s.now 1) = .ok b := fun l hl u => by
      obtain ⟨b, hb, -⟩ := needStage_spec hw hl u hle
      exact ⟨b, hb⟩
    have hport : ∀ l ∈ net.inLinks (.router r), ∃ b, ((range (numVcs net r)).anyM fun v =>
        (s.data.virtualChannels (l, v)).needStage .sa (clockEdge (net.period (.router r)) s.now 1)) = .ok b := fun l hl => by
      obtain ⟨b, hb, -⟩ := anyM_eq_ok (l := range (numVcs net r)) fun u _ => hstage l hl u
      exact ⟨b, hb⟩
    obtain ⟨b, hb, hiff⟩ := anyM_eq_ok (l := net.inLinks (.router r)) hport
    rw [anyNeedStage, hb]
    cases b with
    | true =>
      refine ⟨_, rfl, .wakeup r 1 rfl le_rfl .refl, fun _ _ _ _ _ _ _ _ _ => ?_⟩
      rw [Sched.ticks_scheduleWakeup]
      exact mem_insertSorted.mpr (Or.inl rfl)
    | false =>
      refine ⟨s.sched, rfl, .refl, fun l hl u hu f rest hbuf htime hst => ?_⟩
      obtain ⟨c, hc, hciff⟩ := anyM_eq_ok (l := range (numVcs net r)) fun u _ => hstage l hl u
      obtain ⟨e, he, heiff⟩ := needStage_spec hw hl u hle
      grind

lemma wakeup_sat (hf : Flows net s) (hq : Quiet s.data) :
    Sat Benign (fun s' => Granted net r (net.outLinks (.router r)) s s' ∧ (∀ l, s'.data.portRequests l = none) ∧
      Watched net s.now r s'.data s'.sched) (wakeup net r s) := by
  unfold wakeup
  refine (arbitrateInports_sat hf hq).bind fun d hd => ?_
  obtain ⟨hmove, hsw, hcredit, hother, hreq⟩ := hd
  have hempty : ∀ l, d.switchBuffers l = [] := fun l => by rw [hsw]; exact (hq l).2
  have hnone : ∀ lo, switchFor net d lo = [] := fun lo => by
    unfold switchFor
    split
    · simp [hempty]
    · rfl
  have h0 : Granted net r [] s { s with data := d } :=
    ⟨hmove.quiet, hreq, fun lo _ _ => hnone lo, fun lo _ => by rw [hnone]; exact Nat.zero_le 1, fun l => Or.inl (hempty l),
      fun l hl => ⟨hother l hl, hempty l⟩, fun l => by rw [← hcredit]⟩
  refine Sat.bind (Sat.foldlM (fun done s' => Granted net r done s s') h0 fun done lo rest s' hl hI => ?_) fun s' hs' => ?_
  · grind [Net.nodup_outLinks, arbitrateOutport_sat]
  · have hclear : Move net (.router r) s' .quiet { s' with data := clearRequestVector net r s'.data } :=
      .requests _ s'.data.vcWinners rfl
    have hclear' := hs'.moves.tail hclear
    have hpr : ∀ l, (clearRequestVector net r s'.data).portRequests l = none := fun l => by
      change (if (net.link l).dst = .router r then none else s'.data.portRequests l) = none
      grind [Granted.other, Net.mem_inLinks]
    refine (checkForWakeup_sat (hclear'.flows hf)).mono ?_
    rintro _ ⟨σ, rfl, hσ, hwatch⟩
    have hnow : s'.now = s.now := hs'.moves.now
    refine ⟨⟨hclear'.tail (.sched hσ), fun li _ lo h => ?_, hs'.free, hs'.one, hs'.loaded,
      fun l hl => ⟨hpr l, (hs'.other l hl).2⟩, hs'.credits⟩, hpr, ?_⟩
    · simp_all
    simp_all

end SwitchAllocator

/-! ### The crossbar -/

namespace CrossbarSwitch

variable {r : ℕ}

open SwitchAllocator (Loaded)

/-- How far the crossbar has come when it is done with the input ports in `done`. -/
structure Emptied (net : Net) (r : ℕ) (done : List ℕ) (s s' : State) : Prop where
  moves : Moves net (.router r) s [] s'
  one : ∀ lo ∈ net.outLinks (.router r), (switchFor net s'.data lo).length ≤ 1
  loaded : ∀ l, Loaded net s.now r (s'.data.switchBuffers l)
  empty : ∀ l, l ∉ net.inLinks (.router r) ∨ l ∈ done → s'.data.switchBuffers l = []
  requests : s'.data.portRequests = s.data.portRequests
  vcs : s'.data.virtualChannels = s.data.virtualChannels
  credits : s'.data.creditLink = s.data.creditLink

lemma traverse_sat {s0 : State} {done : List ℕ} {li : ℕ} (h : Emptied net r done s0 s)
    (hli : li ∈ net.inLinks (.router r)) : Sat Benign (Emptied net r (done ++ [li]) s0) (traverse net r s li) := by
  have hnow : s.now = s0.now := h.moves.now
  unfold traverse
  rcases h.loaded li with hbuf | ⟨f, lo, hbuf, hout, hlo, htime, hstage⟩
  · rw [hbuf]
    refine { h with empty := fun l hl => ?_ }
    grind [Emptied.empty]
  · rw [hbuf]
    dsimp only
    rw [if_pos ⟨hnow ▸ htime, hnow ▸ hstage⟩, hout]
    have hsrc := (Net.mem_outLinks.mp hlo).2
    have hsw : switchFor net s.data lo = [f] := by
      have hmem : f ∈ switchFor net s.data lo := by grind [switchFor_eq]
      match hls : switchFor net s.data lo, hmem, h.one lo hlo with
      | [g], hm, _ => rw [mem_singleton.mp hm]
    obtain ⟨hpop, hpop'⟩ := switchFor_pop (s.data.traverse (clockEdge (net.period (.router r)) s.now 1) lo li f [])
      hli hsrc hout hsw hbuf rfl
    refine ⟨h.moves.tail (.traverse rfl hli hlo hbuf hout hsw (SchedOps.refl.deferOrSchedule (.router r)
        (outputUnit_mem (Net.mem_outLinks.mp hlo).1).2.1 (isDelay_one net)) (asked_deferOrSchedule _ _)),
      fun lo' hlo' => ?_, fun l => ?_, fun l hl => ?_, h.requests, h.vcs, h.credits⟩
    · by_cases he : lo' = lo
      · subst he
        exact (congrArg length hpop).le.trans (Nat.zero_le 1)
      · exact (congrArg length (hpop' lo' he)).le.trans (h.one lo' hlo')
    · by_cases he : l = li
      · exact Or.inl (by rw [he]; exact update_self ..)
      · change Loaded net s0.now r (update s.data.switchBuffers li [] l)
        grind [Emptied.loaded]
    · by_cases he : l = li
      · rw [he]
        exact update_self ..
      · refine (update_of_ne he ..).trans (h.empty l ?_)
        simpa [he] using hl

lemma wakeup_sat {s0 : State} (h : SwitchAllocator.Granted net r (net.outLinks (.router r)) s0 s) :
    Sat Benign (Emptied net r (net.inLinks (.router r)) s) (wakeup net r s) := by
  have hnow : s.now = s0.now := h.moves.now
  refine Sat.foldlM (fun done s' => Emptied net r done s s') ?_ fun done l rest s' hls hI => ?_
  · refine ⟨.refl, h.one, fun l => hnow ▸ h.loaded l, fun l hl => ?_, rfl, rfl, rfl⟩
    exact (h.other l (by simpa using hl)).2
  · exact traverse_sat hI (by rw [hls]; simp)

end CrossbarSwitch

/-! ### The wakeup -/

/-- What a wakeup of router `r` has done, and that the schedule knows of all that is left to do. -/
structure RouterDone (net : Net) (r : ℕ) (s s' : State) : Prop where
  moves : ∃ tr, Moves net (.router r) s tr s' ∧ tr.Sublist ((net.inLinks (.router r)).map .arrive)
  quiet : Quiet s'.data
  flits : InputUnit.Asking net s.now r (net.inLinks (.router r)) s'.data s'.sched
  credits : OutputUnit.Asking net s.now r (net.outLinks (.router r)) s'.data s'.sched
  watched : SwitchAllocator.Watched net s.now r s'.data s'.sched

lemma Router.wakeup_spec (hf : Flows net s) (hq : Quiet s.data) :
    Sat Benign (fun s' => net.period (.router r) ∣ s.now ∧ RouterDone net r s s') (Router.wakeup net r s) := by
  unfold Router.wakeup
  refine (benign_ensure rfl).bind fun _ hedge => ?_
  refine (InputUnit.loop_sat hf hq).bind fun s1 ⟨⟨tr, hm1, htr⟩, hq1, hflits⟩ => ?_
  have hf1 := hm1.flows hf
  refine (loop_sat hf1 hq1).bind fun s2 ⟨hm2, hq2, hcredits⟩ => ?_
  have hf2 := hm2.flows hf1
  refine (SwitchAllocator.wakeup_sat hf2 hq2).bind fun s3 ⟨hg, hpr, hwatch⟩ => ?_
  refine (CrossbarSwitch.wakeup_sat hg).mono fun s4 h4 => ⟨of_decide_eq_true hedge, ?_⟩
  have hn1 : s1.now = s.now := hm1.now
  have hn2 : s2.now = s.now := hm2.now.trans hn1
  have hn3 : s3.now = s.now := hg.moves.now.trans hn2
  have hops3 : SchedOps net s.now (.router r) s2.sched s3.sched := hn2 ▸ hg.moves.schedOps
  have hops4 : SchedOps net s.now (.router r) s3.sched s4.sched := hn3 ▸ h4.moves.schedOps
  have hrest : Moves net (.router r) s1 [] s4 := hm2.trans (hg.moves.trans h4.moves)
  refine ⟨⟨tr ++ [], hm1.trans hrest, by simpa using htr⟩, fun l => ⟨?_, ?_⟩, fun l hl hr => ?_, fun l hl hr => ?_, ?_⟩
  · rw [h4.requests]
    exact hpr l
  · exact h4.empty l (or_iff_not_imp_left.mpr fun h => not_not.mp h)
  · rw [hrest.linkBuffer_eq] at hr
    exact (hflits l hl hr).mono (hn1 ▸ hrest.schedOps)
  · rw [h4.credits, hg.credits, ← hn1] at hr
    rw [← hn1]
    exact (hcredits l hl hr).mono (hn1 ▸ hops3.trans hops4)
  · intro l hl u hu f rest hbuf htime hst
    rw [h4.vcs] at hbuf
    rw [← hn2] at htime hst ⊢
    exact hops4.ticks_subset (hwatch l hl u hu f rest hbuf htime hst)

end Gem5.Garnet
