import Gem5.Garnet.EventQueue

/-!
# Nothing is left behind

Whatever lies in a queue of the network has a reader, and that reader is scheduled: a link for what
waits to be sent, a router, an output unit or an interface for what a link has brought, a router for what its
virtual channels hold, and an interface for the flits it has made. Components take one flit from a queue at a
time, so the invariant (`Timely`) has to come through every wakeup: while a component runs, what it reads is
its own business, and at its end it has asked for another wakeup if anything is left.

This takes a clock that all objects share: a consumer asked to run at an edge of another one's clock would
otherwise be scheduled later than that.
-/

namespace Gem5.Garnet

open Sim Ruby Lib Function List NetworkInterface Net Data

variable {net : Net} {s s' : State} {self : ConsumerId} {a : Label}

lemma setNi_niOutVcs {d : Data} {n : ℕ} {x : NiState} (hx : x.niOutVcs = (d.ni n).niOutVcs) (m : ℕ) :
    ((d.setNi n x).ni m).niOutVcs = (d.ni m).niOutVcs := by
  rcases eq_or_ne m n with rfl | hne
  · simpa [setNi] using hx
  · simp [setNi, hne]

lemma unstall_niOutVcs (n vnet m : ℕ) (d : Data) : ((unstall n vnet d).ni m).niOutVcs = (d.ni m).niOutVcs := by
  unfold unstall
  apply setNi_niOutVcs
  rfl

lemma deliver_queues {n l : ℕ} {b : MessageBuffer} {f : Flit} (h : deliver net n l b f s = .ok s') :
    ∃ d, s' = ⟨s.now, d, s.sched⟩ ∧ d.networkLink = s.data.networkLink ∧ d.switchBuffers = s.data.switchBuffers ∧
      d.virtualChannels = s.data.virtualChannels ∧
      d.creditLink = (s.data.pushCredit l ⟨f.vc, true, s.now⟩).creditLink ∧
      ∀ m, (d.ni m).niOutVcs = (s.data.ni m).niOutVcs := by
  obtain ⟨_, _, _, -, rfl⟩ := deliver_eq h
  exact ⟨_, rfl, rfl, rfl, rfl, rfl, setNi_niOutVcs rfl⟩

/-! ### Virtual channels exist -/

/-- Every flit is on a virtual channel that there is. -/
structure Numbered (net : Net) (d : Data) : Prop where
  ni : ∀ n v, ∀ f ∈ (d.ni n).niOutVcs v, f.vc = v ∧ v < numVcs net n
  srcQueue : ∀ l, ∀ f ∈ (d.networkLink l).srcQueue, f.vc < net.virtualNetworks * net.consumerVcs l
  linkBuffer : ∀ l, ∀ f ∈ (d.networkLink l).linkBuffer, f.vc < net.virtualNetworks * net.consumerVcs l
  switch : ∀ li, ∀ f ∈ d.switchBuffers li, ∀ lo, f.outport = some lo → f.vc < net.virtualNetworks * net.consumerVcs lo
  buffer : ∀ c : Chan, (d.virtualChannels c).inputBuffer ≠ [] → c.2 < net.virtualNetworks * net.consumerVcs c.1
  output : ∀ c lo v, (d.virtualChannels c).outputPort = some lo → (d.virtualChannels c).outputVc = some v →
    v < net.virtualNetworks * net.consumerVcs lo

lemma numbered_init (net : Net) : Numbered net (init net) where
  ni _ _ _ h := by cases h
  srcQueue _ _ h := by cases h
  linkBuffer _ _ h := by cases h
  switch _ _ h := by cases h
  buffer _ h := absurd rfl h
  output _ _ _ h := by cases h

/-- The `i`-th virtual channel of a virtual network. -/
lemma vc_lt {vnet V k i : ℕ} (hv : vnet < V) (hi : i < k) : vnet * k + i < V * k := by
  have := Nat.mul_le_mul_right k hv
  rw [Nat.succ_mul] at this
  omega

namespace Numbered

variable {d : Data}

lemma congr (h : Numbered net d) {d' : Data} (hni : ∀ n, (d'.ni n).niOutVcs = (d.ni n).niOutVcs)
    (hlink : d'.networkLink = d.networkLink) (hsw : d'.switchBuffers = d.switchBuffers)
    (hvc : d'.virtualChannels = d.virtualChannels) : Numbered net d' where
  ni n := by rw [hni]; exact h.ni n
  srcQueue := by rw [hlink]; exact h.srcQueue
  linkBuffer := by rw [hlink]; exact h.linkBuffer
  switch := by rw [hsw]; exact h.switch
  buffer := by rw [hvc]; exact h.buffer
  output := by rw [hvc]; exact h.output

variable {l : ℕ}

section

variable (h : Numbered net d)
include h

lemma setLink {b : LinkState Flit} (hsrc : ∀ f ∈ b.srcQueue, f.vc < net.virtualNetworks * net.consumerVcs l)
    (hbuf : ∀ f ∈ b.linkBuffer, f.vc < net.virtualNetworks * net.consumerVcs l) : Numbered net (d.setLink l b) := by
  refine { h with srcQueue := fun l' => ?_, linkBuffer := fun l' => ?_ } <;>
  · rcases eq_or_ne l' l with rfl | hne
    · simpa [setLink] using by assumption
    · simp only [Data.setLink, update_of_ne hne]
      first | exact h.srcQueue l' | exact h.linkBuffer l'

lemma setVc {c : Chan} {vc : VirtualChannel}
    (hbuf : vc.inputBuffer ≠ [] → c.2 < net.virtualNetworks * net.consumerVcs c.1)
    (hout : ∀ lo v, vc.outputPort = some lo → vc.outputVc = some v → v < net.virtualNetworks * net.consumerVcs lo) :
    Numbered net (d.setVc c vc) := by
  refine { h with buffer := fun c' => ?_, output := fun c' => ?_ }
  · rcases eq_or_ne c' c with rfl | hne
    · simpa [Data.setVc] using hbuf
    · simp only [Data.setVc, update_of_ne hne]
      exact h.buffer c'
  · rcases eq_or_ne c' c with rfl | hne
    · simpa [Data.setVc] using hout
    · simp only [Data.setVc, update_of_ne hne]
      exact h.output c'

lemma setSwitch {b : List Flit}
    (hb : ∀ f ∈ b, ∀ lo, f.outport = some lo → f.vc < net.virtualNetworks * net.consumerVcs lo) :
    Numbered net (d.setSwitch l b) := by
  refine { h with switch := fun l' => ?_ }
  rcases eq_or_ne l' l with rfl | hne
  · simpa [setSwitch] using hb
  · simp only [Data.setSwitch, update_of_ne hne]
    exact h.switch l'

lemma setNi {n : ℕ} {x : NiState} (hx : ∀ v, ∀ f ∈ x.niOutVcs v, f.vc = v ∧ v < numVcs net n) :
    Numbered net (d.setNi n x) := by
  refine { h with ni := fun n' => ?_ }
  rcases eq_or_ne n' n with rfl | hne
  · simpa [Data.setNi] using hx
  · simp only [Data.setNi, update_of_ne hne]
    exact h.ni n'

lemma setNi_update {n vc : ℕ} {x : NiState} {b : List Flit} (hx : x.niOutVcs = update (d.ni n).niOutVcs vc b)
    (hb : ∀ f ∈ b, f.vc = vc ∧ vc < numVcs net n) : Numbered net (d.setNi n x) := by
  refine h.setNi fun v f hf => ?_
  rw [hx] at hf
  rcases eq_or_ne v vc with rfl | hne
  · rw [update_self] at hf
    exact hb f hf
  · rw [update_of_ne hne] at hf
    exact h.ni n v f hf

lemma pushFlit {f : Flit} (hf : f.vc < net.virtualNetworks * net.consumerVcs l) : Numbered net (d.pushFlit l f) := by
  refine h.setLink (fun g hg => ?_) (h.linkBuffer l)
  rcases mem_append.mp hg with hg | hg
  · exact h.srcQueue l g hg
  · rw [mem_singleton.mp hg]
    exact hf

lemma popLink {f : Flit} {rest : List Flit} (hbuf : (d.networkLink l).linkBuffer = f :: rest) :
    Numbered net (d.popLink l rest) :=
  h.setLink (h.srcQueue l) fun g hg => h.linkBuffer l g (hbuf ▸ mem_cons_of_mem f hg)

end

end Numbered

lemma Numbered.move (h : Numbered net s.data) (hf : Flows net s) (hm : Move net self s a s') : Numbered net s'.data := by
  cases hm with
  | @arrive r l f rest _ _ _ _ hbuf _ hvc =>
    have hmem : f ∈ (s.data.networkLink l).linkBuffer := hbuf ▸ mem_cons_self ..
    refine (h.popLink hbuf).setVc (fun _ => h.linkBuffer l f hmem) fun lo v hlo hv => ?_
    cases hvc with
    | head _ hidle _ =>
      -- an idle virtual channel has no output virtual channel yet
      obtain ⟨w, hw⟩ := hf
      rcases (hw.vc (l, f.vc)).state with ⟨-, -, hnone⟩ | ⟨hact, -⟩
      · rw [show (s.data.virtualChannels (l, f.vc)).outputVc = some v from hv] at hnone
        cases hnone
      · rw [hidle] at hact
        cases hact
    | other => exact h.output (l, f.vc) lo v hlo hv
  | @forward r li u lo v f rest _ _ _ _ hreq hv =>
    have hne : (s.data.virtualChannels (li, u)).inputBuffer ≠ [] := by rw [hreq.buf]; simp
    have hvlt : v < net.virtualNetworks * net.consumerVcs lo := by
      rcases hv with hv | ⟨-, hv⟩
      · exact h.output (li, u) lo v hreq.port hv
      · obtain ⟨i, hi, rfl⟩ := mem_map.mp (mem_of_find?_eq_some hv)
        exact vc_lt hreq.vnet (mem_range.mp hi)
    have hsw : Numbered net (s.data.setSwitch li (s.data.switchBuffers li ++
        [{ f with outport := some lo, vc := v }.advanceStage .st s.now])) := by
      refine h.setSwitch fun g hg lo' hlo' => ?_
      rcases mem_append.mp hg with hg | hg
      · exact h.switch li g hg lo' hlo'
      · rw [mem_singleton.mp hg] at hlo' ⊢
        cases hlo'
        exact hvlt
    have hvc : Numbered net ((s.data.setSwitch li (s.data.switchBuffers li ++
        [{ f with outport := some lo, vc := v }.advanceStage .st s.now])).setVc (li, u)
          (if f.isTail then { s.data.virtualChannels (li, u) with inputBuffer := rest }.setIdle s.now
            else { s.data.virtualChannels (li, u) with inputBuffer := rest, outputVc := some v })) := by
      refine hsw.setVc (fun _ => h.buffer (li, u) hne) fun lo' v' hlo' hv' => ?_
      split_ifs at hlo' hv' with htail
      · cases hlo'
      grind [Request.port]
    exact hvc.congr (fun _ => rfl) rfl rfl rfl
  | @traverse r li lo f rest _ _ _ _ hbuf hout =>
    have hmem : f ∈ s.data.switchBuffers li := hbuf ▸ mem_cons_self ..
    have hpush := h.pushFlit (l := lo)
      (f := { f.advanceStage .lt (clockEdge (net.period (.router r)) s.now 1) with
        time := clockEdge (net.period (.router r)) s.now 1 }) (h.switch li f hmem lo hout)
    exact hpush.setSwitch fun g hg => h.switch li g (hbuf ▸ mem_cons_of_mem f hg)
  | @link l f rest _ _ _ hbuf => grind [Numbered.setLink, Numbered.srcQueue, Numbered.linkBuffer]
  | interface _ _ hbuf => exact h.congr (setNi_niOutVcs hbuf) rfl rfl rfl
  | @create n vnet port vc _ _ _ _ hvnet _ hvc _ hd =>
    obtain ⟨_, fs, -, -, hfs, rfl⟩ := makePacket_eq hd
    have hlt : vc < numVcs net n := by
      obtain ⟨i, hi, rfl⟩ := hvc
      exact vc_lt hvnet hi
    refine (h.setNi_update rfl fun f hf => ?_).congr (fun _ => rfl) rfl rfl rfl
    grind [Numbered.ni]
  | @send n l port vc f rest o _ _ _ hbuf _ hport =>
    obtain ⟨hvc, hlt⟩ := h.ni n vc f (hbuf ▸ mem_cons_self ..)
    have hk := niVcPerVnet_eq (outportForVnet_spec hport).1
    have hsend : Numbered net (s.data.setNi n { s.data.ni n with
        outVcState := update (s.data.ni n).outVcState vc o
        niOutVcs := update (s.data.ni n).niOutVcs vc rest
        outVcsEnqueueTime := if f.isTail then update (s.data.ni n).outVcsEnqueueTime vc infinite
          else (s.data.ni n).outVcsEnqueueTime }) :=
      h.setNi_update rfl fun g hg => h.ni n vc g (hbuf ▸ mem_cons_of_mem f hg)
    have hpush := hsend.pushFlit (l := port) (f := { f with time := clockEdge (net.period (.ni n)) s.now 1 }) (by
      rw [← hk]
      exact hvc.symm ▸ hlt)
    exact hpush.congr (fun _ => rfl) rfl rfl rfl
  | absorb _ _ hbuf => exact (h.popLink hbuf).congr (fun _ => rfl) rfl rfl rfl
  | eject _ _ hbuf _ _ _ _ _ hd =>
    obtain ⟨d, rfl, hlink, hsw, hvc, -, hni⟩ := deliver_queues hd
    exact (h.popLink hbuf).congr hni hlink hsw hvc
  | stall _ _ hbuf => exact (h.popLink hbuf).congr (setNi_niOutVcs rfl) rfl rfl rfl
  | unstall _ _ _ _ _ _ hd =>
    obtain ⟨d, rfl, hlink, hsw, hvc, -, hni⟩ := deliver_queues hd
    exact h.congr (fun m => (unstall_niOutVcs ..).trans (hni m)) hlink hsw hvc
  | niRefund => exact h.congr (setNi_niOutVcs rfl) rfl rfl rfl
  | sched => exact h
  | requests => exact h.congr (fun _ => rfl) rfl rfl rfl
  | refund => exact h.congr (fun _ => rfl) rfl rfl rfl
  | creditLink => exact h.congr (fun _ => rfl) rfl rfl rfl
  | flag => exact h.congr (fun _ => rfl) rfl rfl rfl

lemma Moves.numbered {tr : List Label} (hm : Moves net self s tr s') (hf : Flows net s) (h : Numbered net s.data) :
    Numbered net s'.data := by
  have hI : ∀ s a s', Move net self s a s' → Flows net s ∧ Numbered net s.data → Flows net s' ∧ Numbered net s'.data :=
    fun s a s' hm h => ⟨(Moves.refl.tail hm).flows h.1, h.2.move h.1 hm⟩
  exact (hm.invariant hI ⟨hf, h⟩).2

lemma Reachable.numbered (h : Reachable net s) : Numbered net s.data := by
  refine h.invariant (I := fun s => Numbered net s.data) (numbered_init net) fun s a s' hr hc hs => ?_
  cases hc with
  | advance => exact hs
  | events => exact hs
  | @wake c s1 _ _ _ _ hw =>
    obtain ⟨tr, hm, -⟩ := hw.moves
    have hf0 : FreeReachable net ⟨s.now, s.data, s.sched.fired net s.now c⟩ := hr.free_schedOk.1.later _ _ le_rfl
    exact hm.numbered hf0.sound.flows hs
  | protocol _ _ hs' =>
    obtain ⟨x, σ, rfl, hx⟩ := protocol_eq hs'
    refine hs.congr (setNi_niOutVcs ?_) rfl rfl rfl
    rcases hx with ⟨_, _, _, _, _, _, -, -, -, rfl, -⟩ | ⟨_, _, _, -, -, rfl, -⟩ <;> rfl

/-! ### Readers -/

/-- All objects are on one clock domain, whose period is `P`. -/
def Net.OneClock (net : Net) (P : ℕ) : Prop := ∀ o, net.clockPeriod o = P

/-- The first clock edge after `now`. -/
def nextCycle (P now : ℕ) : ℕ := (now / P + 1) * P

/-- The consumer has been asked to run at a tick that is not after `t`. -/
def Sched.Due (c : ConsumerId) (t : ℕ) (σ : Sched) : Prop := ∃ τ ∈ σ.ticks c, τ ≤ t

/-- The consumers that read the credits a credit link brings: the component at its end, and the output unit if that is
a router. -/
def Net.CreditReader (net : Net) (l : ℕ) (c : ConsumerId) : Prop :=
  c = (net.link l).src.consumer ∨ c = .outputUnit l ∧ ∃ r, (net.link l).src = .router r

variable {P now t : ℕ} {c : ConsumerId} {σ : Sched}

lemma lt_nextCycle (hP : 0 < P) (now : ℕ) : now < nextCycle P now := by
  rw [nextCycle, Nat.succ_mul]
  exact Nat.lt_div_mul_add hP

lemma nextCycle_mono (h : now ≤ t) : nextCycle P now ≤ nextCycle P t :=
  Nat.mul_le_mul_right P (Nat.succ_le_succ (Nat.div_le_div_right h))

lemma clockEdge_one (hP : 0 < P) (hd : P ∣ now) : clockEdge P now 1 = nextCycle P now := by
  rw [clockEdge, ceilTo_of_dvd hP hd, nextCycle, Nat.succ_mul, Nat.div_mul_cancel hd, Nat.mul_one]

/-- What the schedule knows of the queues, while `busy` runs. What `busy` reads is left out, except that it is asked
to run for what is to come later. -/
structure Timely (net : Net) (P : ℕ) (busy : Option ConsumerId) (s : State) : Prop where
  srcQueue : ∀ l, busy ≠ some (.networkLink l) → (s.data.networkLink l).srcQueue ≠ [] →
    s.sched.ticks (.networkLink l) ≠ []
  /-- An interface schedules the credit links at the end of its wakeup. -/
  creditQueue : ∀ l < net.links.length, busy ≠ some (.creditLink l) → (∀ n, (net.link l).dst = .ni n → busy ≠ some (.ni n)) →
    (s.data.creditLink l).srcQueue ≠ [] → s.sched.ticks (.creditLink l) ≠ []
  flits : ∀ l, ∀ f ∈ (s.data.networkLink l).linkBuffer, s.now < f.time → f.time ∈ s.sched.ticks (net.link l).dst.consumer
  flit : ∀ l < net.links.length, busy ≠ some (net.link l).dst.consumer → isReady (s.data.networkLink l).linkBuffer s.now = true →
    s.sched.Due (net.link l).dst.consumer (nextCycle P s.now)
  credits : ∀ l, ∀ c ∈ (s.data.creditLink l).linkBuffer, s.now < c.time → c.time ∈ s.sched.ticks (net.link l).src.consumer
  credit : ∀ l < net.links.length, (∀ c, busy = some c → ¬ net.CreditReader l c) → isReady (s.data.creditLink l).linkBuffer s.now = true →
    ∃ c, net.CreditReader l c ∧ s.sched.Due c (nextCycle P s.now)
  vcFlits : ∀ l r u, (net.link l).dst = .router r → ∀ f ∈ (s.data.virtualChannels (l, u)).inputBuffer,
    f.time ≤ s.now ∧ f.stage.1 = .sa ∧ (s.now < f.stage.2 → f.stage.2 ∈ s.sched.ticks (.router r))
  vcFlit : ∀ l < net.links.length, ∀ r u f rest, (net.link l).dst = .router r → busy ≠ some (.router r) →
    (s.data.virtualChannels (l, u)).inputBuffer = f :: rest → f.stage.2 ≤ s.now → s.sched.Due (.router r) (nextCycle P s.now)
  niFlits : ∀ n v, ∀ f ∈ (s.data.ni n).niOutVcs v, f.time ≤ s.now
  niFlit : ∀ n v, busy ≠ some (.ni n) → (s.data.ni n).niOutVcs v ≠ [] → s.sched.Due (.ni n) (nextCycle P s.now)

lemma timely_init (net : Net) (P : ℕ) : Timely net P none (State.init net) where
  srcQueue _ _ h := absurd rfl h
  creditQueue _ _ _ _ h := absurd rfl h
  flits _ _ h := by cases h
  flit _ _ _ h := by cases h
  credits _ _ h := by cases h
  credit _ _ _ h := by cases h
  vcFlits _ _ _ _ _ h := by cases h
  vcFlit _ _ _ _ _ _ _ _ h := by cases h
  niFlits _ _ _ h := by cases h
  niFlit _ _ _ h := absurd rfl h

lemma Sched.Due.mono {t' : ℕ} {σ' : Sched} (h : σ.Due c t) (hσ : σ.ticks c ⊆ σ'.ticks c)
    (ht : t ≤ t') : σ'.Due c t' := by
  obtain ⟨τ, hτ, hle⟩ := h
  exact ⟨τ, hσ hτ, hle.trans ht⟩

namespace Timely

variable {P : ℕ} {busy : Option ConsumerId}

/-! ### What does not matter -/

lemma sched (h : Timely net P busy s) {σ : Sched} (hσ : ∀ c, s.sched.ticks c ⊆ σ.ticks c) :
    Timely net P busy { s with sched := σ } where
  srcQueue l hb hne := fun hnil => h.srcQueue l hb hne (subset_nil.mp (hnil ▸ hσ _))
  creditQueue l hl hb hb' hne := fun hnil => h.creditQueue l hl hb hb' hne (subset_nil.mp (hnil ▸ hσ _))
  flits l f hf ht := hσ _ (h.flits l f hf ht)
  flit l hl hb hr := (h.flit l hl hb hr).mono (hσ _) le_rfl
  credits l c hc ht := hσ _ (h.credits l c hc ht)
  credit l hl hb hr := by grind [credit, Sched.Due.mono]
  vcFlits l r u hl f hf := by
    obtain ⟨h1, h2, h3⟩ := h.vcFlits l r u hl f hf
    exact ⟨h1, h2, fun ht => hσ _ (h3 ht)⟩
  vcFlit l hl r u f rest hr hb hbuf hf := (h.vcFlit l hl r u f rest hr hb hbuf hf).mono (hσ _) le_rfl
  niFlits := h.niFlits
  niFlit n v hb hne := (h.niFlit n v hb hne).mono (hσ _) le_rfl

lemma congr (h : Timely net P busy s) {d : Data} (hlink : d.networkLink = s.data.networkLink)
    (hcredit : d.creditLink = s.data.creditLink)
    (hvc : ∀ c, (d.virtualChannels c).inputBuffer = (s.data.virtualChannels c).inputBuffer)
    (hni : ∀ n, (d.ni n).niOutVcs = (s.data.ni n).niOutVcs) : Timely net P busy { s with data := d } where
  srcQueue := by simpa only [hlink] using h.srcQueue
  creditQueue := by simpa only [hcredit] using h.creditQueue
  flits := by simpa only [hlink] using h.flits
  flit := by simpa only [hlink] using h.flit
  credits := by simpa only [hcredit] using h.credits
  credit := by simpa only [hcredit] using h.credit
  vcFlits := by simpa only [hvc] using h.vcFlits
  vcFlit := by simpa only [hvc] using h.vcFlit
  niFlits := by simpa only [hni] using h.niFlits
  niFlit := by simpa only [hni] using h.niFlit

/-! ### What is read -/

variable {l : ℕ} {f : Flit} {c : Credit}

section

variable (h : Timely net P busy s)
include h

lemma setLink {x : LinkState Flit}
    (hsrc : busy ≠ some (.networkLink l) → x.srcQueue ≠ [] → s.sched.ticks (.networkLink l) ≠ [])
    (hflits : ∀ f ∈ x.linkBuffer, s.now < f.time → f.time ∈ s.sched.ticks (net.link l).dst.consumer)
    (hflit : l < net.links.length → busy ≠ some (net.link l).dst.consumer → isReady x.linkBuffer s.now = true →
      s.sched.Due (net.link l).dst.consumer (nextCycle P s.now)) :
    Timely net P busy { s with data := s.data.setLink l x } := by
  refine { h with srcQueue := fun l' => ?_, flits := fun l' => ?_, flit := fun l' => ?_ }
  all_goals
    rcases eq_or_ne l' l with rfl | hne
    · simpa only [Data.setLink, update_self]
    simp only [Data.setLink, update_of_ne hne]
  · exact h.srcQueue l'
  · exact h.flits l'
  · exact h.flit l'

lemma setCredit {x : LinkState Credit}
    (hsrc : l < net.links.length → busy ≠ some (.creditLink l) → (∀ n, (net.link l).dst = .ni n → busy ≠ some (.ni n)) →
      x.srcQueue ≠ [] → s.sched.ticks (.creditLink l) ≠ [])
    (hcredits : ∀ c ∈ x.linkBuffer, s.now < c.time → c.time ∈ s.sched.ticks (net.link l).src.consumer)
    (hcredit : l < net.links.length → (∀ c, busy = some c → ¬ net.CreditReader l c) → isReady x.linkBuffer s.now = true →
      ∃ c, net.CreditReader l c ∧ s.sched.Due c (nextCycle P s.now)) :
    Timely net P busy { s with data := s.data.setCredit l x } := by
  refine { h with creditQueue := fun l' => ?_, credits := fun l' => ?_, credit := fun l' => ?_ }
  all_goals
    rcases eq_or_ne l' l with rfl | hne
    · simpa only [Data.setCredit, update_self]
    simp only [Data.setCredit, update_of_ne hne]
  · exact h.creditQueue l'
  · exact h.credits l'
  · exact h.credit l'

lemma popLink {rest : List Flit} (hbuf : (s.data.networkLink l).linkBuffer = f :: rest)
    (hself : busy = some (net.link l).dst.consumer) : Timely net P busy { s with data := s.data.popLink l rest } :=
  h.setLink (h.srcQueue l) (fun g hg => h.flits l g (hbuf ▸ mem_cons_of_mem f hg)) fun _ hb => absurd hself hb

lemma popCredit {rest : List Credit} (hbuf : (s.data.creditLink l).linkBuffer = c :: rest)
    (hself : ∃ c, busy = some c ∧ net.CreditReader l c) :
    Timely net P busy { s with data := s.data.setCredit l { s.data.creditLink l with linkBuffer := rest } } := by
  obtain ⟨c', hb, hreader⟩ := hself
  exact h.setCredit (h.creditQueue l) (fun d hd => h.credits l d (hbuf ▸ mem_cons_of_mem c hd))
    fun _ hno => absurd hreader (hno c' hb)

lemma setVc {r u : ℕ} {v : VirtualChannel} (hl : (net.link l).dst = .router r) (hself : busy = some (.router r))
    (hvc : ∀ f ∈ v.inputBuffer, f.time ≤ s.now ∧ f.stage.1 = .sa ∧
      (s.now < f.stage.2 → f.stage.2 ∈ s.sched.ticks (.router r))) :
    Timely net P busy { s with data := s.data.setVc (l, u) v } := by
  refine { h with vcFlits := fun l' r' u' => ?_, vcFlit := fun l' hl' r' u' => ?_ }
  all_goals
    rcases eq_or_ne (l', u') (l, u) with he | hne
    · cases he
      simp only [Data.setVc, update_self]
      grind
    · simp only [Data.setVc, update_of_ne hne]
      grind [vcFlits, vcFlit]

lemma setNi {n v : ℕ} {x : NiState} {b : List Flit} (hself : busy = some (.ni n))
    (hx : x.niOutVcs = update (s.data.ni n).niOutVcs v b) (hb : ∀ f ∈ b, f.time ≤ s.now) :
    Timely net P busy { s with data := s.data.setNi n x } := by
  refine { h with niFlits := fun n' => ?_, niFlit := fun n' => ?_ }
  · rcases eq_or_ne n' n with rfl | hne
    · intro v' f
      simp only [Data.setNi, update_self, hx]
      grind [niFlits]
    · simp only [Data.setNi, update_of_ne hne]
      exact h.niFlits n'
  · rcases eq_or_ne n' n with rfl | hne
    · exact fun _ hno => absurd hself hno
    · simp only [Data.setNi, update_of_ne hne]
      exact h.niFlit n'

end

/-! ### What is written -/

lemma pushFlit (h : Timely net P busy s) (hl : s.sched.ticks (.networkLink l) ≠ []) :
    Timely net P busy { s with data := s.data.pushFlit l f } :=
  h.setLink (fun _ _ => hl) (h.flits l) (h.flit l)

/-- A credit is put into the queue of a credit link, which is scheduled, or will be by the interface that runs. -/
lemma pushCredit (h : Timely net P busy s)
    (hl : s.sched.ticks (.creditLink l) ≠ [] ∨ ∃ n, (net.link l).dst = .ni n ∧ busy = some (.ni n)) :
    Timely net P busy { s with data := s.data.pushCredit l c } := by
  refine h.setCredit (fun _ _ hni _ => ?_) (h.credits l) (h.credit l)
  rcases hl with hl | ⟨n, hn, hb⟩
  · exact hl
  · exact absurd hb (hni n hn)

lemma isReady_append {α : Type} [Timed α] {b : List α} {x : α} {t : ℕ} (h : isReady (b ++ [x]) t = true) :
    isReady b t = true ∨ Timed.time x ≤ t := by
  cases b with
  | nil => exact Or.inr (by simpa [isReady] using h)
  | cons y b => exact Or.inl h

lemma link (hP : 0 < P) (h : Timely net P busy s) {rest : List Flit} (hself : busy = some (.networkLink l))
    (hread : f.time ∈ s.sched.ticks (net.link l).dst.consumer) :
    Timely net P busy { s with data := s.data.setLink l ⟨rest, (s.data.networkLink l).linkBuffer ++ [f]⟩ } := by
  refine h.setLink (fun hb => absurd hself hb) (fun g hg ht => ?_) fun hl hb hr => ?_
  · rcases mem_append.mp hg with hg | hg
    · exact h.flits l g hg ht
    · rwa [mem_singleton.mp hg]
  · rcases isReady_append hr with hr | hr
    · exact h.flit l hl hb hr
    · exact ⟨f.time, hread, le_trans hr (lt_nextCycle hP s.now).le⟩

lemma creditLink (hP : 0 < P) (h : Timely net P busy s) {rest : List Credit}
    (hself : busy = some (.creditLink l)) (hread : c.time ∈ s.sched.ticks (net.link l).src.consumer) :
    Timely net P busy { s with data := s.data.setCredit l ⟨rest, (s.data.creditLink l).linkBuffer ++ [c]⟩ } := by
  refine h.setCredit (fun _ hb => absurd hself hb) (fun d hd ht => ?_) fun hl hb hr => ?_
  · rcases mem_append.mp hd with hd | hd
    · exact h.credits l d hd ht
    · rwa [mem_singleton.mp hd]
  · rcases isReady_append hr with hr | hr
    · exact h.credit l hl hb hr
    · exact ⟨_, Or.inl rfl, c.time, hread, le_trans hr (lt_nextCycle hP s.now).le⟩

end Timely

/-! ### Wakeups -/

lemma Net.OneClock.period (hP : net.OneClock P) (c : ConsumerId) : net.period c = P := hP _

lemma Net.OneClock.pos (hP : net.OneClock P) : 0 < P := hP .network ▸ net.clockPeriod_pos _

lemma Sched.Asked.mem (h : σ.Asked net c t) (hP : net.OneClock P) (hd : P ∣ t)
    (hseq : σ.parallelActive = false) : t ∈ σ.ticks c := by
  have := h hseq
  rwa [hP.period, ceilTo_of_dvd hP.pos hd] at this

lemma Timely.move (hP : net.OneClock P) (hseq : s.sched.parallelActive = false)
    (h : Timely net P (some self) s) (hm : Move net self s a s') : Timely net P (some self) s' := by
  have hmem : ∀ {σ : Sched} {c c' : ConsumerId} {k : ℕ}, SchedOps net s.now self s.sched σ →
      σ.Asked net c (clockEdge (net.period c') s.now k) → clockEdge (net.period c') s.now k ∈ σ.ticks c := by
    intro σ c c' k hσ hask
    refine hask.mem hP ?_ (hσ.parallelActive.trans hseq)
    rw [hP.period]
    exact dvd_clockEdge ..
  have hsub : ∀ {σ : Sched}, SchedOps net s.now self s.sched σ → Timely net P (some self) { s with sched := σ } :=
    fun hσ => h.sched fun c t ht => hσ.ticks_subset ht
  cases hm with
  | sched hσ => exact hsub hσ
  | requests => exact h.congr rfl rfl (fun _ => rfl) fun _ => rfl
  | @arrive r l f rest vc σ hr hl hbuf htime hvc hσ hsa hmore =>
    subst hr
    have hdst := (mem_inLinks.mp hl).2
    have hpop := (hsub hσ).popLink hbuf (by rw [hdst]; rfl)
    refine hpop.setVc hdst rfl fun g hg => ?_
    rcases mem_append.mp hg with hg | hg
    · have hold : (vc.inputBuffer) = (s.data.virtualChannels (l, f.vc)).inputBuffer := by cases hvc <;> rfl
      exact hpop.vcFlits l r f.vc hdst g (hold ▸ hg)
    · rw [mem_singleton.mp hg]
      refine ⟨htime, rfl, fun hlt => ?_⟩
      have hlt : s.now < InputUnit.saTime net s.now r := hlt
      show InputUnit.saTime net s.now r ∈ σ.ticks (.router r)
      unfold InputUnit.saTime at hlt hsa ⊢
      grind
  | @refund r l c rest o σ hr hl hbuf _ _ hσ =>
    have hsrc := (mem_outLinks.mp hl).2
    have hreader : ∃ c, some self = some c ∧ net.CreditReader l c := by
      refine ⟨self, rfl, ?_⟩
      rcases hr with rfl | rfl
      · exact Or.inl (by rw [hsrc]; rfl)
      · exact Or.inr ⟨rfl, r, hsrc⟩
    exact ((hsub hσ).popCredit hbuf hreader).congr rfl rfl (fun _ => rfl) fun _ => rfl
  | @forward r li u lo v f rest σ hr hli hlo hreq hv _ hσ hcredit =>
    subst hr
    have hdst := (mem_inLinks.mp hli).2
    have h1 := hsub hσ
    have h2 := h1.setVc (u := u) (v := if f.isTail then
        { s.data.virtualChannels (li, u) with inputBuffer := rest }.setIdle s.now
      else { s.data.virtualChannels (li, u) with inputBuffer := rest, outputVc := some v }) hdst rfl (by
        intro g hg
        refine h1.vcFlits li r u hdst g ?_
        show g ∈ (s.data.virtualChannels (li, u)).inputBuffer
        rw [hreq.buf]
        split_ifs at hg with ht <;> exact mem_cons_of_mem f hg)
    have h3 := h2.pushCredit (c := ⟨u, f.isTail, s.now⟩) (Or.inl (ne_nil_of_mem (hmem hσ hcredit)))
    exact h3.congr rfl rfl (fun _ => rfl) fun _ => rfl
  | @traverse r li lo f rest σ hr hli hlo _ _ _ hσ hlink =>
    have h1 := (hsub hσ).pushFlit (f := { f.advanceStage .lt (clockEdge (net.period (.router r)) s.now 1) with
      time := clockEdge (net.period (.router r)) s.now 1 }) (ne_nil_of_mem (hmem hσ hlink))
    exact h1.congr rfl rfl (fun _ => rfl) fun _ => rfl
  | link _ hself _ _ hσ hread => exact (hsub hσ).link hP.pos (congrArg some hself) (hmem hσ hread)
  | creditLink _ hself _ _ hσ hread => exact (hsub hσ).creditLink hP.pos (congrArg some hself) (hmem hσ hread)
  | interface _ _ hbuf => exact h.congr rfl rfl (fun _ => rfl) (setNi_niOutVcs hbuf)
  | @create n vnet port vc _ _ _ hn _ _ _ _ hd =>
    obtain ⟨_, fs, -, -, hfs, rfl⟩ := makePacket_eq hd
    refine (h.setNi (congrArg some hn) rfl fun f hf => ?_).congr rfl rfl (fun _ => rfl) fun _ => rfl
    rcases mem_append.mp hf with hf | hf
    · exact h.niFlits n vc f hf
    · exact (hfs f hf).1.le
  | @send n l port vc f rest o σ hn _ hbuf _ hport hσ hlink =>
    have h1 := (hsub hσ).pushFlit (f := { f with time := clockEdge (net.period (.ni n)) s.now 1 })
      (ne_nil_of_mem (hmem hσ hlink))
    have h2 := h1.setNi (v := vc) (b := rest) (x := { s.data.ni n with
        outVcState := update (s.data.ni n).outVcState vc o
        niOutVcs := update (s.data.ni n).niOutVcs vc rest
        outVcsEnqueueTime := if f.isTail then update (s.data.ni n).outVcsEnqueueTime vc infinite
          else (s.data.ni n).outVcsEnqueueTime }) (congrArg some hn) rfl
      fun g hg => h.niFlits n vc g (hbuf ▸ mem_cons_of_mem f hg)
    exact h2.congr rfl rfl (fun _ => rfl) fun _ => rfl
  | @flag l => exact h.congr rfl rfl (fun _ => rfl) fun _ => rfl
  | @absorb n l f rest hn hl hbuf =>
    have hdst := (mem_inLinks.mp hl).2
    have hpop := h.popLink hbuf (by rw [hdst, hn]; rfl)
    have hpush := hpop.pushCredit (c := ⟨f.vc, false, s.now⟩) (Or.inr ⟨n, hdst, congrArg some hn⟩)
    exact hpush.congr rfl rfl (fun _ => rfl) fun _ => rfl
  | @eject n l f rest b _ hn hl hbuf _ _ _ _ _ hd =>
    obtain ⟨d, rfl, hlink, -, hvc, hcredit, hni⟩ := deliver_queues hd
    have hdst := (mem_inLinks.mp hl).2
    have hpop := h.popLink hbuf (by rw [hdst, hn]; rfl)
    have hpush := hpop.pushCredit (c := ⟨f.vc, true, s.now⟩) (Or.inr ⟨n, hdst, congrArg some hn⟩)
    exact hpush.congr hlink hcredit (fun c => congrArg VirtualChannel.inputBuffer (congrFun hvc c)) hni
  | @stall n l f rest hn hl hbuf =>
    have hdst := (mem_inLinks.mp hl).2
    have hpop := h.popLink hbuf (by rw [hdst, hn]; rfl)
    exact hpop.congr rfl rfl (fun _ => rfl) (setNi_niOutVcs rfl)
  | @unstall n l f pre post b _ hn hl _ _ _ _ hd =>
    obtain ⟨d, rfl, hlink, -, hvc, hcredit, hni⟩ := deliver_queues hd
    have hdst := (mem_inLinks.mp hl).2
    have hpush := h.pushCredit (c := ⟨f.vc, true, s.now⟩) (Or.inr ⟨n, hdst, congrArg some hn⟩)
    exact hpush.congr hlink hcredit (fun c => congrArg VirtualChannel.inputBuffer (congrFun hvc c))
      fun m => (unstall_niOutVcs ..).trans (hni m)
  | @niRefund n l c rest o hn hl hbuf =>
    have hsrc := (mem_outLinks.mp hl).2
    have hreader : ∃ c, some self = some c ∧ net.CreditReader l c := ⟨self, rfl, Or.inl (by rw [hsrc, hn]; rfl)⟩
    exact (h.popCredit hbuf hreader).congr rfl rfl (fun _ => rfl) (setNi_niOutVcs rfl)

lemma Moves.timely {tr : List Label} (hP : net.OneClock P) (hm : Moves net self s tr s')
    (hseq : s.sched.parallelActive = false) (h : Timely net P (some self) s) : Timely net P (some self) s' := by
  have hI : ∀ s a s', Move net self s a s' → s.sched.parallelActive = false ∧ Timely net P (some self) s →
      s'.sched.parallelActive = false ∧ Timely net P (some self) s' :=
    fun s a s' hm h => ⟨hm.schedOps.parallelActive.trans h.1, h.2.move hP h.1 hm⟩
  exact (hm.invariant hI ⟨hseq, h⟩).2

/-! ### Between two events -/

namespace Timely

variable {P : ℕ} {c : ConsumerId}

lemma fired (h : Timely net P none s) (hok : SchedOk net s.now s.sched)
    (hev : (s.sched.consumers c).wakeupEvent = some s.now) :
    Timely net P (some c) ⟨s.now, s.data, s.sched.fired net s.now c⟩ := by
  obtain ⟨-, -, -, hself, hother⟩ := hok.fired hev
  have hne : ∀ c', some c ≠ some c' → s.sched.ticks c' = (s.sched.fired net s.now c).ticks c' := fun c' hc' => by
    rw [Sched.ticks, Sched.ticks, hother c' fun he => hc' (congrArg some he.symm)]
  have hlater : ∀ {c' : ConsumerId} {t : ℕ}, s.now < t → t ∈ s.sched.ticks c' →
      t ∈ (s.sched.fired net s.now c).ticks c' := by
    intro c' t hlt ht
    rcases eq_or_ne c c' with rfl | hc'
    · exact (hself t).mpr ⟨ht, hlt.ne'⟩
    simp_all
  have hdue : ∀ {c' : ConsumerId} {t : ℕ}, some c ≠ some c' → s.sched.Due c' t → (s.sched.fired net s.now c).Due c' t :=
    fun hc' hd => hd.mono (hne _ hc' ▸ List.Subset.refl _) le_rfl
  constructor
  case srcQueue => exact fun l hb hq => hne _ hb ▸ h.srcQueue l (by simp) hq
  case creditQueue => exact fun l hl hb _ hq => hne _ hb ▸ h.creditQueue l hl (by simp) (by simp) hq
  case flits => exact fun l f hf ht => hlater ht (h.flits l f hf ht)
  case flit => exact fun l hl hb hr => hdue hb (h.flit l hl (by simp) hr)
  case credits => exact fun l f hf ht => hlater ht (h.credits l f hf ht)
  case credit =>
    intro l hl hb hr
    obtain ⟨c', hreader, hd⟩ := h.credit l hl (by simp) hr
    grind
  case vcFlits =>
    intro l r u hl f hf
    obtain ⟨h1, h2, h3⟩ := h.vcFlits l r u hl f hf
    exact ⟨h1, h2, fun ht => hlater ht (h3 ht)⟩
  case vcFlit => exact fun l hl r u f rest hr hb hbuf hf => hdue hb (h.vcFlit l hl r u f rest hr (by simp) hbuf hf)
  case niFlits => exact h.niFlits
  case niFlit => exact fun n v hb hq => hdue hb (h.niFlit n v (by simp) hq)

lemma rescheduled (h : Timely net P (some c) s) (hP : net.OneClock P) (hseq : s.sched.parallelActive = false)
    (hedge : P ∣ s.now) (hnum : Numbered net s.data) (hres : Rescheduled net c s.now s) : Timely net P none s := by
  have hmem : ∀ {c' c'' : ConsumerId}, s.sched.Asked net c' (clockEdge (net.period c'') s.now 1) →
      nextCycle P s.now ∈ s.sched.ticks c' := by
    intro c' c'' hask
    rw [hP.period, clockEdge_one hP.pos hedge] at hask
    exact hask.mem hP (Nat.dvd_mul_left ..) hseq
  have hdue : ∀ {c' c'' : ConsumerId}, s.sched.Asked net c' (clockEdge (net.period c'') s.now 1) →
      s.sched.Due c' (nextCycle P s.now) := fun hask => ⟨_, hmem hask, le_rfl⟩
  refine { h with
    srcQueue := fun l _ hq => ?_, creditQueue := fun l hl _ _ hq => ?_, flit := fun l hl _ hr => ?_,
    credit := fun l hl _ hr => ?_, vcFlit := fun l hl r u f rest hdst _ hbuf hf => ?_, niFlit := fun n v _ hq => ?_ }
  · by_cases hc : c = .networkLink l
    · subst hc
      exact ne_nil_of_mem (hmem (hres hq))
    · exact h.srcQueue l (fun he => hc (Option.some.inj he)) hq
  · by_cases hc : c = .creditLink l
    · subst hc
      exact ne_nil_of_mem (hmem (hres hq))
    · by_cases hn : ∃ n, (net.link l).dst = .ni n ∧ c = .ni n
      · obtain ⟨n, hdst, rfl⟩ := hn
        exact ne_nil_of_mem (hmem (hres.1 l (mem_inLinks.mpr ⟨hl, hdst⟩) hq))
      · exact h.creditQueue l hl (fun he => hc (Option.some.inj he)) (fun n hdst he => hn ⟨n, hdst, Option.some.inj he⟩) hq
  · by_cases hc : c = (net.link l).dst.consumer
    · cases hdst : (net.link l).dst with
      | router r =>
        rw [hdst] at hc
        subst hc
        exact hdue (hres.1 l (mem_inLinks.mpr ⟨hl, hdst⟩) hr)
      | ni n =>
        rw [hdst] at hc
        subst hc
        exact hdue (hres.2 (Or.inr (Or.inl ⟨l, mem_inLinks.mpr ⟨hl, hdst⟩, hr⟩)))
    · exact h.flit l hl (fun he => hc (Option.some.inj he)) hr
  · by_cases hc : net.CreditReader l c
    · rcases hc with hc | ⟨rfl, r, hsrc⟩
      · cases hsrc : (net.link l).src with
        | router r =>
          -- what the router leaves is read by the output unit
          rw [hsrc] at hc
          subst hc
          exact ⟨.outputUnit l, Or.inr ⟨rfl, r, hsrc⟩, hdue (hres.2.1 l (mem_outLinks.mpr ⟨hl, hsrc⟩) hr)⟩
        | ni n =>
          rw [hsrc] at hc
          subst hc
          refine ⟨.ni n, Or.inl (by rw [hsrc]; rfl), ?_⟩
          exact hdue (hres.2 (Or.inr (Or.inr ⟨l, mem_outLinks.mpr ⟨hl, hsrc⟩, hr⟩)))
      · exact ⟨.outputUnit l, Or.inr ⟨rfl, r, hsrc⟩, hdue (hres r hsrc hr)⟩
    · exact h.credit l hl (fun c' he hc' => hc (Option.some.inj he ▸ hc')) hr
  · by_cases hc : c = .router r
    · subst hc
      have hu : u < SwitchAllocator.numVcs net r := by
        have := hnum.buffer (l, u) (by rw [hbuf]; simp)
        simpa [SwitchAllocator.numVcs, consumerVcs, hdst] using this
      have hnext : clockEdge (net.period (.router r)) s.now 1 = nextCycle P s.now := by
        rw [hP.period, clockEdge_one hP.pos hedge]
      have hlt := (lt_nextCycle hP.pos s.now).le
      obtain ⟨htime, hsa, -⟩ := h.vcFlits l r u hdst f (by rw [hbuf]; exact mem_cons_self ..)
      refine ⟨_, hres.2.2 l (mem_inLinks.mpr ⟨hl, hdst⟩) u hu f rest hbuf ?_ ?_, hnext.le⟩
      · rw [hnext]
        exact htime.trans hlt
      grind [Flit.isStage]
    · exact h.vcFlit l hl r u f rest hdst (fun he => hc (Option.some.inj he)) hbuf hf
  · by_cases hc : c = .ni n
    · subst hc
      obtain ⟨f, rest, hbuf⟩ := exists_cons_of_ne_nil hq
      have hf : f ∈ (s.data.ni n).niOutVcs v := by rw [hbuf]; exact mem_cons_self ..
      refine hdue (hres.2 (Or.inl ⟨v, (hnum.ni n v f hf).2, isReady_iff.mpr ⟨f, rest, hbuf, ?_⟩⟩))
      exact (h.niFlits n v f hf).trans (le_clockEdge (net.period_pos _) ..)
    · exact h.niFlit n v (fun he => hc (Option.some.inj he)) hq

lemma advance (h : Timely net P none s) {t : ℕ} (hP : 0 < P) (hle : s.now ≤ t) : Timely net P none { s with now := t } := by
  have hnext := nextCycle_mono (P := P) hle
  have hcome : ∀ {c : ConsumerId} {t' : ℕ}, t' ∈ s.sched.ticks c → t' ≤ t → s.sched.Due c (nextCycle P t) :=
    fun ht' hle' => ⟨_, ht', hle'.trans (lt_nextCycle hP t).le⟩
  refine { h with
    flits := fun l f hf ht => h.flits l f hf (hle.trans_lt ht), flit := fun l hl hb hr => ?_,
    credits := fun l c hc ht => h.credits l c hc (hle.trans_lt ht), credit := fun l hl hb hr => ?_,
    vcFlits := fun l r u hl f hf => ?_, vcFlit := fun l hl r u f rest hdst hb hbuf hf => ?_,
    niFlits := fun n v f hf => (h.niFlits n v f hf).trans hle,
    niFlit := fun n v hb hq => (h.niFlit n v hb hq).mono (List.Subset.refl _) hnext }
  · obtain ⟨f, rest, hbuf, hf⟩ := isReady_iff.mp hr
    rcases le_or_gt (Timed.time f) s.now with hnow | hnow
    · exact (h.flit l hl hb (isReady_iff.mpr ⟨f, rest, hbuf, hnow⟩)).mono (List.Subset.refl _) hnext
    · exact hcome (h.flits l f (hbuf ▸ mem_cons_self ..) hnow) hf
  · obtain ⟨c, rest, hbuf, hc⟩ := isReady_iff.mp hr
    rcases le_or_gt (Timed.time c) s.now with hnow | hnow
    · grind [credit, isReady_iff, Sched.Due.mono]
    · exact ⟨_, Or.inl rfl, hcome (h.credits l c (hbuf ▸ mem_cons_self ..) hnow) hc⟩
  · grind [vcFlits, LE.le.trans, LE.le.trans_lt]
  · rcases le_or_gt f.stage.2 s.now with hnow | hnow
    · exact (h.vcFlit l hl r u f rest hdst hb hbuf hnow).mono (List.Subset.refl _) hnext
    · obtain ⟨-, -, h3⟩ := h.vcFlits l r u hdst f (hbuf ▸ mem_cons_self ..)
      exact hcome (h3 hnow) hf

end Timely

lemma Sched.ticks_subset_scheduleEventAbsolute (net : Net) (now : ℕ) (σ : Sched) (c c' : ConsumerId) (t : ℕ) :
    σ.ticks c' ⊆ (σ.scheduleEventAbsolute net now c t).ticks c' := by
  by_cases hc : c' = c
  · grind [Sched.ticks_scheduleEventAbsolute, mem_insertSorted]
  simp_all [Sched.scheduleEventAbsolute, Sched.ticks_modify_of_ne]

lemma Reachable.timely (hP : net.OneClock P) (h : Reachable net s) : Timely net P none s := by
  refine h.invariant (timely_init net P) fun s a s' hr hc hs => ?_
  have hok := hr.free_schedOk.2
  cases hc with
  | advance hle _ => exact hs.advance hP.pos hle
  | events hσ => exact hs.sched fun c t ht => (hσ c t).mpr ht
  | @wake c s1 hc hedge hev _ hw =>
    obtain ⟨tr, hm, -⟩ := hw.moves
    have hnow : s1.now = s.now := hm.now
    have hf0 : FreeReachable net ⟨s.now, s.data, s.sched.fired net s.now c⟩ := hr.free_schedOk.1.later _ _ le_rfl
    have hrun := hm.timely hP hok.seq (hs.fired hok hev)
    have hres : Rescheduled net c s1.now s1 := hnow ▸ hw.rescheduled
    have hdone := hrun.rescheduled hP (hm.schedOps.parallelActive.trans hok.seq) (hnow ▸ hP.period c ▸ hedge)
      (hm.numbered hf0.sound.flows hr.numbered) hres
    grind [Timely.sched, Sched.ticks_scheduleNextWakeup]
  | @protocol n vnet op _ _ _ hs' =>
    obtain ⟨x, σ, rfl, hx⟩ := protocol_eq hs'
    have hbuf : x.niOutVcs = (s.data.ni n).niOutVcs := by
      rcases hx with ⟨_, _, _, _, _, _, -, -, -, rfl, -⟩ | ⟨_, _, _, -, -, rfl, -⟩ <;> rfl
    have hσ : ∀ c, s.sched.ticks c ⊆ σ.ticks c := by grind [Sched.ticks_subset_scheduleEventAbsolute]
    exact (hs.sched hσ).congr rfl rfl (fun _ => rfl) (setNi_niOutVcs hbuf)

/-! ### What it comes to -/

/-- The consumer has a tick not after `t`, and its event is scheduled no later than that. -/
def Sched.Pending (c : ConsumerId) (t : ℕ) (σ : Sched) : Prop :=
  ∃ τ ∈ σ.ticks c, τ ≤ t ∧ ∃ w, (σ.consumers c).wakeupEvent = some w ∧ w ≤ τ

/-- Every queue that holds something has its reader scheduled. -/
structure NoneStranded (net : Net) (P : ℕ) (s : State) : Prop where
  srcQueue : ∀ l < net.links.length, (s.data.networkLink l).srcQueue ≠ [] → ∃ t, s.sched.Pending (.networkLink l) t
  creditQueue : ∀ l < net.links.length, (s.data.creditLink l).srcQueue ≠ [] → ∃ t, s.sched.Pending (.creditLink l) t
  linkBuffer : ∀ l < net.links.length, ∀ f rest, (s.data.networkLink l).linkBuffer = f :: rest →
    s.sched.Pending (net.link l).dst.consumer (max f.time (nextCycle P s.now))
  creditBuffer : ∀ l < net.links.length, ∀ c rest, (s.data.creditLink l).linkBuffer = c :: rest →
    ∃ reader, net.CreditReader l reader ∧ s.sched.Pending reader (max c.time (nextCycle P s.now))
  inputBuffer : ∀ r, ∀ l ∈ net.inLinks (.router r), ∀ u f rest, (s.data.virtualChannels (l, u)).inputBuffer = f :: rest →
    f.stage.1 = .sa ∧ s.sched.Pending (.router r) (max f.stage.2 (nextCycle P s.now))
  niOutVcs : ∀ n v, (s.data.ni n).niOutVcs v ≠ [] → s.sched.Pending (.ni n) (nextCycle P s.now)
  switchBuffer : ∀ l, s.data.switchBuffers l = []

lemma SchedOk.pending {τ : ℕ} (h : SchedOk net now σ) (hτ : τ ∈ σ.ticks c) (hle : τ ≤ t) : σ.Pending c t := by
  obtain ⟨w, hw, hle'⟩ := h.armed c (ne_nil_of_mem hτ)
  exact ⟨τ, hτ, hle, w, hw, hle' τ hτ⟩

lemma SchedOk.exists_pending (h : SchedOk net now σ) (hne : σ.ticks c ≠ []) : ∃ t, σ.Pending c t := by
  obtain ⟨τ, hτ⟩ := exists_mem_of_ne_nil _ hne
  exact ⟨τ, h.pending hτ le_rfl⟩

/-- No flit and no credit is stranded: with all objects on one clock domain, between any two events of a run every queue
of the network that is not empty has its reader scheduled, and soon enough; and a wakeup of a router leaves nothing in
its crossbar. -/
theorem none_stranded {P : ℕ} (hP : net.OneClock P) (h : Reachable net s) : NoneStranded net P s ∧
      ∀ r σ s', Router.wakeup net r ⟨s.now, s.data, σ⟩ = .ok s' → ∀ l, s'.data.switchBuffers l = [] := by
  obtain ⟨hfree, hok⟩ := h.free_schedOk
  have ht := h.timely hP
  refine ⟨?_, fun r σ s' hs l => ?_⟩
  · constructor
    case srcQueue => exact fun l _ hq => hok.exists_pending (ht.srcQueue l (by simp) hq)
    case creditQueue => exact fun l hl hq => hok.exists_pending (ht.creditQueue l hl (by simp) (by simp) hq)
    case linkBuffer =>
      intro l hl f rest hbuf
      rcases le_or_gt f.time s.now with hnow | hnow
      · obtain ⟨τ, hτ, hle⟩ := ht.flit l hl (by simp) (isReady_iff.mpr ⟨f, rest, hbuf, hnow⟩)
        exact hok.pending hτ (le_max_of_le_right hle)
      · exact hok.pending (ht.flits l f (hbuf ▸ mem_cons_self ..) hnow) (le_max_left ..)
    case creditBuffer =>
      intro l hl c rest hbuf
      rcases le_or_gt c.time s.now with hnow | hnow
      · obtain ⟨reader, hreader, τ, hτ, hle⟩ := ht.credit l hl (by simp) (isReady_iff.mpr ⟨c, rest, hbuf, hnow⟩)
        exact ⟨reader, hreader, hok.pending hτ (le_max_of_le_right hle)⟩
      · exact ⟨_, Or.inl rfl, hok.pending (ht.credits l c (hbuf ▸ mem_cons_self ..) hnow) (le_max_left ..)⟩
    case inputBuffer =>
      intro r l hl u f rest hbuf
      obtain ⟨hlt, hdst⟩ := mem_inLinks.mp hl
      obtain ⟨-, hsa, hlater⟩ := ht.vcFlits l r u hdst f (hbuf ▸ mem_cons_self ..)
      refine ⟨hsa, ?_⟩
      rcases le_or_gt f.stage.2 s.now with hnow | hnow
      · obtain ⟨τ, hτ, hle⟩ := ht.vcFlit l hlt r u f rest hdst (by simp) hbuf hnow
        exact hok.pending hτ (le_max_of_le_right hle)
      · exact hok.pending (hlater hnow) (le_max_left ..)
    case niOutVcs =>
      intro n v hq
      obtain ⟨τ, hτ, hle⟩ := ht.niFlit n v (by simp) hq
      exact hok.pending hτ hle
    case switchBuffer => exact fun l => (hfree.sound.quiet l).2
  · have hsound := (hfree.later s.now σ le_rfl).sound
    exact (((Router.wakeup_spec hsound.flows hsound.quiet).of_ok hs).2.quiet l).2

/-- Interface `0` has sent the first flit of a packet: the link is to take it in the next cycle, and the interface is to
send the second flit. -/
theorem none_stranded_two : ∃ s, Reachable Net.two s ∧ (s.data.networkLink 0).srcQueue ≠ [] ∧
    (s.data.ni 0).niOutVcs 0 ≠ [] ∧ (∃ t, s.sched.Pending (.networkLink 0) t) ∧ s.sched.Pending (.ni 0) 2 := by
  obtain ⟨s, hs, ht⟩ := exists_reachable two sendFirst
    (fun s => !(s.data.networkLink 0).srcQueue.isEmpty && !((s.data.ni 0).niOutVcs 0).isEmpty && s.now == 1)
    (by decide +kernel)
  simp only [Bool.and_eq_true, Bool.not_eq_true', isEmpty_eq_false_iff, beq_iff_eq] at ht
  obtain ⟨⟨h1, h2⟩, hnow⟩ := ht
  have hnone := (none_stranded (P := 1) (fun _ => rfl) hs).1
  have hni := hnone.niOutVcs 0 0 h2
  rw [hnow] at hni
  exact ⟨s, hs, h1, h2, hnone.srcQueue 0 (by decide) h1, hni⟩

end Gem5.Garnet
