import Gem5.Garnet.RouterMoves

/-!
# The moves of an interface's wakeup

`NetworkInterface::wakeup` is a sequence of moves, and like a router's it never stops at a check of flow
control. A packet is made for each destination of the first message of each virtual network at most, a
port of the interface does not let a message pass another of its virtual network, and at the end
the schedule knows of all the interface has left undone, except of stalled messages.
-/

namespace Gem5.Garnet

open Sim Ruby Lib Function List Data Sat List.Sublist

/-- The search for free virtual channels starts inside the virtual network. -/
def Allocators (net : Net) (d : Data) : Prop :=
  ∀ n v, 0 < net.niVcPerVnet n → (d.ni n).vcAllocator v < net.niVcPerVnet n

variable {net : Net} {s : State} {self : ConsumerId}

/-- An interface changes: where its search for virtual channels starts may be all of it that matters. -/
lemma Allocators.update {d d' : Data} {n : ℕ} {x : NiState} (h : Allocators net d) (hd : d'.ni = update d.ni n x)
    (hx : ∀ v, x.vcAllocator v = (d.ni n).vcAllocator v ∨ x.vcAllocator v < net.niVcPerVnet n) : Allocators net d' := by
  intro m v hm
  rw [hd]
  by_cases he : m = n
  · subst he
    rw [update_self]
    rcases hx v with h' | h'
    · rw [h']
      exact h m v hm
    · exact h'
  · rw [update_of_ne he]
    exact h m v hm

lemma Move.allocators {a : Label} {s' : State} (hm : Move net self s a s') (h : Allocators net s.data) :
    Allocators net s'.data := by
  cases hm with
  | interface hn hvc hbuf htime hstall hnode hin halloc => exact h.update rfl halloc
  | create hn hvnet hport hvc hidle hd =>
    obtain ⟨_, _, -, -, -, rfl⟩ := makePacket_eq hd
    exact h.update rfl fun _ => Or.inl rfl
  | send => exact h.update rfl fun _ => Or.inl rfl
  | niRefund => exact h.update rfl fun _ => Or.inl rfl
  | stall => exact h.update rfl fun _ => Or.inl rfl
  | eject _ _ _ _ _ _ _ _ hd =>
    obtain ⟨_, _, _, -, rfl⟩ := deliver_eq hd
    exact h.update rfl fun _ => Or.inl rfl
  | @unstall n _ f _ _ _ _ _ _ _ _ _ _ hd =>
    obtain ⟨b', _, _, -, rfl⟩ := deliver_eq hd
    refine Allocators.update (d := s.data.setNi n { s.data.ni n with
      outNode := update (s.data.ni n).outNode f.vnet (some b') }) (h.update rfl fun _ => Or.inl rfl) rfl
      fun _ => Or.inl rfl
  | _ => exact h

lemma Moves.allocators {tr : List Label} {s' : State} (hm : Moves net self s tr s') (h : Allocators net s.data) :
    Allocators net s'.data := hm.invariant (fun _ _ _ hm h => hm.allocators h) h

namespace NetworkInterface

variable {n : ℕ}

lemma ofBuffer_sat {α : Type} (x : Except BufferFault α) : Sat Benign (fun a => x = .ok a) (ofBuffer x) := by
  cases x with
  | ok a => exact rfl
  | error e => exact rfl

/-! ### Messages from the protocol -/

variable {now vnet l : ℕ} {b : MessageBuffer}

lemma hasReady_heap (h : b.hasReady now = true) : ∃ m l, b.prioHeap = m :: l := by
  unfold MessageBuffer.hasReady at h
  grind

lemma ni_mem (hn : n < net.numNodes) : .ni n ∈ net.consumerList := by
  simp [Net.consumerList, hn]

lemma bufferReady_sat (hn : n < net.numNodes) (b : MessageBuffer) :
    Sat Benign (fun x => Move net (.ni n) s .quiet x.2 ∧ x.2.data = s.data ∧ (x.1 = true → ∃ m l, b.prioHeap = m :: l))
      (bufferReady net n b s) := by
  unfold bufferReady
  refine (ofBuffer_sat _).bind fun x hx => ?_
  obtain ⟨_, -, hx⟩ := bind_eq_ok.mp hx
  cases hx
  refine ⟨?_, ?_, fun h => hasReady_heap (Bool.and_eq_true .. ▸ h).2⟩
  · dsimp only
    split_ifs
    · exact .sched (.event _ 1 (ni_mem hn) (isDelay_one net) .refl)
    · exact .sched .refl
  · dsimp only
    split_ifs <;> rfl

lemma findIdleVc_spec (now : ℕ) {k i : ℕ} {x : NiState} (hx : 0 < k → x.vcAllocator vnet < k) (hi : i ≤ k) :
    ∃ a, (findIdleVc k now vnet i x).2 = { x with vcAllocator := a } ∧ (∀ v, a v = x.vcAllocator v ∨ a v < k) ∧
      ∀ vc, (findIdleVc k now vnet i x).1 = some vc →
        (∃ j < k, vc = vnet * k + j) ∧ (x.outVcState vc).isInState .idle now = true := by
  induction i generalizing x with
  | zero => exact ⟨x.vcAllocator, rfl, fun v => Or.inl rfl, fun vc h => by cases h⟩
  | succ i ih =>
    have hk : 0 < k := by omega
    have hlt := hx hk
    unfold findIdleVc
    dsimp only
    generalize hnext : (if x.vcAllocator vnet + 1 = k then 0 else x.vcAllocator vnet + 1) = next
    have hlt' : next < k := by
      rw [← hnext]
      split_ifs <;> omega
    have hupd : ∀ v, update x.vcAllocator vnet next v = x.vcAllocator v ∨
        update x.vcAllocator vnet next v < k := fun v => by grind
    by_cases hidle : (x.outVcState (vnet * k + x.vcAllocator vnet)).isInState .idle now = true
    · simp_all
    · rw [if_neg hidle]
      obtain ⟨a, h1, h2, h3⟩ := ih (x := { x with vcAllocator := update x.vcAllocator vnet next })
        (fun _ => by simpa using hlt') (by omega)
      grind

/-- `calculateVC`: a free virtual channel, if there is one. -/
lemma calculateVC_sat (ha : Allocators net s.data) (vnet : ℕ) :
    Sat Benign (fun y => Move net (.ni n) s .quiet { s with data := s.data.setNi n y.2 } ∧
        y.2.inNode = (s.data.ni n).inNode ∧
        ∀ vc, y.1 = some vc → (∃ i < net.niVcPerVnet n, vc = vnet * net.niVcPerVnet n + i) ∧
          (y.2.outVcState vc).vcState = .idle) (calculateVC net n s.now vnet (s.data.ni n)) := by
  obtain ⟨a, h1, h2, h3⟩ := findIdleVc_spec s.now (ha n vnet) le_rfl
  unfold calculateVC
  generalize findIdleVc (net.niVcPerVnet n) s.now vnet (net.niVcPerVnet n) (s.data.ni n) = y at h1 h3
  obtain ⟨vc, x⟩ := y
  dsimp only at h1 h3
  subst h1
  have hmove : ∀ busy, Move net (.ni n) s .quiet
      ⟨s.now, s.data.setNi n { s.data.ni n with vcAllocator := a, vcBusyCounter := busy }, s.sched⟩ := fun busy =>
    .interface rfl rfl rfl rfl rfl rfl (fun v b hb => ⟨b, hb, rfl, fun m hm => ⟨m, hm, refl _⟩⟩) h2
  cases vc with
  | some vc =>
    refine ⟨hmove _, rfl, fun vc' he => ?_⟩
    cases he
    obtain ⟨hj, hidle⟩ := h3 vc rfl
    simp only [OutVcState.isInState, Bool.and_eq_true, beq_iff_eq] at hidle
    exact ⟨hj, hidle.1⟩
  | none => exact (benign_ensure rfl).bind fun _ _ => ⟨hmove _, rfl, fun vc' he => by cases he⟩

lemma shrinks_updateFront (b : MessageBuffer) (dest : ℕ) :
    Shrinks b (b.updateFront fun m => { m with destination := m.destination.filter (· != dest) }) := by
  unfold MessageBuffer.updateFront
  cases hb : b.prioHeap with
  | nil => exact ⟨rfl, fun m hm => ⟨m, hm, refl _⟩⟩
  | cons m l =>
    refine ⟨rfl, fun m' hm' => ?_⟩
    rcases mem_cons.mp hm' with rfl | hm'
    · exact ⟨m, by rw [hb]; exact mem_cons_self .., filter_sublist ..⟩
    · exact ⟨m', by rw [hb]; exact mem_cons_of_mem _ hm', refl _⟩

lemma removeDest_move (vnet dest : ℕ) : Move net (.ni n) s .quiet { s with data := removeDest n vnet dest s.data } := by
  refine .interface rfl rfl rfl rfl rfl rfl (fun v b' hb' => ?_) fun v => Or.inl rfl
  dsimp only at hb'
  by_cases hv : v = vnet
  · subst hv
    rw [update_self] at hb'
    obtain ⟨b, hb, rfl⟩ := Option.map_eq_some_iff.mp hb'
    exact ⟨b, hb, shrinks_updateFront b dest⟩
  · rw [update_of_ne hv] at hb'
    exact ⟨b', hb', rfl, fun m hm => ⟨m, hm, refl _⟩⟩

/-- Only the buffer of a virtual network and the packets made of its message have changed. -/
def SameInNodes (n vnet : ℕ) (d d' : Data) : Prop := ∀ v, v ≠ vnet → (d'.ni n).inNode v = (d.ni n).inNode v

lemma flitisizeTo_sat {port : ℕ} {msg : Message} {multi : Bool} (hvnet : vnet < net.virtualNetworks)
    (hport : net.outportForVnet n vnet = some port) (ha : Allocators net s.data) (dests : List ℕ) :
    Sat Benign (fun y => ∃ tr, Moves net (.ni n) s tr { s with data := y.2 } ∧
        tr.Sublist (dests.map (.create n vnet)) ∧ SameInNodes n vnet s.data y.2)
      (flitisizeTo net n s.now vnet port msg multi dests s.data) := by
  obtain ⟨now, d, σ⟩ := s
  dsimp only at ha ⊢
  induction dests generalizing d with
  | nil => exact ⟨[], .refl, refl _, fun v _ => rfl⟩
  | cons dest dests ih =>
    unfold flitisizeTo
    refine (calculateVC_sat (s := ⟨now, d, σ⟩) ha vnet).bind fun y hy => ?_
    obtain ⟨hmove, hin, hfree⟩ := hy
    obtain ⟨vc, x⟩ := y
    dsimp only at hmove hin hfree
    cases vc with
    | none =>
      refine ⟨[], hmove.quiet, nil_sublist _, fun v _ => ?_⟩
      simp [setNi, hin]
    | some vc =>
      dsimp only
      -- the destination is taken out of the message, unless it is the only one
      obtain ⟨d1, hd1, hm1, hs1, hvc1⟩ : ∃ d1, d1 = (if multi then removeDest n vnet dest (d.setNi n x) else d.setNi n x) ∧
          Moves net (.ni n) ⟨now, d.setNi n x, σ⟩ [] ⟨now, d1, σ⟩ ∧ SameInNodes n vnet (d.setNi n x) d1 ∧
          (d1.ni n).outVcState = x.outVcState := by
        refine ⟨_, rfl, ?_⟩
        cases multi with
        | false => exact ⟨.refl, fun v _ => rfl, by simp [setNi]⟩
        | true =>
          refine ⟨(removeDest_move vnet dest).quiet, fun v hv => ?_, by simp [removeDest, setNi]⟩
          simp [removeDest, setNi, update_of_ne hv]
      rw [← hd1]
      have hm := hmove.quiet.trans hm1
      cases hmk : makePacket net n now vnet port vc dest msg d1 with
      | error e =>
        unfold makePacket at hmk
        split at hmk
        · cases hmk
          exact rfl
        · cases hmk
      | ok d2 =>
        obtain ⟨hi, hidle⟩ := hfree vc rfl
        have hcreate : Move net (.ni n) ⟨now, d1, σ⟩ (.create n vnet dest) ⟨now, d2, σ⟩ :=
          .create rfl hvnet hport hi (by dsimp only; rw [hvc1]; exact hidle) hmk
        have hm2 := hm.trans (hcreate.moves (by simp))
        have hin2 : (d2.ni n).inNode = (d1.ni n).inNode := by
          obtain ⟨_, _, -, -, -, rfl⟩ := makePacket_eq hmk
          simp [setNi]
        refine (ih d2 (hm2.allocators ha)).mono ?_
        rintro y ⟨tr, htr, hsub, hsame⟩
        refine ⟨_, hm2.trans htr, ?_, fun v hv => ?_⟩
        · simpa using hsub
        · rw [hsame v hv, hin2, hs1 v hv]
          simp [setNi, hin]

variable (net) in
lemma dequeueIn_sat (vnet : ℕ) :
    Sat Benign (fun d => Move net (.ni n) s .quiet { s with data := d } ∧ SameInNodes n vnet s.data d)
      (dequeueIn n s.now vnet s.data) := by
  unfold dequeueIn
  dsimp only
  cases hb : (s.data.ni n).inNode vnet with
  | none => exact rfl
  | some b =>
    refine (ofBuffer_sat _).bind fun x hx => ?_
    obtain ⟨_, -, hx⟩ := bind_eq_ok.mp hx
    obtain ⟨_, -, hx⟩ := bind_eq_ok.mp hx
    cases hx
    refine ⟨.interface rfl rfl rfl rfl rfl rfl (fun v b' hb' => ?_) fun v => Or.inl rfl, fun v hv => ?_⟩
    · dsimp only at hb'
      by_cases hv : v = vnet
      · subst hv
        rw [update_self] at hb'
        cases hb'
        exact ⟨b, hb, rfl, fun m hm => ⟨m, mem_of_mem_tail hm, refl _⟩⟩
      · rw [update_of_ne hv] at hb'
        exact ⟨b', hb', rfl, fun m hm => ⟨m, hm, refl _⟩⟩
    · simp [setNi, update_of_ne hv]

/-- The destinations of the first message of a virtual network. -/
def destinations (n vnet : ℕ) (d : Data) : List ℕ :=
  (((d.ni n).inNode vnet).bind fun b => b.prioHeap.head?.map (·.destination)).getD []

lemma takeMessage_sat (hn : n < net.numNodes) (ha : Allocators net s.data) (hvnet : vnet < net.virtualNetworks) :
    Sat Benign (fun s' => ∃ tr, Moves net (.ni n) s tr s' ∧ SameInNodes n vnet s.data s'.data ∧
      tr.Sublist ((destinations n vnet s.data).map (.create n vnet))) (takeMessage net n s vnet) := by
  unfold takeMessage
  cases hb : (s.data.ni n).inNode vnet with
  | none => exact ⟨[], .refl, fun v _ => rfl, nil_sublist _⟩
  | some b =>
    refine (bufferReady_sat hn b).bind fun x hx => ?_
    obtain ⟨ready, s1⟩ := x
    obtain ⟨hm1, hdata, hheap⟩ := hx
    dsimp only at hm1 hdata hheap ⊢
    refine ite (fun hready => ?_) fun _ => ⟨[], hm1.quiet, fun v _ => by rw [hdata], nil_sublist _⟩
    obtain ⟨msg, l, hmsg⟩ := hheap hready
    rw [hmsg]
    unfold flitisizeMessage
    have hdest : destinations n vnet s.data = msg.destination := by simp [destinations, hb, hmsg]
    cases hport : net.outportForVnet n vnet with
    | none => exact rfl
    | some port =>
      refine (flitisizeTo_sat hvnet hport (by rw [hdata]; exact ha) msg.destination).bind fun y hy => ?_
      obtain ⟨all, d⟩ := y
      obtain ⟨tr, hm2, htr, hsame⟩ := hy
      rw [hdata] at hsame
      have hm := hm1.quiet.trans hm2
      rw [hdest]
      refine ite (fun _ => ?_) fun _ => ⟨tr, hm, hsame, htr⟩
      refine (dequeueIn_sat net (s := { s1 with data := d }) vnet).bind fun d' hd' => ?_
      refine ⟨tr ++ [], hm.trans hd'.1.quiet, fun v hv => (hd'.2 v hv).trans (hsame v hv), by simpa using htr⟩

lemma takeMessages_sat (hn : n < net.numNodes) (ha : Allocators net s.data) :
    Sat Benign (fun s' => ∃ tr, Moves net (.ni n) s tr s' ∧ tr.Sublist ((range net.virtualNetworks).flatMap fun vnet =>
        (destinations n vnet s.data).map (.create n vnet)))
      ((range net.virtualNetworks).foldlM (takeMessage net n) s) := by
  refine (foldlM (fun done s' => ∃ tr, Moves net (.ni n) s tr s' ∧
    tr.Sublist (done.flatMap fun vnet => (destinations n vnet s.data).map (.create n vnet)) ∧
    ∀ v ∉ done, (s'.data.ni n).inNode v = (s.data.ni n).inNode v) ⟨[], .refl, refl _, fun v _ => rfl⟩ ?_).mono
    fun s' ⟨tr, hm, htr, _⟩ => ⟨tr, hm, htr⟩
  rintro done vnet rest s1 hls ⟨tr, hm, htr, hin⟩
  have hnot : vnet ∉ done := fun hmem => by grind [nodup_range, nodup_append, mem_cons_self]
  have hlt : vnet < net.virtualNetworks := mem_range.mp (by rw [hls]; simp)
  refine (takeMessage_sat hn (hm.allocators ha) hlt).mono ?_
  rintro s2 ⟨tr', hm', hsame, htr'⟩
  have hdest : destinations n vnet s1.data = destinations n vnet s.data := by
    unfold destinations
    rw [hin vnet hnot]
  refine ⟨tr ++ tr', hm.trans hm', ?_, fun v hv => ?_⟩
  · grind
  · rw [hsame v fun he => hv (by simp [he])]
    exact hin v fun hmem => hv (by simp [hmem])

/-! ### Flits to the network -/

lemma scheduleOutputPort_sat (hf : Flows net s) (hout : net.outLinks (.ni n) ≠ []) (l : ℕ) :
    Sat Benign (fun s' => Moves net (.ni n) s [] s') (scheduleOutputPort net n s l) := by
  unfold scheduleOutputPort
  cases hfind : ((range (numVcs net n)).rotate (s.data.vcRoundRobin l + 1)).find?
      (maySend net n s.now l (s.data.ni n)) with
  | none => exact .refl
  | some vc =>
    have hmay := find?_some hfind
    obtain ⟨f, rest, hbuf, -⟩ : ∃ f rest, (s.data.ni n).niOutVcs vc = f :: rest ∧ Timed.time f ≤ s.now := by
      refine isReady_iff.mp ?_
      simp only [maySend, Bool.and_eq_true] at hmay
      exact hmay.1.1.2
    have hcredit : 0 < ((s.data.ni n).outVcState vc).creditCount := by
      simp only [maySend, Bool.and_eq_true] at hmay
      exact of_decide_eq_true hmay.1.2
    have hdec : ((s.data.ni n).outVcState vc).decrementCredit = .ok { (s.data.ni n).outVcState vc with
        creditCount := ((s.data.ni n).outVcState vc).creditCount - 1 } := by
      unfold OutVcState.decrementCredit
      dsimp only
      rw [if_pos (by omega)]
    obtain ⟨w, hw⟩ := hf
    obtain ⟨port, -, hport, -, hvnet, -, -⟩ := hw.waiting hbuf
    rw [← hvnet] at hport
    obtain ⟨first, hfirst⟩ : ∃ first, (net.outLinks (.ni n)).head? = some first := by
      cases hls : net.outLinks (.ni n) with
      | nil => exact absurd hls hout
      | cons first ls => exact ⟨first, rfl⟩
    have hlt := (Net.mem_outLinks.mp (Net.outportForVnet_spec hport).1).1
    dsimp only
    unfold sendFrom
    dsimp only
    rw [hdec, hbuf]
    dsimp only [bind, Except.bind]
    unfold scheduleFlit
    dsimp only
    rw [hport, hfirst]
    exact (Move.send rfl hmay hbuf hdec hport (.register _ _ (.absolute _ (.ni n) 1 (outputUnit_mem hlt).2.1
      (isDelay_one net) .refl)) fun hp => asked_scheduleEventAbsolute (.networkLink port) _ hp).quiet

/-! ### Flits from the network -/

/-- No message in the queue has room in its buffer. -/
def Blocked (now : ℕ) (x : NiState) (q : List Flit) : Prop :=
  ∀ g ∈ q, ∀ b, x.outNode g.vnet = some b → b.areNSlotsAvailable 1 now = false

lemma Blocked.vnet_ne {x : NiState} {q : List Flit} (h : Blocked now x q)
    (hb : x.outNode vnet = some b) (hslot : b.areNSlotsAvailable 1 now = true) : ∀ g ∈ q, g.vnet ≠ vnet := by
  rintro g hg rfl
  rw [h g hg b hb] at hslot
  cases hslot

lemma deliver_sat (l : ℕ) (b : MessageBuffer) (f : Flit) (s : State) :
    Sat Benign (fun s' => deliver net n l b f s = .ok s') (deliver net n l b f s) := by
  cases hd : deliver net n l b f s with
  | ok s' => exact rfl
  | error e =>
    unfold deliver at hd
    cases hx : b.enqueue f.msgPtr s.now (net.period (.ni n)) net.randomization net.warmupEnabled
        (net.randomTime s.data.timeDraws) false with
    | error e' =>
      rw [hx] at hd
      cases hd
      exact rfl
    | ok y =>
      rw [hx] at hd
      cases hd

/-- What `checkStallQueue` takes out of a queue: the first message that has room. -/
lemma takeEjectable_sat (now : ℕ) (x : NiState) (q : List Flit) :
    Sat Benign (fun o => (o = none → Blocked now x q) ∧ ∀ b f rest, o = some (b, f, rest) →
        x.outNode f.vnet = some b ∧ b.areNSlotsAvailable 1 now = true ∧
          ∃ pre post, q = pre ++ f :: post ∧ rest = pre ++ post ∧ Blocked now x pre) (takeEjectable now x q) := by
  induction q with
  | nil => exact ⟨fun _ g hg => (by cases hg), fun b f rest h => by cases h⟩
  | cons g q ih =>
    unfold takeEjectable
    cases hb : x.outNode g.vnet with
    | none => exact rfl
    | some b =>
      refine ite (fun hslot => ?_) fun hslot => ?_
      · refine ⟨fun h => (by cases h), fun b' f rest h => ?_⟩
        cases h
        exact ⟨hb, hslot, [], q, rfl, rfl, fun g hg => by cases hg⟩
      · have hg : Blocked now x [g] := fun g' hg' b' hb' => by simp_all
        refine ih.bind fun o ho => ?_
        cases o with
        | none =>
          refine ⟨fun _ g' hg' => ?_, fun b' f rest h => (by cases h)⟩
          rcases mem_cons.mp hg' with rfl | hg'
          · exact hg _ (mem_singleton_self _)
          · exact ho.1 rfl g' hg'
        | some y =>
          obtain ⟨b', f, rest⟩ := y
          obtain ⟨h1, h2, pre, post, h3, h4, h5⟩ := ho.2 b' f rest rfl
          refine ⟨fun h => (by cases h), fun b'' f' rest' h => ?_⟩
          cases h
          refine ⟨h1, h2, g :: pre, post, by rw [h3]; rfl, by rw [h4]; rfl, fun g' hg' => ?_⟩
          rcases mem_cons.mp hg' with rfl | hg'
          · exact hg _ (mem_singleton_self _)
          · exact h5 g' hg'

/-- A port has ejected a message in this cycle, or has none that can be. -/
def Settled (now n l : ℕ) (d : Data) : Prop :=
  (d.inPort l).messageEnqueuedThisCycle = true ∨ Blocked now (d.ni n) (d.inPort l).stallQueue

lemma Settled.congr {d d' : Data} (h : Settled now n l d)
    (hl : d'.inPort l = d.inPort l) (hb : (d.ni n).outNode vnet = some b) (hslot : b.areNSlotsAvailable 1 now = true)
    (hout : ∀ v ≠ vnet, (d'.ni n).outNode v = (d.ni n).outNode v) : Settled now n l d' := by
  unfold Settled
  rw [hl]
  refine h.imp_right fun h g hg b' hb' => ?_
  grind [Blocked.vnet_ne]

lemma Settled.stall {l' : ℕ} {f : Flit} {d : Data} (h : Settled now n l' d) (hl : l' ≠ l) :
    Settled now n l' (NetworkInterface.stall n l f d) := by
  have hin : (NetworkInterface.stall n l f d).inPort l' = d.inPort l' := update_of_ne hl ..
  have hout : ((NetworkInterface.stall n l f d).ni n).outNode =
      update (d.ni n).outNode f.vnet (((d.ni n).outNode f.vnet).map (·.registerDequeueCallback)) := by
    simp [NetworkInterface.stall, setNi, setInPort]
  unfold Settled at h ⊢
  rw [hin]
  refine h.imp_right fun h g hg b' hb' => ?_
  rw [hout] at hb'
  by_cases hv : g.vnet = f.vnet
  · rw [hv, update_self] at hb'
    obtain ⟨b, hb, rfl⟩ := Option.map_eq_some_iff.mp hb'
    exact h g hg b (hv ▸ hb)
  · rw [update_of_ne hv] at hb'
    exact h g hg b' hb'

/-- `checkStallQueue` at one port. -/
lemma checkStallQueue_sat (hl : l ∈ net.inLinks (.ni n)) :
    Sat Benign (fun s' => Moves net (.ni n) s [] s' ∧ Settled s.now n l s'.data ∧
      ∀ l' ≠ l, Settled s.now n l' s.data → Settled s.now n l' s'.data) (checkStallQueue net n s l) := by
  unfold checkStallQueue
  refine (takeEjectable_sat s.now (s.data.ni n) _).bind fun o ho => ?_
  cases o with
  | none =>
    refine ⟨(Move.flag false).quiet, Or.inr ?_, fun l' hl' h => ?_⟩
    · simpa [setInPort] using ho.1 rfl
    · have : (s.data.setInPort l { s.data.inPort l with messageEnqueuedThisCycle := false }).inPort l' = s.data.inPort l' :=
        update_of_ne hl' ..
      unfold Settled
      rw [this]
      exact h
  | some y =>
    obtain ⟨b, f, rest⟩ := y
    obtain ⟨hb, hslot, pre, post, hq, rfl, hpre⟩ := ho.2 b f rest rfl
    refine (deliver_sat ..).bind fun s1 hd => ?_
    refine ⟨(Move.unstall rfl hl hq (hpre.vnet_ne hb hslot) hb hslot hd).quiet, Or.inl ?_, fun l' hl' h => ?_⟩
    · simp [setInPort]
    · obtain ⟨_, _, _, -, rfl⟩ := deliver_eq hd
      refine h.congr (update_of_ne hl' ..) hb hslot fun v hv => ?_
      simp only [unstall, setNi, setInPort, pushCredit, setCredit, update_self]
      split_ifs <;> simp [update_of_ne hv]

lemma checkStallQueues_sat :
    Sat Benign (fun s' => Moves net (.ni n) s [] s' ∧ ∀ l ∈ net.inLinks (.ni n), Settled s.now n l s'.data)
      ((net.inLinks (.ni n)).foldlM (checkStallQueue net n) s) := by
  refine foldlM (fun done s' => Moves net (.ni n) s [] s' ∧ ∀ l ∈ done, Settled s.now n l s'.data)
    ⟨.refl, fun l hl => (by cases hl)⟩ ?_
  rintro done l rest s1 hls ⟨hm, hset⟩
  have hnow : s1.now = s.now := hm.now
  refine (checkStallQueue_sat (by rw [hls]; simp)).mono ?_
  rintro s2 ⟨hm', hthis, hother⟩
  rw [hnow] at hthis hother
  refine ⟨hm.trans hm', fun l' hl' => ?_⟩
  grind

lemma receiveFlit_sat (hl : l ∈ net.inLinks (.ni n)) (hset : Settled s.now n l s.data) :
    Sat Benign (fun s' => Moves net (.ni n) s [] s' ∧ ∀ l' ≠ l, Settled s.now n l' s.data → Settled s.now n l' s'.data)
      (receiveFlit net n s l) := by
  unfold receiveFlit
  cases hbuf : (s.data.networkLink l).linkBuffer with
  | nil => exact ⟨.refl, fun _ _ h => h⟩
  | cons f rest =>
    refine ite (fun htime => ?_) fun _ => ⟨.refl, fun _ _ h => h⟩
    refine (benign_ensure rfl).bind fun _ _ => ?_
    refine ite (fun htail => ?_) fun htail => ⟨(Move.absorb rfl hl hbuf htime (Bool.eq_false_of_not_eq_true htail)).quiet,
      fun _ _ h => h⟩
    split
    · exact rfl
    · next b hb =>
      replace hb : (s.data.ni n).outNode f.vnet = some b := hb
      refine ite (fun hgo => ?_) fun _ => ?_
      · simp only [Bool.and_eq_true, Bool.not_eq_true'] at hgo
        obtain ⟨hflag, hslot⟩ := hgo
        have hblocked : Blocked s.now (s.data.ni n) (s.data.inPort l).stallQueue := by
          rcases hset with h | h
          · change (s.data.inPort l).messageEnqueuedThisCycle = false at hflag
            rw [hflag] at h
            cases h
          · exact h
        refine (deliver_sat ..).mono fun s' hd => ?_
        refine ⟨(Move.eject rfl hl hbuf htime htail hb hslot (hblocked.vnet_ne hb hslot) hd).quiet, fun l' hl' h => ?_⟩
        obtain ⟨_, _, _, -, rfl⟩ := deliver_eq hd
        refine h.congr rfl hb hslot fun v hv => ?_
        simp [setNi, pushCredit, setCredit, setLink, update_of_ne hv]
      · exact ⟨(Move.stall rfl hl hbuf htime htail).quiet, fun l' hl' h => Settled.stall (d := s.data.popLink l rest) h hl'⟩

lemma receiveFlits_sat (hset : ∀ l ∈ net.inLinks (.ni n), Settled s.now n l s.data) :
    Sat Benign (fun s' => Moves net (.ni n) s [] s') ((net.inLinks (.ni n)).foldlM (receiveFlit net n) s) := by
  refine (foldlM (fun done s' => Moves net (.ni n) s [] s' ∧
    ∀ l ∈ net.inLinks (.ni n), l ∉ done → Settled s.now n l s'.data) ⟨.refl, fun l hl _ => hset l hl⟩ ?_).mono fun _ h => h.1
  rintro done l rest s1 hls ⟨hm, hset⟩
  have hnow : s1.now = s.now := hm.now
  have hl : l ∈ net.inLinks (.ni n) := by rw [hls]; simp
  have hnot : l ∉ done := fun hmem => by grind [Net.nodup_inLinks]
  refine (receiveFlit_sat hl (by rw [hnow]; exact hset l hl hnot)).mono ?_
  rintro s2 ⟨hm', hother⟩
  rw [hnow] at hother
  refine ⟨hm.trans hm', fun l' hl' hdone => hother l' (fun he => hdone (by simp [he])) (hset l' hl' fun hmem => ?_)⟩
  exact hdone (mem_append_left _ hmem)

/-! ### Credits and rescheduling -/

lemma receiveCredit_sat (hf : Flows net s) (hl : l ∈ net.outLinks (.ni n)) :
    Sat Benign (fun s' => Moves net (.ni n) s [] s') (receiveCredit n s l) := by
  unfold receiveCredit
  cases hbuf : (s.data.creditLink l).linkBuffer with
  | nil => exact .refl
  | cons c rest =>
    refine ite (fun htime => ?_) fun _ => .refl
    obtain ⟨w, hw⟩ := hf
    have hroom := hw.niRoom hl hbuf
    exact (incrementCredit_sat hroom).bind fun o ho => (Move.niRefund rfl hl hbuf htime ho).quiet

variable (net n) in
lemma scheduleCreditLinks_spec (s : State) : ∃ σ, (net.inLinks (.ni n)).foldl (scheduleCreditLink net n) s = { s with sched := σ } ∧
    SchedOps net s.now (.ni n) s.sched σ ∧ ∀ l ∈ net.inLinks (.ni n), (s.data.creditLink l).srcQueue ≠ [] →
      σ.Asked net (.creditLink l) (clockEdge (net.period (.ni n)) s.now 1) := by
  suffices h : ∀ ls : List ℕ, (∀ l ∈ ls, l ∈ net.inLinks (.ni n)) → ∀ σ0 : Sched,
      ∃ σ, ls.foldl (scheduleCreditLink net n) { s with sched := σ0 } = { s with sched := σ } ∧
        SchedOps net s.now (.ni n) σ0 σ ∧ ∀ l ∈ ls, (s.data.creditLink l).srcQueue ≠ [] →
          σ.Asked net (.creditLink l) (clockEdge (net.period (.ni n)) s.now 1) from h _ (fun _ => id) s.sched
  intro ls
  induction ls with
  | nil => exact fun _ σ0 => ⟨σ0, rfl, .refl, fun l hl => (by cases hl)⟩
  | cons l ls ih =>
    intro hls σ0
    have hlt := (Net.mem_inLinks.mp (hls l (mem_cons_self ..))).1
    obtain ⟨σ1, h1, hops, hask⟩ : ∃ σ1, scheduleCreditLink net n { s with sched := σ0 } l = { s with sched := σ1 } ∧
        SchedOps net s.now (.ni n) σ0 σ1 ∧ ((s.data.creditLink l).srcQueue ≠ [] →
          σ1.Asked net (.creditLink l) (clockEdge (net.period (.ni n)) s.now 1)) := by
      unfold scheduleCreditLink
      split_ifs with he
      · exact ⟨σ0, rfl, .refl, fun h => absurd he h⟩
      · exact ⟨_, rfl, .absolute _ (.ni n) 1 (outputUnit_mem hlt).2.2 (isDelay_one net) .refl,
          fun _ => asked_scheduleEventAbsolute _ _⟩
    obtain ⟨σ, h2, hops', hask'⟩ := ih (fun l' hl' => hls l' (mem_cons_of_mem _ hl')) σ1
    grind [SchedOps.trans, Sched.Asked.mono]

lemma anyMessage_sat (hn : n < net.numNodes) (vnets : List ℕ) (s : State) :
    Sat Benign (fun x => ∃ σ, x.2 = { s with sched := σ } ∧ SchedOps net s.now (.ni n) s.sched σ) (anyMessage net n vnets s) := by
  induction vnets generalizing s with
  | nil => exact ⟨s.sched, rfl, .refl⟩
  | cons vnet vnets ih =>
    unfold anyMessage
    cases hb : (s.data.ni n).inNode vnet with
    | none => exact ih s
    | some b =>
      refine (bufferReady_sat hn b).bind fun x hx => ?_
      obtain ⟨ready, s1⟩ := x
      obtain ⟨hm, hdata, -⟩ := hx
      have hs1 : s1 = { s with sched := s1.sched } := by
        have hnow : s1.now = s.now := hm.now
        rw [← hnow, ← hdata]
      refine ite (fun _ => ⟨s1.sched, hs1, hm.schedOps⟩) fun _ => ?_
      refine (ih s1).mono ?_
      grind [SchedOps.trans, Move.schedOps]

/-- `checkReschedule`: flits and credits that are left make the interface wake itself. -/
lemma checkReschedule_sat (hn : n < net.numNodes) :
    Sat Benign (fun s' => ∃ σ, s' = { s with sched := σ } ∧ SchedOps net s.now (.ni n) s.sched σ ∧
        ((∃ v < numVcs net n, isReady ((s.data.ni n).niOutVcs v) (clockEdge (net.period (.ni n)) s.now 1) = true) ∨
          (∃ l ∈ net.inLinks (.ni n), isReady (s.data.networkLink l).linkBuffer s.now = true) ∨
          (∃ l ∈ net.outLinks (.ni n), isReady (s.data.creditLink l).linkBuffer s.now = true) →
          σ.Asked net (.ni n) (clockEdge (net.period (.ni n)) s.now 1))) (checkReschedule net n s) := by
  unfold checkReschedule
  refine (anyMessage_sat hn _ s).bind ?_
  rintro ⟨message, s1⟩ ⟨σ, rfl, hops⟩
  dsimp only
  refine ite (fun _ => ?_) fun hno => ?_
  · exact ⟨_, rfl, hops.event _ 1 (ni_mem hn) (isDelay_one net), fun _ => asked_scheduleEvent _ 1⟩
  · refine ⟨σ, rfl, hops, fun h => absurd ?_ hno⟩
    rcases h with ⟨v, hv, h⟩ | ⟨l, hl, h⟩ | ⟨l, hl, h⟩
    · simp_all
    · simp_all
    · simp_all

/-! ### The wakeup -/

/-- What a wakeup of interface `n` has done, and that the schedule knows of the flits and credits it left. -/
structure Done (net : Net) (n : ℕ) (s s' : State) : Prop where
  moves : ∃ tr, Moves net (.ni n) s tr s' ∧ tr.Sublist ((range net.virtualNetworks).flatMap fun vnet =>
    (destinations n vnet s.data).map (.create n vnet))
  /-- Credits to be sent. -/
  sending : ∀ l ∈ net.inLinks (.ni n), (s'.data.creditLink l).srcQueue ≠ [] →
    s'.sched.Asked net (.creditLink l) (clockEdge (net.period (.ni n)) s.now 1)
  /-- Flits to be sent, flits that have come and credits that have come. -/
  waiting : (∃ v < numVcs net n, isReady ((s'.data.ni n).niOutVcs v) (clockEdge (net.period (.ni n)) s.now 1) = true) ∨
      (∃ l ∈ net.inLinks (.ni n), isReady (s'.data.networkLink l).linkBuffer s.now = true) ∨
      (∃ l ∈ net.outLinks (.ni n), isReady (s'.data.creditLink l).linkBuffer s.now = true) →
    s'.sched.Asked net (.ni n) (clockEdge (net.period (.ni n)) s.now 1)

lemma wakeup_spec (hn : n < net.numNodes) (hf : Flows net s) (ha : Allocators net s.data) :
    Sat Benign (fun s' => net.period (.ni n) ∣ s.now ∧ Done net n s s') (wakeup net n s) := by
  unfold wakeup
  refine (benign_ensure rfl).bind fun _ hout => (benign_ensure rfl).bind fun _ hedge => ?_
  have hout : net.outLinks (.ni n) ≠ [] := by simpa using hout
  refine (takeMessages_sat hn ha).bind fun s1 ⟨tr, hm1, htr⟩ => ?_
  have hloop : ∀ (ls : List ℕ) (f : State → ℕ → Except Fault State) (s1 : State), Flows net s1 →
      (∀ l ∈ ls, ∀ s, Flows net s → Sat Benign (fun s' => Moves net (.ni n) s [] s') (f s l)) →
      Sat Benign (fun s' => Moves net (.ni n) s1 [] s') (ls.foldlM f s1) := by
    intro ls f s1 hf1 hstep
    refine foldlM_const (Q := fun s' => Moves net (.ni n) s1 [] s') .refl fun l hl s2 hm => ?_
    exact (hstep l hl s2 (hm.flows hf1)).mono fun s3 hm' => hm.trans hm'
  have hf1 := hm1.flows hf
  refine (hloop _ _ s1 hf1 fun l _ s hf => scheduleOutputPort_sat hf hout l).bind fun s2 hm2 => ?_
  refine checkStallQueues_sat.bind fun s3 ⟨hm3, hset⟩ => ?_
  refine (receiveFlits_sat (by rw [hm3.now]; exact hset)).bind fun s4 hm4 => ?_
  have hf4 := hm4.flows (hm3.flows (hm2.flows hf1))
  refine (hloop _ _ s4 hf4 fun l hl s hf => receiveCredit_sat hf hl).bind fun s5 hm5 => ?_
  obtain ⟨σ, hs6, hops, hask⟩ := scheduleCreditLinks_spec net n s5
  rw [hs6]
  refine (checkReschedule_sat hn).mono ?_
  rintro _ ⟨σ', rfl, hops', hask'⟩
  have hm := hm1.trans (hm2.trans (hm3.trans (hm4.trans (hm5.trans (Move.sched (hops.trans hops')).quiet))))
  have hnow : s5.now = s.now := (hm5.now.trans (hm4.now.trans (hm3.now.trans (hm2.now.trans hm1.now))))
  refine ⟨of_decide_eq_true hedge, ⟨_, hm, by simpa using htr⟩, fun l hl hne => ?_, ?_⟩
  · rw [← hnow]
    exact (hask l hl hne).mono hops'
  · rw [← hnow]
    exact hask'

end NetworkInterface

end Gem5.Garnet
