import Gem5.Garnet.Routing
import Gem5.Garnet.SchedOps

/-!
# The moves a wakeup is made of

Whatever a component does in a wakeup is a sequence of small moves: a flit goes from one buffer to the
next, a credit does, a packet is made, or only arbiters and schedules change. `Move` lists them,
each with the checks that were made before it and with what it asks of the schedule. Invariants of the
network are proved of moves, and nothing about them needs the code again.

A move carries a label where it matters later that a wakeup does such a thing once: a flit arriving at a
port of a router, and a packet being made for a destination.
-/

namespace Gem5.Garnet

open Sim Ruby Lib NetworkInterface Function OutputUnit

variable (net : Net)

/-! ### What the moves do to the data -/

/-- What a flit that arrives makes of its virtual channel. -/
inductive Entered (now r l : ℕ) (f : Flit) (vc : VirtualChannel) : VirtualChannel → Prop where
  | head {outport : ℕ} (hf : f.isHead = true) (hvc : vc.vcState.1 = .idle) (hr : Routed net r f.route l outport) :
      Entered now r l f vc { vc.setActive now with outputPort := some outport }
  | other (hf : f.isHead = false) (hvc : vc.vcState.1 = .active) : Entered now r l f vc vc

/-- When a flit that arrives now may take part in switch allocation. -/
def InputUnit.saTime (now r : ℕ) : ℕ :=
  if net.routerLatency r = 1 then now else clockEdge (net.period (.router r)) now (net.routerLatency r - 1)

/-- The flits in the crossbar that go to an output port. -/
def switchFor (d : Data) (lo : ℕ) : List Flit :=
  match (net.link lo).src with
  | .router r => (net.inLinks (.router r)).flatMap fun li => (d.switchBuffers li).filter fun f => f.outport = some lo
  | .ni _ => []

/-- The virtual channel `u` of the input port `li`, with the flit `f` at its front, asks for the output
port `lo` and may have it: what `arbitrate_inports` found out. -/
structure Request (now r li u lo : ℕ) (f : Flit) (rest : List Flit) (d : Data) : Prop where
  vnet : u / net.vcPerVnet r < net.virtualNetworks
  buf : (d.virtualChannels (li, u)).inputBuffer = f :: rest
  time : f.time ≤ now
  stage : f.isStage .sa now = true
  port : (d.virtualChannels (li, u)).outputPort = some lo
  /-- `send_allowed`: there is a free virtual channel, or a credit. -/
  allowed : match (d.virtualChannels (li, u)).outputVc with
    | none => hasFreeVc net now lo (u / net.vcPerVnet r) d = true
    | some v => hasCredit now lo v d = .ok true
  /-- `send_allowed`: no older flit is passed over. -/
  first : net.isVnetOrdered (u / net.vcPerVnet r) = true → ∀ i < net.vcPerVnet r,
    SwitchAllocator.isOlder now li lo (d.virtualChannels (li, u)).enqueueTime d
      (u / net.vcPerVnet r * net.vcPerVnet r + i) = .ok false

variable {net} in
/-- A request depends on its input port's virtual channels and on what is known of its output port's. -/
lemma Request.congr {now r li lo u : ℕ} {f : Flit} {rest : List Flit} {d d' : Data}
    (h : Request net now r li u lo f rest d) (hvc : ∀ v, d'.virtualChannels (li, v) = d.virtualChannels (li, v))
    (hout : ∀ v, d'.outVcState (lo, v) = d.outVcState (lo, v)) : Request net now r li u lo f rest d' where
  vnet := h.vnet
  buf := by rw [hvc]; exact h.buf
  time := h.time
  stage := h.stage
  port := by rw [hvc]; exact h.port
  allowed := by
    have hal := h.allowed
    have hidle : isVcIdle now lo d' = isVcIdle now lo d := by
      grind [isVcIdle]
    simp only [hasFreeVc, hasCredit, hidle, hvc, hout] at hal ⊢
    exact hal
  first := by
    have hfi := h.first
    simp only [SwitchAllocator.isOlder, hvc] at hfi ⊢
    exact hfi

namespace Data

/-- A flit enters the virtual channel `vc` of a router. -/
def arrive (l : ℕ) (rest : List Flit) (f : Flit) (vc : VirtualChannel) (d : Data) : Data :=
  (d.setLink l { d.networkLink l with linkBuffer := rest }).setVc (l, f.vc)
    { vc with inputBuffer := vc.inputBuffer ++ [f] }

/-- A credit reaches an output unit. -/
def refund (l : ℕ) (c : Credit) (rest : List Credit) (o : OutVcState) (d : Data) : Data :=
  (d.setCredit l { d.creditLink l with linkBuffer := rest }).setOutVc (l, c.vc) o

/-- The flit `f` at the front of `(li, u)` goes into the crossbar, for `(lo, v)`. -/
def forward (now r lo li u v : ℕ) (f : Flit) (rest : List Flit) (d : Data) : Data :=
  let vc := d.virtualChannels (li, u)
  let o := d.outVcState (lo, v)
  let f' := { f with outport := some lo, vc := v }.advanceStage .st now
  let o' : OutVcState :=
    { o with
      time := if vc.outputVc = none then now else o.time
      vcState := .active
      creditCount := o.creditCount - 1 }
  let vc' : VirtualChannel :=
    if f.isTail then { vc with inputBuffer := rest }.setIdle now else { vc with inputBuffer := rest, outputVc := some v }
  SwitchAllocator.updateArbiters net r lo li u
    ((((d.setOutVc (lo, v) o').setSwitch li (d.switchBuffers li ++ [f'])).setVc (li, u) vc').pushCredit li
      ⟨u, f.isTail, now⟩)

def traverse (edge lo li : ℕ) (f : Flit) (rest : List Flit) (d : Data) : Data :=
  (d.pushFlit lo { f.advanceStage .lt edge with time := edge }).setSwitch li rest

/-- A flit goes out from an interface. -/
def send (edge n l port vc : ℕ) (f : Flit) (rest : List Flit) (o : OutVcState) (d : Data) : Data :=
  let x := d.ni n
  { d.setNi n
      { x with
        outVcState := update x.outVcState vc o
        niOutVcs := update x.niOutVcs vc rest
        outVcsEnqueueTime := if f.isTail then update x.outVcsEnqueueTime vc infinite else x.outVcsEnqueueTime } with
    vcRoundRobin := update d.vcRoundRobin l vc }.pushFlit port { f with time := edge }

def niRefund (n l : ℕ) (c : Credit) (rest : List Credit) (o : OutVcState) (d : Data) : Data :=
  let x := d.ni n
  (d.setCredit l { d.creditLink l with linkBuffer := rest }).setNi n
    { x with outVcState := update x.outVcState c.vc o }

/-- The front of a link buffer is taken out. -/
def popLink (l : ℕ) (rest : List Flit) (d : Data) : Data := d.setLink l { d.networkLink l with linkBuffer := rest }

end Data

/-- A consumer has been asked to run at `t`, unless workers put that off. -/
def Sched.Asked (c : ConsumerId) (t : ℕ) (σ : Sched) : Prop :=
  σ.parallelActive = false → ceilTo (net.period c) t ∈ σ.ticks c

section Asked

variable {net} {now : ℕ} {σ : Sched}

lemma asked_scheduleWakeup (r k : ℕ) :
    (σ.scheduleWakeup net now r k).Asked net (.router r) (clockEdge (net.period (.router r)) now k) := by
  intro _
  rw [Sched.ticks_scheduleWakeup, ceilTo_of_dvd (net.period_pos _) (dvd_clockEdge ..)]
  exact mem_insertSorted.mpr (Or.inl rfl)

lemma asked_scheduleEvent (c : ConsumerId) (k : ℕ) :
    (σ.scheduleEvent net now c k).Asked net c (clockEdge (net.period c) now k) := by
  intro _
  rw [Sched.ticks_scheduleEvent, ceilTo_of_dvd (net.period_pos _) (dvd_clockEdge ..)]
  exact mem_insertSorted.mpr (Or.inl rfl)

lemma asked_scheduleEventAbsolute (c : ConsumerId) (t : ℕ) : (σ.scheduleEventAbsolute net now c t).Asked net c t := by
  intro _
  rw [Sched.ticks_scheduleEventAbsolute]
  exact mem_insertSorted.mpr (Or.inl rfl)

lemma asked_deferOrSchedule (c : ConsumerId) (t : ℕ) : (σ.deferOrSchedule net now c t).Asked net c t := by
  intro hp
  rw [Sched.deferOrSchedule_parallelActive] at hp
  rw [Sched.deferOrSchedule_of_seq net now σ hp]
  exact asked_scheduleEventAbsolute c t hp

lemma Sched.Asked.mono {self c : ConsumerId} {t : ℕ} {σ' : Sched} (h : σ.Asked net c t)
    (hσ : SchedOps net now self σ σ') : σ'.Asked net c t := fun hp =>
  hσ.ticks_subset (h (by rw [← hσ.parallelActive]; exact hp))

end Asked

/-! ### Moves -/

/-- What an interface does to a buffer it takes messages from: messages and destinations go. -/
structure Shrinks (b b' : MessageBuffer) : Prop where
  zero : b'.allowZeroLatency = b.allowZeroLatency
  heap : ∀ m' ∈ b'.prioHeap, ∃ m ∈ b.prioHeap, m'.destination.Sublist m.destination

/-- The output virtual channel that a packet has, or gets. -/
def Gets (now r li u lo : ℕ) (d : Data) (v : ℕ) : Prop :=
  (d.virtualChannels (li, u)).outputVc = some v ∨ (d.virtualChannels (li, u)).outputVc = none ∧
    (vcsOf net lo (u / net.vcPerVnet r)).find? (isVcIdle now lo d) = some v

inductive Label where
  | quiet
  /-- A flit arrives at an input port of a router. -/
  | arrive (l : ℕ)
  /-- An interface makes a packet of a virtual network for a destination. -/
  | create (n vnet dest : ℕ)
  deriving DecidableEq

/-- A move in a wakeup of `self`. -/
inductive Move (self : ConsumerId) (s : State) : Label → State → Prop where
  /-- Only the schedule changes. -/
  | sched {σ : Sched} (hσ : SchedOps net s.now self s.sched σ) : Move self s .quiet { s with sched := σ }
  /-- Only the request vectors of a switch allocator change. -/
  | requests {r : ℕ} (pr w : ℕ → Option ℕ) (hr : self = .router r) :
      Move self s .quiet { s with data := { s.data with portRequests := pr, vcWinners := w } }
  | arrive {r l : ℕ} {f : Flit} {rest : List Flit} {vc : VirtualChannel} {σ : Sched} (hr : self = .router r)
      (hl : l ∈ net.inLinks (.router r)) (hbuf : (s.data.networkLink l).linkBuffer = f :: rest) (htime : f.time ≤ s.now)
      (hvc : Entered net s.now r l f.incrementHops (s.data.virtualChannels (l, f.vc)) vc)
      (hσ : SchedOps net s.now self s.sched σ)
      (hsa : net.routerLatency r ≠ 1 → σ.Asked net (.router r) (InputUnit.saTime net s.now r))
      (hmore : isReady rest s.now = true → σ.Asked net (.router r) (clockEdge (net.period (.router r)) s.now 1)) :
      Move self s (.arrive l)
        ⟨s.now, s.data.arrive l rest (f.incrementHops.advanceStage .sa (InputUnit.saTime net s.now r)) vc, σ⟩
  | refund {r l : ℕ} {c : Credit} {rest : List Credit} {o : OutVcState} {σ : Sched}
      (hr : self = .router r ∨ self = .outputUnit l) (hl : l ∈ net.outLinks (.router r))
      (hbuf : (s.data.creditLink l).linkBuffer = c :: rest) (htime : c.time ≤ s.now)
      (ho : (s.data.outVcState (l, c.vc)).incrementCredit = .ok o) (hσ : SchedOps net s.now self s.sched σ)
      (hmore : isReady rest s.now = true → σ.Asked net (.outputUnit l) (clockEdge (net.period (.router r)) s.now 1)) :
      Move self s .quiet ⟨s.now, s.data.refund l c rest (if c.isFreeSignal then o.setState .idle s.now else o), σ⟩
  | forward {r li u lo v : ℕ} {f : Flit} {rest : List Flit} {σ : Sched} (hr : self = .router r)
      (hli : li ∈ net.inLinks (.router r)) (hlo : lo ∈ net.outLinks (.router r))
      (hreq : Request net s.now r li u lo f rest s.data)
      (hv : (s.data.virtualChannels (li, u)).outputVc = some v ∨ (s.data.virtualChannels (li, u)).outputVc = none ∧
          (vcsOf net lo (u / net.vcPerVnet r)).find? (isVcIdle s.now lo s.data) = some v)
      (hsw : switchFor net s.data lo = []) (hσ : SchedOps net s.now self s.sched σ)
      (hcredit : σ.Asked net (.creditLink li) (clockEdge (net.period (.router r)) s.now 1)) :
      Move self s .quiet ⟨s.now, s.data.forward net s.now r lo li u v f rest, σ⟩
  | traverse {r li lo : ℕ} {f : Flit} {rest : List Flit} {σ : Sched} (hr : self = .router r)
      (hli : li ∈ net.inLinks (.router r)) (hlo : lo ∈ net.outLinks (.router r))
      (hbuf : s.data.switchBuffers li = f :: rest) (hout : f.outport = some lo) (hsw : switchFor net s.data lo = [f])
      (hσ : SchedOps net s.now self s.sched σ)
      (hlink : σ.Asked net (.networkLink lo) (clockEdge (net.period (.router r)) s.now 1)) :
      Move self s .quiet ⟨s.now, s.data.traverse (clockEdge (net.period (.router r)) s.now 1) lo li f rest, σ⟩
  | link {l : ℕ} {f : Flit} {rest : List Flit} {σ : Sched} (hl : l < net.links.length) (hself : self = .networkLink l)
      (hbuf : (s.data.networkLink l).srcQueue = f :: rest) (htime : f.time ≤ s.now)
      (hσ : SchedOps net s.now self s.sched σ)
      (hread : σ.Asked net (net.link l).dst.consumer (clockEdge (net.period self) s.now (net.link l).latency))
      (hmore : rest ≠ [] → σ.Asked net self (clockEdge (net.period self) s.now 1)) :
      Move self s .quiet ⟨s.now, s.data.setLink l ⟨rest, (s.data.networkLink l).linkBuffer ++
        [{ f with time := clockEdge (net.period self) s.now (net.link l).latency }]⟩, σ⟩
  | creditLink {l : ℕ} {c : Credit} {rest : List Credit} {σ : Sched} (hl : l < net.links.length)
      (hself : self = .creditLink l) (hbuf : (s.data.creditLink l).srcQueue = c :: rest) (htime : c.time ≤ s.now)
      (hσ : SchedOps net s.now self s.sched σ)
      (hread : σ.Asked net (net.link l).src.consumer (clockEdge (net.period self) s.now (net.link l).creditLatency))
      (hmore : rest ≠ [] → σ.Asked net self (clockEdge (net.period self) s.now 1)) :
      Move self s .quiet ⟨s.now, s.data.setCredit l ⟨rest, (s.data.creditLink l).linkBuffer ++
        [{ c with time := clockEdge (net.period self) s.now (net.link l).creditLatency }]⟩, σ⟩
  /-- The protocol's buffers and the search for virtual channels change. -/
  | interface {n : ℕ} {x : NiState} (hn : self = .ni n) (hvc : x.outVcState = (s.data.ni n).outVcState)
      (hbuf : x.niOutVcs = (s.data.ni n).niOutVcs) (htime : x.outVcsEnqueueTime = (s.data.ni n).outVcsEnqueueTime)
      (hstall : x.stallCount = (s.data.ni n).stallCount) (hnode : x.outNode = (s.data.ni n).outNode)
      (hin : ∀ v b', x.inNode v = some b' → ∃ b, (s.data.ni n).inNode v = some b ∧ Shrinks b b')
      (halloc : ∀ v, x.vcAllocator v = (s.data.ni n).vcAllocator v ∨ x.vcAllocator v < net.niVcPerVnet n) :
      Move self s .quiet { s with data := s.data.setNi n x }
  | create {n vnet port vc dest : ℕ} {msg : Message} {d : Data} (hn : self = .ni n) (hvnet : vnet < net.virtualNetworks)
      (hport : net.outportForVnet n vnet = some port)
      (hvc : ∃ i < net.niVcPerVnet n, vc = vnet * net.niVcPerVnet n + i)
      (hidle : ((s.data.ni n).outVcState vc).vcState = .idle)
      (hd : makePacket net n s.now vnet port vc dest msg s.data = .ok d) :
      Move self s (.create n vnet dest) { s with data := d }
  | send {n l port vc : ℕ} {f : Flit} {rest : List Flit} {o : OutVcState} {σ : Sched} (hn : self = .ni n)
      (hmay : maySend net n s.now l (s.data.ni n) vc = true)
      (hbuf : (s.data.ni n).niOutVcs vc = f :: rest) (ho : ((s.data.ni n).outVcState vc).decrementCredit = .ok o)
      (hport : net.outportForVnet n f.vnet = some port) (hσ : SchedOps net s.now self s.sched σ)
      (hlink : σ.Asked net (.networkLink port) (clockEdge (net.period (.ni n)) s.now 1)) :
      Move self s .quiet ⟨s.now, s.data.send (clockEdge (net.period (.ni n)) s.now 1) n l port vc f rest o, σ⟩
  /-- `messageEnqueuedThisCycle` is reset. -/
  | flag {l : ℕ} (b : Bool) : Move self s .quiet
      { s with data := s.data.setInPort l { s.data.inPort l with messageEnqueuedThisCycle := b } }
  | absorb {n l : ℕ} {f : Flit} {rest : List Flit} (hn : self = .ni n) (hl : l ∈ net.inLinks (.ni n))
      (hbuf : (s.data.networkLink l).linkBuffer = f :: rest) (htime : f.time ≤ s.now) (htail : f.isTail = false) :
      Move self s .quiet (absorb n l { f with dequeueTime := s.now }
        { s with data := s.data.popLink l rest })
  | eject {n l : ℕ} {f : Flit} {rest : List Flit} {b : MessageBuffer} {s' : State} (hn : self = .ni n)
      (hl : l ∈ net.inLinks (.ni n)) (hbuf : (s.data.networkLink l).linkBuffer = f :: rest) (htime : f.time ≤ s.now)
      (htail : f.isTail = true) (hnode : (s.data.ni n).outNode f.vnet = some b)
      (hslot : b.areNSlotsAvailable 1 s.now = true) (hstall : ∀ g ∈ (s.data.inPort l).stallQueue, g.vnet ≠ f.vnet)
      (hd : deliver net n l b { f with dequeueTime := s.now }
        { s with data := s.data.popLink l rest } = .ok s') : Move self s .quiet s'
  | stall {n l : ℕ} {f : Flit} {rest : List Flit} (hn : self = .ni n) (hl : l ∈ net.inLinks (.ni n))
      (hbuf : (s.data.networkLink l).linkBuffer = f :: rest) (htime : f.time ≤ s.now) (htail : f.isTail = true) :
      Move self s .quiet
        ⟨s.now, stall n l { f with dequeueTime := s.now } (s.data.popLink l rest), s.sched⟩
  | unstall {n l : ℕ} {f : Flit} {pre post : List Flit} {b : MessageBuffer} {s' : State} (hn : self = .ni n)
      (hl : l ∈ net.inLinks (.ni n)) (hq : (s.data.inPort l).stallQueue = pre ++ f :: post)
      (hpre : ∀ g ∈ pre, g.vnet ≠ f.vnet) (hnode : (s.data.ni n).outNode f.vnet = some b)
      (hslot : b.areNSlotsAvailable 1 s.now = true) (hd : deliver net n l b f s = .ok s') :
      Move self s .quiet { s' with data := (unstall n f.vnet s'.data).setInPort l ⟨pre ++ post, true⟩ }
  | niRefund {n l : ℕ} {c : Credit} {rest : List Credit} {o : OutVcState} (hn : self = .ni n)
      (hl : l ∈ net.outLinks (.ni n)) (hbuf : (s.data.creditLink l).linkBuffer = c :: rest) (htime : c.time ≤ s.now)
      (ho : ((s.data.ni n).outVcState c.vc).incrementCredit = .ok o) :
      Move self s .quiet
        { s with data := s.data.niRefund n l c rest (if c.isFreeSignal then o.setState .idle s.now else o) }

/-- A sequence of moves, with the labels that are not quiet. -/
inductive Moves (self : ConsumerId) (s : State) : List Label → State → Prop where
  | refl : Moves self s [] s
  | tail {tr : List Label} {a : Label} {s' s'' : State} (h : Moves self s tr s') (hm : Move net self s' a s'') :
      Moves self s (if a = .quiet then tr else tr ++ [a]) s''

variable {net} {self : ConsumerId} {s s' s'' : State} {a : Label} {tr tr' : List Label}

lemma Move.quiet (h : Move net self s .quiet s') : Moves net self s [] s' := Moves.refl.tail h

lemma Move.moves (h : Move net self s a s') (ha : a ≠ .quiet) : Moves net self s [a] s' := by
  have := Moves.refl.tail h
  rwa [if_neg ha] at this

lemma Moves.trans (h : Moves net self s tr s') (h' : Moves net self s' tr' s'') : Moves net self s (tr ++ tr') s'' := by
  induction h' with
  | refl => rwa [List.append_nil]
  | @tail tr' a _ _ _ hm ih =>
    have := ih.tail hm
    grind

lemma Moves.invariant {I : State → Prop} (hI : ∀ s a s', Move net self s a s' → I s → I s')
    (h : Moves net self s tr s') (h0 : I s) : I s' := by
  induction h with
  | refl => exact h0
  | tail _ hm ih => exact hI _ _ _ hm ih

/-- What `deliver` does when it returns. -/
lemma deliver_eq {n l : ℕ} {b : MessageBuffer} {f : Flit} (h : deliver net n l b f s = .ok s') :
    ∃ b' t draws, b.enqueue f.msgPtr s.now (net.period (.ni n)) net.randomization net.warmupEnabled
        (net.randomTime s.data.timeDraws) false = .ok (b', t) ∧
      s' = ⟨s.now, { (s.data.setNi n { s.data.ni n with
          outNode := update (s.data.ni n).outNode f.vnet (some b') }).pushCredit l ⟨f.vc, true, s.now⟩ with
        timeDraws := draws
        received := s.data.received ++ [(n, f)]
        enqueued := s.data.enqueued ++ [(n, f.vnet, f)] }, s.sched⟩ := by
  unfold deliver at h
  obtain ⟨⟨b', t⟩, h1, h2⟩ := bind_eq_ok.mp h
  refine ⟨b', t, if b.isRandomized net.randomization then s.data.timeDraws + 1 else s.data.timeDraws, ?_, ?_⟩
  · unfold ofBuffer at h1
    grind
  · exact (Except.ok.inj h2).symm

lemma Move.now (h : Move net self s a s') : s'.now = s.now := by
  cases h with
  | eject _ _ _ _ _ _ _ _ hd => grind [deliver_eq]
  | unstall _ _ _ _ _ _ hd => grind [deliver_eq]
  | _ => rfl

lemma Moves.now (h : Moves net self s tr s') : s'.now = s.now := by
  induction h with
  | refl => rfl
  | tail _ hm ih => exact hm.now.trans ih

lemma Move.schedOps (h : Move net self s a s') : SchedOps net s.now self s.sched s'.sched := by
  cases h with
  | sched hσ => exact hσ
  | arrive _ _ _ _ _ hσ => exact hσ
  | refund _ _ _ _ _ hσ => exact hσ
  | forward _ _ _ _ _ _ hσ => exact hσ
  | traverse _ _ _ _ _ _ hσ => exact hσ
  | link _ _ _ _ hσ => exact hσ
  | creditLink _ _ _ _ hσ => exact hσ
  | send _ _ _ _ _ hσ => exact hσ
  | eject _ _ _ _ _ _ _ _ hd =>
    obtain ⟨_, _, _, -, rfl⟩ := deliver_eq hd
    exact .refl
  | unstall _ _ _ _ _ _ hd =>
    obtain ⟨_, _, _, -, rfl⟩ := deliver_eq hd
    exact .refl
  | _ => exact .refl

lemma Moves.schedOps (h : Moves net self s tr s') : SchedOps net s.now self s.sched s'.sched := by
  induction h with
  | refl => exact .refl
  | tail h hm ih =>
    have := hm.schedOps
    rw [h.now] at this
    exact ih.trans this

end Gem5.Garnet
