import Gem5.Garnet.Pending

/-!
# Stalled messages

A tail flit whose message has no room in its protocol buffer waits in the stall queue of its input port. The
interface tries again whenever it wakes up, but takes one message from a port in a cycle, and nothing but a dequeue
of that buffer schedules it: `checkReschedule` does not look at the stall queues. So a message can be left
with room in its buffer and nobody to wake the interface, in two ways: another message of the port was ejected
in the same cycle, or the room was made by a dequeue of that very tick, before the message was stalled and the
callback registered.

A run in which neither happens (`Unhurried`) retries every stalled message. The invariant behind it is
that a stalled message with room has its interface scheduled after the last dequeue of its buffer. The networks are
those of `Net`, without bridges.
-/

namespace Gem5.Garnet

open Sim Ruby Lib Function List MessageBuffer Net Data NetworkInterface

/-! ### Room in a buffer -/

/-- The buffer takes another message at any later tick. -/
def hasRoom (b : MessageBuffer) : Bool := b.maxSize == 0 || decide (b.occupancy + 1 ≤ b.maxSize)

variable {b : MessageBuffer} {now l : ℕ} {d : Data} {f : Flit} {ls : List ℕ} {self : ConsumerId} {a : Label}

lemma areNSlotsAvailable_eq {t : ℕ} (h : b.timeLastTimePop < t) : b.areNSlotsAvailable 1 t = hasRoom b := by
  unfold areNSlotsAvailable hasRoom occupancy
  grind

/-- What an interface does to a buffer of messages for the protocol: messages are put in. -/
structure Fuller (b b' : MessageBuffer) : Prop where
  maxSize : b'.maxSize = b.maxSize
  pop : b'.timeLastTimePop = b.timeLastTimePop
  occupancy : b.occupancy ≤ b'.occupancy

namespace Fuller

variable {b b' b'' : MessageBuffer}

lemma refl (b : MessageBuffer) : Fuller b b := ⟨rfl, rfl, le_rfl⟩

lemma trans (h : Fuller b b') (h' : Fuller b' b'') : Fuller b b'' :=
  ⟨h'.maxSize.trans h.maxSize, h'.pop.trans h.pop, h.occupancy.trans h'.occupancy⟩

lemma hasRoom (h : Fuller b b') (hr : hasRoom b' = true) : hasRoom b = true := by
  simp only [Garnet.hasRoom, Bool.or_eq_true, beq_iff_eq, decide_eq_true_eq, h.maxSize] at hr ⊢
  exact hr.imp_right fun hr => (Nat.succ_le_succ h.occupancy).trans hr

end Fuller

/-- What `enqueue` does to a buffer, which had room. -/
lemma enqueue_fuller {b' : MessageBuffer} {msg : Message} {delta draw t : ℕ} {random warmup bypass : Bool}
    (h : b.enqueue msg now delta random warmup draw bypass = .ok (b', t)) :
    Fuller b b' ∧ hasRoom b = true ∧ b'.dequeueCallback = b.dequeueCallback := by
  unfold enqueue at h
  obtain ⟨_, -, h⟩ := bind_eq_ok.mp h
  obtain ⟨_, -, h⟩ := bind_eq_ok.mp h
  obtain ⟨_, -, h⟩ := bind_eq_ok.mp h
  obtain ⟨_, hsize, h⟩ := bind_eq_ok.mp h
  have hsize := ensure_eq_ok.mp hsize
  have hb' := congrArg Prod.fst (Except.ok.inj h)
  dsimp only at hb'
  subst hb'
  refine ⟨⟨rfl, rfl, ?_⟩, ?_, rfl⟩
  · simp only [occupancy, length_pushHeap]
    omega
  · simp only [hasRoom, occupancy, length_pushHeap, Bool.or_eq_true, beq_iff_eq, decide_eq_true_eq] at hsize ⊢
    grind

def FullerNodes (x x' : ℕ → Option MessageBuffer) : Prop := ∀ v b', x' v = some b' → ∃ b, x v = some b ∧ Fuller b b'

namespace FullerNodes

variable {x x' x'' : ℕ → Option MessageBuffer}

lemma refl (x : ℕ → Option MessageBuffer) : FullerNodes x x := fun _ b h => ⟨b, h, .refl b⟩

lemma trans (h : FullerNodes x x') (h' : FullerNodes x' x'') : FullerNodes x x'' := fun v b'' hb'' => by
  obtain ⟨b', hb', hf'⟩ := h' v b'' hb''
  obtain ⟨b, hb, hf⟩ := h v b' hb'
  exact ⟨b, hb, hf.trans hf'⟩

lemma update {v : ℕ} {b b' : MessageBuffer} (hb : x v = some b) (hf : Fuller b b') :
    FullerNodes x (update x v (some b')) := fun v' b'' hb'' => by grind [Fuller.refl]

lemma map {v : ℕ} {f : MessageBuffer → MessageBuffer} (hf : ∀ b, Fuller b (f b)) :
    FullerNodes x (Function.update x v ((x v).map f)) := fun v' b'' hb'' => by
  rcases eq_or_ne v' v with rfl | hne
  · grind [update_self, Option.map_eq_some_iff]
  simp_all [Fuller.refl]

end FullerNodes

/-! ### What ejection depends on -/

variable {net : Net} {n : ℕ} {s s' : State}

/-- What ejection at interface `n` depends on has not changed. -/
structure EjectionEq (n : ℕ) (d d' : Data) : Prop where
  inPort : d'.inPort = d.inPort
  outNode : (d'.ni n).outNode = (d.ni n).outNode
  buffer : ∀ l, (d'.networkLink l).linkBuffer = (d.networkLink l).linkBuffer

namespace EjectionEq

variable {d d' d'' : Data}

lemma refl (n : ℕ) (d : Data) : EjectionEq n d d := ⟨rfl, rfl, fun _ => rfl⟩

lemma trans (h : EjectionEq n d d') (h' : EjectionEq n d' d'') : EjectionEq n d d'' :=
  ⟨h'.inPort.trans h.inPort, h'.outNode.trans h.outNode, fun l => (h'.buffer l).trans (h.buffer l)⟩

lemma setNi {x : NiState} (hx : x.outNode = (d.ni n).outNode) : EjectionEq n d (d.setNi n x) := by
  refine ⟨rfl, ?_, fun _ => rfl⟩
  rw [← hx]
  exact congrArg NiState.outNode (update_self ..)

lemma pushFlit (l : ℕ) (f : Flit) (d : Data) : EjectionEq n d (d.pushFlit l f) := by
  refine ⟨rfl, rfl, fun l' => ?_⟩
  rcases eq_or_ne l' l with rfl | hne
  · simp [Data.pushFlit, Data.setLink]
  · simp [Data.pushFlit, Data.setLink, hne]

end EjectionEq

/-- The part of an interface's wakeup that does not concern ejection. -/
def Aside (n : ℕ) (s s' : State) : Prop := s'.now = s.now ∧ EjectionEq n s.data s'.data

lemma Aside.refl (n : ℕ) (s : State) : Aside n s s := ⟨rfl, .refl n s.data⟩

lemma Aside.trans {s'' : State} (h : Aside n s s') (h' : Aside n s' s'') : Aside n s s'' :=
  ⟨h'.1.trans h.1, h.2.trans h'.2⟩

lemma Aside.foldlM {l : List ℕ} {f : State → ℕ → Except Fault State}
    (hf : ∀ s x s', f s x = .ok s' → Aside n s s') (h : l.foldlM f s = .ok s') : Aside n s s' := by
  induction l generalizing s with
  | nil =>
    cases h
    exact Aside.refl n _
  | cons x l ih => grind [bind_eq_ok, Aside.trans]

namespace NetworkInterface

variable {vnet : ℕ}

lemma flitisizeTo_eq {now port : ℕ} {msg : Message} {multi : Bool} {dests : List ℕ} {d : Data} {y : Bool × Data}
    (h : flitisizeTo net n now vnet port msg multi dests d = .ok y) : EjectionEq n d y.2 := by
  induction dests generalizing d with
  | nil =>
    cases h
    exact .refl n d
  | cons dest dests ih =>
    unfold flitisizeTo at h
    obtain ⟨⟨vc, x⟩, h1, h⟩ := bind_eq_ok.mp h
    have hx : EjectionEq n d (d.setNi n x) := .setNi ((calculateVC_nodes h1).2)
    dsimp only at h
    cases vc with
    | none =>
      cases h
      exact hx
    | some vc =>
      obtain ⟨d2, h2, h⟩ := bind_eq_ok.mp h
      obtain ⟨_, _, -, -, -, rfl⟩ := makePacket_eq h2
      have hrem : EjectionEq n (d.setNi n x) (if multi then removeDest n vnet dest (d.setNi n x) else d.setNi n x) := by
        split_ifs
        · exact .setNi rfl
        · exact .refl ..
      refine (hx.trans (hrem.trans ?_)).trans (ih h)
      exact ⟨rfl, by simp [setNi], fun _ => rfl⟩

lemma takeMessage_aside (h : takeMessage net n s vnet = .ok s') : Aside n s s' := by
  unfold takeMessage at h
  cases hb : (s.data.ni n).inNode vnet with
  | none =>
    rw [hb] at h
    cases h
    exact .refl n s
  | some b =>
    rw [hb] at h
    obtain ⟨⟨ready, s1⟩, h1, h⟩ := bind_eq_ok.mp h
    have hs1 : Aside n s s1 := by
      obtain ⟨⟨_, again⟩, -, h1⟩ := bind_eq_ok.mp h1
      cases h1
      cases again <;> exact ⟨rfl, .refl ..⟩
    dsimp only at h
    split_ifs at h
    · cases hm : b.prioHeap with
      | nil =>
        rw [hm] at h
        cases h
      | cons msg _ =>
        rw [hm] at h
        obtain ⟨⟨all, d⟩, h2, h⟩ := bind_eq_ok.mp h
        have hd : EjectionEq n s1.data d := by
          unfold flitisizeMessage at h2
          split at h2
          · cases h2
          · exact flitisizeTo_eq h2
        dsimp only at h
        split_ifs at h
        · obtain ⟨d', h3, h⟩ := bind_eq_ok.mp h
          cases h
          refine hs1.trans ⟨rfl, hd.trans ?_⟩
          unfold dequeueIn at h3
          dsimp only at h3
          split at h3
          · cases h3
          · obtain ⟨_, -, h3⟩ := bind_eq_ok.mp h3
            cases h3
            exact .setNi rfl
        · cases h
          exact hs1.trans ⟨rfl, hd⟩
    · cases h
      exact hs1

lemma scheduleOutputPort_aside {l : ℕ} (h : scheduleOutputPort net n s l = .ok s') : Aside n s s' := by
  unfold scheduleOutputPort at h
  split at h
  · cases h
    exact .refl n s
  · unfold sendFrom at h
    obtain ⟨o, -, h⟩ := bind_eq_ok.mp h
    split at h
    · cases h
    · unfold scheduleFlit at h
      dsimp only at h
      split at h
      · cases h
        refine ⟨rfl, EjectionEq.trans ?_ (.pushFlit _ _ _)⟩
        exact ⟨rfl, by simp [setNi], fun _ => rfl⟩
      · cases h

lemma receiveCredit_aside {l : ℕ} (h : receiveCredit n s l = .ok s') : Aside n s s' := by
  unfold receiveCredit at h
  split at h
  · cases h
    exact .refl n s
  · rename_i c rest _
    by_cases htime : c.time ≤ s.now
    · rw [if_pos htime] at h
      obtain ⟨o, -, h⟩ := bind_eq_ok.mp h
      cases h
      exact ⟨rfl, rfl, by simp [setNi], fun _ => rfl⟩
    simp_all [Aside.refl]

lemma anyMessage_data {vnets : List ℕ} {y : Bool × State} (h : anyMessage net n vnets s = .ok y) :
    y.2.now = s.now ∧ y.2.data = s.data := by
  induction vnets generalizing s with
  | nil =>
    cases h
    exact ⟨rfl, rfl⟩
  | cons vnet vnets ih =>
    unfold anyMessage at h
    split at h
    · exact ih h
    · obtain ⟨⟨ready, s1⟩, h1, h⟩ := bind_eq_ok.mp h
      have hs1 : s1.now = s.now ∧ s1.data = s.data := by
        obtain ⟨⟨_, again⟩, -, h1⟩ := bind_eq_ok.mp h1
        cases h1
        cases again <;> exact ⟨rfl, rfl⟩
      dsimp only at h
      split_ifs at h
      · cases h
        exact hs1
      grind

lemma checkReschedule_data (h : checkReschedule net n s = .ok s') : s'.now = s.now ∧ s'.data = s.data := by
  unfold checkReschedule at h
  obtain ⟨⟨message, s1⟩, h1, h⟩ := bind_eq_ok.mp h
  have hs1 := anyMessage_data h1
  dsimp only at h hs1
  split_ifs at h <;>
  · cases h
    exact hs1

end NetworkInterface

/-! ### A wakeup in no hurry -/

/-- The tail flit that a link has brought to an input port, if there is one. -/
def arrivingTail (now l : ℕ) (d : Data) : List Flit :=
  match (d.networkLink l).linkBuffer with
  | [] => []
  | f :: _ => if f.time ≤ now ∧ f.isTail = true then [f] else []

/-- The message of a flit has room in its buffer. -/
def fits (n : ℕ) (d : Data) (f : Flit) : Bool :=
  match (d.ni n).outNode f.vnet with
  | none => false
  | some b => hasRoom b

/-- What keeps a wakeup of interface `n` from leaving a message behind: at each of its input ports at most one of the
messages that are stalled or come in has room, and none comes in that has room only since this tick. -/
structure Unhurried (net : Net) (n : ℕ) (s : State) : Prop where
  single : ∀ l ∈ net.inLinks (.ni n), ((s.data.inPort l).stallQueue ++ arrivingTail s.now l s.data).Pairwise
    fun f g => ¬ (fits n s.data f = true ∧ fits n s.data g = true)
  fresh : ∀ l ∈ net.inLinks (.ni n), ∀ f ∈ arrivingTail s.now l s.data, ∀ b ∈ (s.data.ni n).outNode f.vnet,
    hasRoom b = true → b.timeLastTimePop < s.now

lemma fits_iff : fits n d f = true ↔ ∃ b, (d.ni n).outNode f.vnet = some b ∧ hasRoom b = true := by
  unfold fits
  grind

lemma FullerNodes.fits {d' : Data} (h : FullerNodes (d.ni n).outNode (d'.ni n).outNode)
    (hf : fits n d' f = true) : fits n d f = true := by
  obtain ⟨b', hb', hr⟩ := fits_iff.mp hf
  obtain ⟨b, hb, hful⟩ := h f.vnet b' hb'
  exact fits_iff.mpr ⟨b, hb, hful.hasRoom hr⟩

/-- The ports `ls` of interface `n` have been tried since `s₀`: a message that is left although it has room was there
before, and its buffer has been dequeued from in this tick. -/
structure Tried (n : ℕ) (s₀ : State) (ls : List ℕ) (s : State) : Prop where
  now : s.now = s₀.now
  nodes : FullerNodes (s₀.data.ni n).outNode (s.data.ni n).outNode
  left : ∀ l ∈ ls, ∀ g ∈ (s.data.inPort l).stallQueue, fits n s.data g = true →
    g ∈ (s₀.data.inPort l).stallQueue ∧ ∃ b, (s₀.data.ni n).outNode g.vnet = some b ∧ s₀.now ≤ b.timeLastTimePop
  /-- A message was ejected because it had room. -/
  flag : ∀ l ∈ ls, (s.data.inPort l).messageEnqueuedThisCycle = true →
    ∃ f ∈ (s₀.data.inPort l).stallQueue, fits n s₀.data f = true

namespace Tried

variable {s₀ : State} {ls : List ℕ}

/-- Messages are put into the buffers, and nothing else happens at the ports that have been tried. -/
lemma congr (h : Tried n s₀ ls s) (hnow : s'.now = s.now)
    (hnodes : FullerNodes (s.data.ni n).outNode (s'.data.ni n).outNode)
    (hport : ∀ l ∈ ls, s'.data.inPort l = s.data.inPort l) : Tried n s₀ ls s' where
  now := hnow.trans h.now
  nodes := h.nodes.trans hnodes
  left l hl g hg hf := by grind [left, FullerNodes.fits]
  flag l hl hb := by
    rw [hport l hl] at hb
    exact h.flag l hl hb

lemma aside (h : Tried n s₀ ls s) (ha : Aside n s s') : Tried n s₀ ls s' :=
  h.congr ha.1 (by rw [ha.2.outNode]; exact .refl _) fun l _ => by rw [ha.2.inPort]

lemma snoc (h : Tried n s₀ ls s) {l : ℕ} (hleft : ∀ g ∈ (s.data.inPort l).stallQueue, fits n s.data g = true →
      g ∈ (s₀.data.inPort l).stallQueue ∧ ∃ b, (s₀.data.ni n).outNode g.vnet = some b ∧ s₀.now ≤ b.timeLastTimePop)
    (hflag : (s.data.inPort l).messageEnqueuedThisCycle = true →
      ∃ f ∈ (s₀.data.inPort l).stallQueue, fits n s₀.data f = true) : Tried n s₀ (ls ++ [l]) s := by
  refine ⟨h.now, h.nodes, fun l' hl' => ?_, fun l' hl' => ?_⟩
  · grind [left]
  grind [flag]

end Tried

lemma le_timeLastTimePop (hr : hasRoom b = true) (hb : b.areNSlotsAvailable 1 now = false) :
    now ≤ b.timeLastTimePop := by grind [areNSlotsAvailable_eq]

lemma deliver_nodes (hd : deliver net n l b f s = .ok s')
    (hb : (s.data.ni n).outNode f.vnet = some b) :
    hasRoom b = true ∧ s'.now = s.now ∧ FullerNodes (s.data.ni n).outNode (s'.data.ni n).outNode ∧
      s'.data.inPort = s.data.inPort ∧ s'.data.networkLink = s.data.networkLink := by
  obtain ⟨b', t, _, he, rfl⟩ := deliver_eq hd
  obtain ⟨hful, hroom, -⟩ := enqueue_fuller he
  refine ⟨hroom, rfl, ?_, rfl, rfl⟩
  have hout : ((s.data.setNi n { s.data.ni n with
      outNode := update (s.data.ni n).outNode f.vnet (some b') }).ni n).outNode =
        update (s.data.ni n).outNode f.vnet (some b') := by simp [setNi]
  show FullerNodes _ ((s.data.setNi n { s.data.ni n with
      outNode := update (s.data.ni n).outNode f.vnet (some b') }).ni n).outNode
  rw [hout]
  exact .update hb hful

lemma unstall_nodes (n vnet : ℕ) (d : Data) :
    FullerNodes (d.ni n).outNode ((unstall n vnet d).ni n).outNode := by
  simp only [unstall, setNi, update_self]
  split_ifs
  · exact .map fun b => ⟨rfl, rfl, le_rfl⟩
  · exact .refl _

lemma not_fits_of_pairwise {pre post arr : List Flit} {g : Flit}
    (h : ((pre ++ f :: post) ++ arr).Pairwise fun f g => ¬ (fits n d f = true ∧ fits n d g = true))
    (hf : fits n d f = true) (hg : g ∈ pre ++ post) : fits n d g = false := by grind

lemma Tried.checkStallQueue {s₀ : State} (h : Tried n s₀ ls s) (hu : Unhurried net n s₀)
    (hl : l ∈ net.inLinks (.ni n)) (hnot : l ∉ ls) (hport : s.data.inPort l = s₀.data.inPort l)
    (hs : checkStallQueue net n s l = .ok s') :
    Tried n s₀ (ls ++ [l]) s' ∧ s'.data.networkLink = s.data.networkLink ∧
      ∀ l' ≠ l, s'.data.inPort l' = s.data.inPort l' := by
  unfold NetworkInterface.checkStallQueue at hs
  obtain ⟨o, ho, hs⟩ := bind_eq_ok.mp hs
  obtain ⟨hnone, hsome⟩ := (takeEjectable_sat ..).of_ok ho
  have hother : ∀ {d : Data} {p : InputPort} (l' : ℕ), l' ≠ l → (d.setInPort l p).inPort l' = d.inPort l' :=
    fun l' hl' => update_of_ne hl' ..
  have hne : ∀ l' ∈ ls, l' ≠ l := fun l' hl' he => hnot (he ▸ hl')
  cases o with
  | none =>
    cases hs
    have hblocked := hnone rfl
    have hthis : (s.data.setInPort l { s.data.inPort l with messageEnqueuedThisCycle := false }).inPort l =
        { s.data.inPort l with messageEnqueuedThisCycle := false } := update_self ..
    have ht : Tried n s₀ ls
        { s with data := s.data.setInPort l { s.data.inPort l with messageEnqueuedThisCycle := false } } :=
      h.congr rfl (.refl _) fun l' hl' => hother l' (hne l' hl')
    refine ⟨ht.snoc (fun g hg hf => ?_) fun hb => ?_, rfl, hother⟩
    · dsimp only at hg
      rw [hthis] at hg
      obtain ⟨b1, hb1, hr⟩ := fits_iff.mp hf
      obtain ⟨b, hb, hful⟩ := h.nodes _ b1 hb1
      refine ⟨hport ▸ hg, b, hb, ?_⟩
      rw [← hful.pop, ← h.now]
      exact le_timeLastTimePop hr (hblocked g hg b1 hb1)
    simp_all
  | some y =>
    obtain ⟨b, f, rest⟩ := y
    obtain ⟨hb, hslot, pre, post, hq, rfl, -⟩ := hsome b f rest rfl
    obtain ⟨s1, hd, hs⟩ := bind_eq_ok.mp hs
    cases hs
    obtain ⟨hroom, hnow, hnodes, hports, hlinks⟩ := deliver_nodes hd hb
    have hnodes' := hnodes.trans (unstall_nodes n f.vnet s1.data)
    have hfit : fits n s₀.data f = true := h.nodes.fits (fits_iff.mpr ⟨b, hb, hroom⟩)
    have hthis : ((unstall n f.vnet s1.data).setInPort l ⟨pre ++ post, true⟩).inPort l =
        ⟨pre ++ post, true⟩ := update_self ..
    have hports' : ∀ l' ≠ l, ((unstall n f.vnet s1.data).setInPort l ⟨pre ++ post, true⟩).inPort l' =
        s.data.inPort l' := fun l' hl' => (hother l' hl').trans (congrFun hports l')
    have hq0 : (s₀.data.inPort l).stallQueue = pre ++ f :: post := hport ▸ hq
    have hf : f ∈ (s₀.data.inPort l).stallQueue := by grind
    have ht : Tried n s₀ ls
        { s1 with data := (unstall n f.vnet s1.data).setInPort l ⟨pre ++ post, true⟩ } :=
      h.congr hnow hnodes' fun l' hl' => hports' l' (hne l' hl')
    refine ⟨ht.snoc (fun g hg hgf => ?_) fun _ => ⟨f, hf, hfit⟩, hlinks, hports'⟩
    dsimp only at hg
    rw [hthis] at hg
    have hsingle := hu.single l hl
    rw [hq0] at hsingle
    have hno := not_fits_of_pairwise hsingle hfit hg
    rw [h.nodes.fits (hnodes'.fits hgf)] at hno
    cases hno

lemma receiveFlit_cases (h : receiveFlit net n s l = .ok s') :
    s' = s ∨ ∃ f rest, (s.data.networkLink l).linkBuffer = f :: rest ∧ f.time ≤ s.now ∧
      (s' = absorb n l { f with dequeueTime := s.now } { s with data := s.data.popLink l rest } ∨
        f.isTail = true ∧ ∃ b, (s.data.ni n).outNode f.vnet = some b ∧
          (deliver net n l b { f with dequeueTime := s.now }
              { s with data := s.data.popLink l rest } = .ok s' ∨
            ((s.data.inPort l).messageEnqueuedThisCycle = true ∨ b.areNSlotsAvailable 1 s.now = false) ∧
              s' = { s with data :=
                NetworkInterface.stall n l { f with dequeueTime := s.now } (s.data.popLink l rest) })) := by
  unfold receiveFlit at h
  cases hq : (s.data.networkLink l).linkBuffer with
  | nil => simp_all
  | cons f rest =>
    rw [hq] at h
    dsimp only at h
    by_cases htime : f.time ≤ s.now
    swap
    · simp_all
    rw [if_pos htime] at h
    obtain ⟨_, -, h⟩ := bind_eq_ok.mp h
    refine Or.inr ⟨f, rest, rfl, htime, ?_⟩
    by_cases htail : ({ f with dequeueTime := s.now } : Flit).isTail = true
    swap
    · rw [if_neg htail] at h
      exact Or.inl (Except.ok.inj h).symm
    rw [if_pos htail] at h
    change (match (s.data.ni n).outNode f.vnet with | none => _ | some b => _) = _ at h
    cases hb : (s.data.ni n).outNode f.vnet with
    | none =>
      rw [hb] at h
      cases h
    | some b =>
      rw [hb] at h
      refine Or.inr ⟨htail, b, rfl, ?_⟩
      change (if (!(s.data.inPort l).messageEnqueuedThisCycle && b.areNSlotsAvailable 1 s.now) = true then _ else _) = _ at h
      by_cases hgo : (!(s.data.inPort l).messageEnqueuedThisCycle && b.areNSlotsAvailable 1 s.now) = true
      · rw [if_pos hgo] at h
        exact Or.inl h
      · rw [if_neg hgo] at h
        refine Or.inr ⟨?_, (Except.ok.inj h).symm⟩
        grind

/-- `receiveFlit` at a port that has been tried. -/
lemma Tried.receiveFlit {s₀ : State} (h : Tried n s₀ (net.inLinks (.ni n)) s) (hu : Unhurried net n s₀)
    (hl : l ∈ net.inLinks (.ni n)) (hbuf : (s.data.networkLink l).linkBuffer = (s₀.data.networkLink l).linkBuffer)
    (hs : receiveFlit net n s l = .ok s') :
    Tried n s₀ (net.inLinks (.ni n)) s' ∧
      ∀ l' ≠ l, (s'.data.networkLink l').linkBuffer = (s.data.networkLink l').linkBuffer := by
  rcases receiveFlit_cases hs with rfl | ⟨f, rest, hq, htime, hs⟩
  · exact ⟨h, fun _ _ => rfl⟩
  have hother : ∀ l' ≠ l, ((s.data.popLink l rest).networkLink l').linkBuffer = (s.data.networkLink l').linkBuffer :=
    fun l' hl' => congrArg LinkState.linkBuffer (update_of_ne hl' ..)
  rcases hs with rfl | ⟨htail, b, hb, hs⟩
  · exact ⟨h.congr rfl (.refl _) fun _ _ => rfl, hother⟩
  rcases hs with hd | ⟨hwhy, rfl⟩
  · have hpop : Tried n s₀ (net.inLinks (.ni n)) { s with data := s.data.popLink l rest } :=
      h.congr rfl (.refl _) fun _ _ => rfl
    obtain ⟨-, hnow, hnodes, hports, hlinks⟩ := deliver_nodes hd hb
    grind [Tried.congr]
  -- the flit that is stalled does not fit
  have harr : f ∈ arrivingTail s₀.now l s₀.data := by grind [arrivingTail, Tried.now]
  have hno : fits n s.data f = false := by
    rw [Bool.eq_false_iff]
    intro hf
    have hf0 := h.nodes.fits hf
    rcases hwhy with hflag | hslot
    · grind [Tried.flag, Unhurried.single]
    · obtain ⟨b1, hb1, hr⟩ := fits_iff.mp hf
      cases hb.symm.trans hb1
      obtain ⟨b0, hb0, hful⟩ := h.nodes _ b hb
      have hlt := hu.fresh l hl f harr b0 hb0 (hful.hasRoom hr)
      have hle := le_timeLastTimePop hr hslot
      rw [hful.pop, h.now] at hle
      omega
  have hnodes : FullerNodes (s.data.ni n).outNode
      ((stall n l { f with dequeueTime := s.now } (s.data.popLink l rest)).ni n).outNode := by
    simp only [stall, setNi, setInPort, update_self]
    exact .map fun b => ⟨rfl, rfl, le_rfl⟩
  have hport : ∀ l', (stall n l { f with dequeueTime := s.now } (s.data.popLink l rest)).inPort l' =
      if l' = l then { s.data.inPort l with
        stallQueue := (s.data.inPort l).stallQueue ++ [{ f with dequeueTime := s.now }] } else s.data.inPort l' :=
    fun l' => update_apply ..
  refine ⟨⟨h.now, h.nodes.trans hnodes, fun l' hl' g hg hf => ?_, fun l' hl' hflag => ?_⟩, hother⟩
  · have hfs : fits n s.data g = true := hnodes.fits hf
    dsimp only at hg
    rw [hport] at hg
    split_ifs at hg with he
    · subst he
      rcases mem_append.mp hg with hg | hg
      · exact h.left l' hl' g hg hfs
      · rw [mem_singleton.mp hg] at hfs
        cases hno.symm.trans hfs
    · exact h.left l' hl' g hg hfs
  grind [Tried.flag]

/-! ### The wakeup -/

lemma EjectionEq.unhurried (hd : EjectionEq n s.data s'.data) (hnow : s'.now = s.now) (hu : Unhurried net n s) :
    Unhurried net n s' := by
  have hfits : fits n s'.data = fits n s.data := by
    funext f
    rw [fits, fits, hd.outNode]
  have harr : ∀ l, arrivingTail s'.now l s'.data = arrivingTail s.now l s.data := fun l => by
    rw [arrivingTail, arrivingTail, hd.buffer, hnow]
  refine ⟨fun l hl => ?_, fun l hl => ?_⟩
  · rw [harr, hfits, hd.inPort]
    exact hu.single l hl
  · rw [harr, hd.outNode, hnow]
    exact hu.fresh l hl

lemma EjectionEq.tried {s'' : State} (hd : EjectionEq n s.data s'.data) (hnow : s'.now = s.now)
    (h : Tried n s' ls s'') : Tried n s ls s'' where
  now := h.now.trans hnow
  nodes := hd.outNode ▸ h.nodes
  left l hl g hg hf := by
    have := h.left l hl g hg hf
    rwa [hd.inPort, hd.outNode, hnow] at this
  flag l hl hb := by
    obtain ⟨f, hf, hfit⟩ := h.flag l hl hb
    grind [EjectionEq.inPort, fits, EjectionEq.outNode]

/-- An interface that is in no hurry leaves only messages behind that were stalled before and whose buffers have been
dequeued from in this tick. -/
lemma NetworkInterface.wakeup_tried (hu : Unhurried net n s) (h : wakeup net n s = .ok s') :
    Tried n s (net.inLinks (.ni n)) s' := by
  unfold wakeup at h
  obtain ⟨_, -, h⟩ := bind_eq_ok.mp h
  obtain ⟨_, -, h⟩ := bind_eq_ok.mp h
  obtain ⟨s1, h1, h⟩ := bind_eq_ok.mp h
  obtain ⟨s2, h2, h⟩ := bind_eq_ok.mp h
  obtain ⟨s3, h3, h⟩ := bind_eq_ok.mp h
  obtain ⟨s4, h4, h⟩ := bind_eq_ok.mp h
  obtain ⟨s5, h5, h⟩ := bind_eq_ok.mp h
  have ha : Aside n s s2 := (Aside.foldlM (fun _ _ _ => takeMessage_aside) h1).trans
    (Aside.foldlM (fun _ _ _ => scheduleOutputPort_aside) h2)
  have hu2 := ha.2.unhurried ha.1 hu
  have hstall : Tried n s2 (net.inLinks (.ni n)) s3 ∧ ∀ l, s3.data.networkLink l = s2.data.networkLink l := by
    have hsat : Sat (fun _ => True) (fun s' => Tried n s2 (net.inLinks (.ni n)) s' ∧
        (∀ l, s'.data.networkLink l = s2.data.networkLink l) ∧
        ∀ l ∉ net.inLinks (.ni n), s'.data.inPort l = s2.data.inPort l)
        ((net.inLinks (.ni n)).foldlM (checkStallQueue net n) s2) := by
      refine Sat.foldlM (fun done s' => Tried n s2 done s' ∧ (∀ l, s'.data.networkLink l = s2.data.networkLink l) ∧
        ∀ l ∉ done, s'.data.inPort l = s2.data.inPort l) ⟨⟨rfl, .refl _, by simp, by simp⟩, fun _ => rfl, fun _ _ => rfl⟩ ?_
      rintro done l rest b hls ⟨ht, hlinks, hports⟩
      have hl : l ∈ net.inLinks (.ni n) := by rw [hls]; simp
      have hnot : l ∉ done := fun hmem => by grind [nodup_inLinks]
      cases hb : checkStallQueue net n b l with
      | error e => trivial
      | ok b' =>
        obtain ⟨ht', hlinks', hports'⟩ := ht.checkStallQueue hu2 hl hnot (hports l hnot) hb
        refine ⟨ht', fun l' => by rw [hlinks', hlinks], fun l' hl' => ?_⟩
        grind
    have := hsat.of_ok h3
    exact ⟨this.1, this.2.1⟩
  have hreceive : Tried n s2 (net.inLinks (.ni n)) s4 := by
    have hsat : Sat (fun _ => True) (fun s' => Tried n s2 (net.inLinks (.ni n)) s' ∧
        ∀ l ∉ net.inLinks (.ni n), (s'.data.networkLink l).linkBuffer = (s2.data.networkLink l).linkBuffer)
        ((net.inLinks (.ni n)).foldlM (receiveFlit net n) s3) := by
      refine Sat.foldlM (fun done s' => Tried n s2 (net.inLinks (.ni n)) s' ∧
        ∀ l ∉ done, (s'.data.networkLink l).linkBuffer = (s2.data.networkLink l).linkBuffer)
        ⟨hstall.1, fun l _ => congrArg LinkState.linkBuffer (hstall.2 l)⟩ ?_
      rintro done l rest b hls ⟨ht, hlinks⟩
      have hl : l ∈ net.inLinks (.ni n) := by rw [hls]; simp
      have hnot : l ∉ done := fun hmem => by grind [nodup_inLinks]
      cases hb : receiveFlit net n b l with
      | error e => trivial
      | ok b' =>
        obtain ⟨ht', hlinks'⟩ := ht.receiveFlit hu2 hl (hlinks l hnot) hb
        refine ⟨ht', fun l' hl' => ?_⟩
        grind
    exact (hsat.of_ok h4).1
  have hcredit : Tried n s2 (net.inLinks (.ni n)) s5 :=
    hreceive.aside (Aside.foldlM (fun _ _ _ => receiveCredit_aside) h5)
  obtain ⟨σ, hσ, -⟩ := scheduleCreditLinks_spec net n s5
  rw [hσ] at h
  obtain ⟨hnow, hdata⟩ := checkReschedule_data h
  refine ha.2.tried ha.1 (hcredit.congr hnow ?_ fun l _ => ?_)
  · rw [hdata]
    exact .refl _
  · rw [hdata]

/-! ### Callbacks -/

/-- The number of messages of a virtual network that are stalled at the input ports `ls`. -/
def stalled (d : Data) (ls : List ℕ) (v : ℕ) : ℕ := (ls.map fun l => (d.inPort l).stallQueue.countP (·.vnet = v)).sum

lemma stalled_congr {d' : Data} (h : ∀ l ∈ ls, (d'.inPort l).stallQueue = (d.inPort l).stallQueue)
    (v : ℕ) : stalled d' ls v = stalled d ls v := by
  unfold stalled
  simp_all [map_congr_left]

lemma stalled_update (hl : l ∈ ls) (hnd : ls.Nodup) (p : InputPort) (v : ℕ) :
    stalled (d.setInPort l p) ls v + (d.inPort l).stallQueue.countP (·.vnet = v) =
      stalled d ls v + p.stallQueue.countP (·.vnet = v) := by
  obtain ⟨as, bs, rfl⟩ := append_of_mem hl
  have hsplit : ∀ d' : Data, stalled d' (as ++ l :: bs) v =
      stalled d' as v + ((d'.inPort l).stallQueue.countP (·.vnet = v) + stalled d' bs v) := fun d' => by
    simp [stalled]
  obtain ⟨-, hbs, hdisj⟩ := nodup_append.mp hnd
  have hother : ∀ l' ≠ l, (d.setInPort l p).inPort l' = d.inPort l' := fun l' hne => update_of_ne hne ..
  have hthis : (d.setInPort l p).inPort l = p := update_self ..
  have ha : stalled (d.setInPort l p) as v = stalled d as v :=
    stalled_congr (fun l' hl' => by rw [hother l' (hdisj l' hl' l (mem_cons_self ..))]) v
  have hb : stalled (d.setInPort l p) bs v = stalled d bs v :=
    stalled_congr (fun l' hl' => by rw [hother l' fun he => (nodup_cons.mp hbs).1 (he ▸ hl')]) v
  rw [hsplit, hsplit, ha, hb, hthis]
  omega

/-- While messages of a virtual network are stalled, their buffer calls back. -/
structure Callbacks (net : Net) (d : Data) : Prop where
  count : ∀ n v, stalled d (net.inLinks (.ni n)) v = (d.ni n).stallCount v
  registered : ∀ n v b, 0 < (d.ni n).stallCount v → (d.ni n).outNode v = some b → b.dequeueCallback = true

namespace Callbacks

variable {d d' : Data}

lemma congr (h : Callbacks net d) (hq : ∀ l, (d'.inPort l).stallQueue = (d.inPort l).stallQueue)
    (hc : ∀ n, (d'.ni n).stallCount = (d.ni n).stallCount)
    (ho : ∀ n v b', (d'.ni n).outNode v = some b' → ∃ b, (d.ni n).outNode v = some b ∧ b'.dequeueCallback = b.dequeueCallback) :
    Callbacks net d' where
  count n v := by
    rw [stalled_congr fun l _ => hq l, hc, h.count]
  registered n v b' hpos hb' := by
    obtain ⟨b, hb, hcall⟩ := ho n v b' hb'
    rw [hc] at hpos
    exact hcall.trans (h.registered n v b hpos hb)

lemma same (h : Callbacks net d) (hport : d'.inPort = d.inPort) (hni : d'.ni = d.ni) : Callbacks net d' :=
  h.congr (fun _ => by rw [hport]) (fun _ => by rw [hni]) fun _ _ b hb => ⟨b, hni ▸ hb, rfl⟩

variable {x : NiState}

section

variable (h : Callbacks net d) (hq : ∀ l, (d'.inPort l).stallQueue = (d.inPort l).stallQueue)
  (hd : d'.ni = update d.ni n x) (hc : x.stallCount = (d.ni n).stallCount)
include h hq hd hc

lemma setNi
    (ho : ∀ v b', x.outNode v = some b' → ∃ b, (d.ni n).outNode v = some b ∧ b'.dequeueCallback = b.dequeueCallback) :
    Callbacks net d' := by
  refine h.congr hq (fun m => ?_) fun m v b' hb' => ?_
  · rw [hd]
    grind
  · rw [hd] at hb'
    grind

lemma setNi_same (ho : x.outNode = (d.ni n).outNode) : Callbacks net d' :=
  h.setNi hq hd hc fun _ b' hb' => ⟨b', ho ▸ hb', rfl⟩

end

lemma deliver {l : ℕ} {b : MessageBuffer} {f : Flit} (h : Callbacks net s.data)
    (hd : deliver net n l b f s = .ok s') (hb : (s.data.ni n).outNode f.vnet = some b) :
    Callbacks net s'.data := by
  obtain ⟨b', _, _, he, rfl⟩ := deliver_eq hd
  refine h.setNi (fun _ => rfl) rfl rfl fun v b1 hb1 => ?_
  dsimp only at hb1
  rcases eq_or_ne v f.vnet with rfl | hne
  · rw [update_self] at hb1
    cases hb1
    exact ⟨b, hb, (enqueue_fuller he).2.2⟩
  simp_all

/-- A message is stalled or no longer stalled: the number of stalled messages of its virtual network changes, and the
callback with it. -/
lemma change (h : Callbacks net d) {l : ℕ} {p : InputPort} (hl : l ∈ net.inLinks (.ni n))
    (hcount : ∀ v, x.stallCount v + (d.inPort l).stallQueue.countP (·.vnet = v) =
      (d.ni n).stallCount v + p.stallQueue.countP (·.vnet = v))
    (hreg : ∀ v b, 0 < x.stallCount v → x.outNode v = some b → b.dequeueCallback = true) :
    Callbacks net ((d.setInPort l p).setNi n x) := by
  have hni : ((d.setInPort l p).setNi n x).ni n = x := update_self ..
  have hne : ∀ m ≠ n, ((d.setInPort l p).setNi n x).ni m = d.ni m := fun m hm => update_of_ne hm ..
  refine ⟨fun m v => ?_, fun m v b => ?_⟩
  · rcases eq_or_ne m n with rfl | hm
    · have h1 := stalled_update hl (nodup_inLinks _) p v (d := d)
      have h2 := hcount v
      have h3 := h.count m v
      rw [hni]
      change (stalled (d.setInPort l p) _ v : ℤ) = _
      omega
    · rw [hne m hm, ← h.count]
      refine congrArg Nat.cast (stalled_congr (fun l' hl' => ?_) v)
      have : l' ≠ l := by grind [mem_inLinks]
      exact congrArg InputPort.stallQueue (update_of_ne this ..)
  grind [registered]

end Callbacks

lemma callbacks_init (net : Net) : Callbacks net (init net) where
  count n v := by simp [stalled, init]
  registered n v b h := absurd h (by simp [init])

lemma Callbacks.move (h : Callbacks net s.data) (hm : Move net self s a s') : Callbacks net s'.data := by
  have hflag : ∀ (l : ℕ) (p : InputPort), p.stallQueue = (s.data.inPort l).stallQueue → ∀ l',
      ((s.data.setInPort l p).inPort l').stallQueue = (s.data.inPort l').stallQueue := by
    intro l p hp l'
    rcases eq_or_ne l' l with rfl | hne
    · simpa [setInPort] using hp
    · simp [setInPort, hne]
  cases hm with
  | interface _ _ _ _ hstall hnode => exact h.setNi_same (fun _ => rfl) rfl hstall hnode
  | create _ _ _ _ _ hd =>
    obtain ⟨_, _, -, -, -, rfl⟩ := makePacket_eq hd
    exact h.setNi_same (fun _ => rfl) rfl rfl rfl
  | send => exact h.setNi_same (fun _ => rfl) rfl rfl rfl
  | niRefund => exact h.setNi_same (fun _ => rfl) rfl rfl rfl
  | @flag l b => exact h.congr (hflag l _ rfl) (fun _ => rfl) fun _ _ b hb => ⟨b, hb, rfl⟩
  | @eject n l f rest b _ hn hl hbuf _ _ hnode _ _ hd =>
    have hpop : Callbacks net (s.data.popLink l rest) := h.same rfl rfl
    exact hpop.deliver (s := { s with data := s.data.popLink l rest }) hd hnode
  | @stall n l f rest hn hl =>
    have hpop : Callbacks net (s.data.popLink l rest) := h.same rfl rfl
    refine hpop.change hl (fun v => ?_) fun v b hpos hb => ?_
    · grind
    · dsimp only at hpos hb
      rcases eq_or_ne v f.vnet with rfl | hne
      · rw [update_self] at hb
        obtain ⟨b0, -, rfl⟩ := Option.map_eq_some_iff.mp hb
        rfl
      grind [Callbacks.registered]
  | @unstall n l f pre post b s1 hn hl hq hpre hnode hslot hd =>
    have hd' := h.deliver hd hnode
    obtain ⟨-, -, -, hports, -⟩ := deliver_nodes hd hnode
    have hq1 : (s1.data.inPort l).stallQueue = pre ++ f :: post := by rw [hports, hq]
    have hpos : 0 < (s1.data.ni n).stallCount f.vnet := by
      have hle : 0 < (s1.data.inPort l).stallQueue.countP (·.vnet = f.vnet) := by simp_all
      have hsplit := stalled_update hl (nodup_inLinks _) ⟨[], false⟩ f.vnet (d := s1.data)
      grind [Callbacks.count]
    have hch := hd'.change (p := ⟨pre ++ post, true⟩) (x := { s1.data.ni n with
        stallCount := update (s1.data.ni n).stallCount f.vnet ((s1.data.ni n).stallCount f.vnet - 1)
        outNode := if (s1.data.ni n).stallCount f.vnet - 1 = 0 then
            update (s1.data.ni n).outNode f.vnet
              (((s1.data.ni n).outNode f.vnet).map (·.unregisterDequeueCallback))
          else (s1.data.ni n).outNode }) hl (fun v => ?_) fun v b' hpos' hb' => ?_
    · exact hch
    · dsimp only
      rw [hq1, countP_append, countP_append, countP_cons]
      rcases eq_or_ne v f.vnet with rfl | hne
      · simp
        omega
      · simp [update_of_ne hne, hne.symm]
    · dsimp only at hpos' hb'
      rcases eq_or_ne v f.vnet with rfl | hne
      · grind [Callbacks.registered]
      · rw [update_of_ne hne] at hpos'
        grind [Callbacks.registered]
  | _ => exact h.same rfl rfl

/-! ### The protocol -/

lemma onOutNode_spec {op : ProtocolOp} {b' : MessageBuffer} {called : Bool}
    (h : op.onOutNode net now b = .ok (b', called)) :
    b'.dequeueCallback = b.dequeueCallback ∧ (b.timeLastTimePop ≤ now → b'.timeLastTimePop ≤ now) ∧
      (called = b.dequeueCallback ∨ hasRoom b' = hasRoom b ∧ b'.timeLastTimePop = b.timeLastTimePop) := by
  have hdequeue : ∀ {y : MessageBuffer × Bool}, b.dequeue now = .ok y →
      y.1.dequeueCallback = b.dequeueCallback ∧ (b.timeLastTimePop ≤ now → y.1.timeLastTimePop ≤ now) ∧
        y.2 = b.dequeueCallback := by
    intro y hy
    obtain ⟨_, -, hy⟩ := bind_eq_ok.mp hy
    obtain ⟨_, -, hy⟩ := bind_eq_ok.mp hy
    cases hy
    grind
  have hroom : ∀ {b1 : MessageBuffer}, b1.maxSize = b.maxSize → b1.occupancy = b.occupancy → hasRoom b1 = hasRoom b := by
    intro b1 h1 h2
    rw [hasRoom, hasRoom, h1, h2]
  have hmap : ∀ {x : Except BufferFault MessageBuffer}, x.map (·, false) = .ok (b', called) → x = .ok b' := by
    intro x hx
    cases x with
    | error e => cases hx
    | ok y =>
      cases hx
      rfl
  have hpush : ∀ (ms l : List Message), (ms.foldl (fun l m => pushHeap m l) l).length = l.length + ms.length := by
    intro ms
    induction ms with
    | nil => simp
    | cons m ms ih => grind [length_pushHeap]
  cases op with
  | enqueue =>
    cases h
    exact ⟨rfl, id, Or.inr ⟨rfl, rfl⟩⟩
  | dequeue =>
    obtain ⟨h1, h2, h3⟩ := hdequeue h
    exact ⟨h1, h2, Or.inl h3⟩
  | stallMessage addr =>
    obtain ⟨⟨b1, called₁⟩, h1, h⟩ := bind_eq_ok.mp h
    cases h
    simp_all
  | reanalyzeMessages addr =>
    obtain ⟨_, -, h⟩ := bind_eq_ok.mp (hmap h)
    cases h
    refine ⟨rfl, id, Or.inr ⟨hroom rfl ?_, rfl⟩⟩
    have := length_eq_length_filter_add (l := b.stallMsgMap) (fun x => x.1 == addr)
    simp only [occupancy, hpush, length_map]
    grind
  | reanalyzeAllMessages =>
    cases h
    refine ⟨rfl, id, Or.inr ⟨hroom rfl ?_, rfl⟩⟩
    simp [reanalyzeAllMessages, occupancy, hpush]
  | recycle latency =>
    have h := hmap h
    unfold recycle at h
    obtain ⟨_, -, h⟩ := bind_eq_ok.mp h
    obtain ⟨_, -, h⟩ := bind_eq_ok.mp h
    cases hb : b.prioHeap with
    | nil =>
      rw [hb] at h
      cases h
      exact ⟨rfl, id, Or.inr ⟨rfl, rfl⟩⟩
    | cons m l =>
      rw [hb] at h
      cases h
      exact ⟨rfl, id, Or.inr ⟨hroom rfl (by simp [occupancy, hb]), rfl⟩⟩
  | delayHead delta draw =>
    have hx : ∃ t, b.delayHead now delta net.randomization net.warmupEnabled draw = .ok (b', t) := by
      unfold ProtocolOp.onOutNode at h
      dsimp only at h
      cases hd : b.delayHead now delta net.randomization net.warmupEnabled draw with
      | error e =>
        rw [hd] at h
        cases h
      | ok y =>
        rw [hd] at h
        cases h
        exact ⟨y.2, rfl⟩
    obtain ⟨t, hx⟩ := hx
    unfold delayHead at hx
    cases hb : b.prioHeap with
    | nil =>
      rw [hb] at hx
      cases hx
    | cons m l =>
      rw [hb] at hx
      unfold enqueue at hx
      obtain ⟨_, -, hx⟩ := bind_eq_ok.mp hx
      obtain ⟨_, -, hx⟩ := bind_eq_ok.mp hx
      obtain ⟨_, -, hx⟩ := bind_eq_ok.mp hx
      obtain ⟨_, -, hx⟩ := bind_eq_ok.mp hx
      cases hx
      exact ⟨rfl, id, Or.inr ⟨hroom rfl (by simp [occupancy, hb]), rfl⟩⟩

/-! ### Every run in no hurry -/

/-- A step that leaves no message behind: an interface that wakes up is in no hurry, or is scheduled again anyway. -/
def Patient (net : Net) (s : State) (a : Action) : Prop :=
  ∀ n, a = .fire (.ni n) → (∃ τ ∈ s.sched.ticks (.ni n), s.now < τ) ∨ Unhurried net n s

structure StallsOk (net : Net) (s : State) : Prop where
  callbacks : Callbacks net s.data
  pop : ∀ n v b, (s.data.ni n).outNode v = some b → b.timeLastTimePop ≤ s.now
  /-- A stalled message that has room has its interface scheduled, after the dequeue that made the room. -/
  due : ∀ n, ∀ l ∈ net.inLinks (.ni n), ∀ g ∈ (s.data.inPort l).stallQueue, ∀ b, (s.data.ni n).outNode g.vnet = some b →
    hasRoom b = true → ∃ τ ∈ s.sched.ticks (.ni n), b.timeLastTimePop < τ

lemma stallsOk_init (net : Net) : StallsOk net (State.init net) where
  callbacks := callbacks_init net
  pop n v b hb := by
    have hnew := net.queues_new n v b (Or.inr hb)
    rw [hnew]
    exact Nat.zero_le _
  due _ _ _ _ hg := by cases hg

lemma Move.ejection_eq (hm : Move net self s a s') (hself : self ≠ .ni n) :
    (s'.data.ni n).outNode = (s.data.ni n).outNode ∧
      ∀ l ∈ net.inLinks (.ni n), (s'.data.inPort l).stallQueue = (s.data.inPort l).stallQueue := by
  have hni : ∀ {m : ℕ} {d : Data} {x : NiState}, self = .ni m → ((d.setNi m x).ni n).outNode = (d.ni n).outNode := by
    intro m d x hm
    have hne : n ≠ m := fun he => hself (he ▸ hm)
    exact congrArg NiState.outNode (update_of_ne hne ..)
  have hport : ∀ {m l l' : ℕ} {d : Data} {p : InputPort}, self = .ni m → l ∈ net.inLinks (.ni m) →
      l' ∈ net.inLinks (.ni n) → ((d.setInPort l p).inPort l').stallQueue = (d.inPort l').stallQueue := by
    intro m l l' d p hm hl hl'
    have hne : l' ≠ l := by grind [mem_inLinks]
    exact congrArg InputPort.stallQueue (update_of_ne hne ..)
  cases hm with
  | interface hn => exact ⟨hni hn, fun _ _ => rfl⟩
  | create hn _ _ _ _ hd =>
    obtain ⟨_, _, -, -, -, rfl⟩ := makePacket_eq hd
    exact ⟨hni hn, fun _ _ => rfl⟩
  | send hn => exact ⟨hni hn, fun _ _ => rfl⟩
  | niRefund hn => exact ⟨hni hn, fun _ _ => rfl⟩
  | @flag l b =>
    refine ⟨rfl, fun l' _ => ?_⟩
    rcases eq_or_ne l' l with rfl | hne
    · simp [setInPort]
    · simp [setInPort, hne]
  | eject hn _ _ _ _ _ _ _ hd =>
    obtain ⟨_, _, _, -, rfl⟩ := deliver_eq hd
    exact ⟨hni hn, fun _ _ => rfl⟩
  | stall hn hl => exact ⟨hni hn, fun l' hl' => hport hn hl hl'⟩
  | unstall hn hl _ _ _ _ hd =>
    obtain ⟨_, _, _, -, rfl⟩ := deliver_eq hd
    exact ⟨(hni hn).trans (hni hn), fun l' hl' => hport hn hl hl'⟩
  | _ => exact ⟨rfl, fun _ _ => rfl⟩

lemma Moves.ejection_eq {tr : List Label} (hm : Moves net self s tr s') (hself : self ≠ .ni n) :
    (s'.data.ni n).outNode = (s.data.ni n).outNode ∧
      ∀ l ∈ net.inLinks (.ni n), (s'.data.inPort l).stallQueue = (s.data.inPort l).stallQueue := by
  induction hm with
  | refl => exact ⟨rfl, fun _ _ => rfl⟩
  | tail _ hm ih => grind [Move.ejection_eq]

lemma Move.nodes (hm : Move net self s a s') : FullerNodes (s.data.ni n).outNode (s'.data.ni n).outNode := by
  by_cases hself : self = .ni n
  swap
  · rw [(hm.ejection_eq hself).1]
    exact .refl _
  have hni : ∀ {m : ℕ} {d : Data} {x : NiState}, self = .ni m → FullerNodes (d.ni m).outNode x.outNode →
      FullerNodes (d.ni n).outNode ((d.setNi m x).ni n).outNode := by
    intro m d x hm hx
    cases hself.symm.trans hm
    rw [show (d.setNi n x).ni n = x from update_self ..]
    exact hx
  cases hm with
  | interface hn _ _ _ _ hnode => exact hni hn (hnode ▸ .refl _)
  | create hn _ _ _ _ hd => grind [makePacket_eq, FullerNodes.refl]
  | send hn => exact hni hn (.refl _)
  | niRefund hn => exact hni hn (.refl _)
  | eject hn _ _ _ _ hnode _ _ hd =>
    cases hself.symm.trans hn
    exact (deliver_nodes hd hnode).2.2.1
  | stall hn => exact hni hn (.map fun b => ⟨rfl, rfl, le_rfl⟩)
  | unstall hn _ _ _ hnode _ hd =>
    cases hself.symm.trans hn
    exact (deliver_nodes hd hnode).2.2.1.trans (unstall_nodes n _ _)
  | _ => exact .refl _

lemma Moves.nodes {tr : List Label} (hm : Moves net self s tr s') :
    FullerNodes (s.data.ni n).outNode (s'.data.ni n).outNode := by
  induction hm with
  | refl => exact .refl _
  | tail _ hm ih => exact ih.trans hm.nodes

lemma StallsOk.wake {c : ConsumerId} {s1 : State} (h : StallsOk net s) (hok : SchedOk net s.now s.sched)
    (hev : (s.sched.consumers c).wakeupEvent = some s.now)
    (hs : Gem5.Garnet.wakeup net c ⟨s.now, s.data, s.sched.fired net s.now c⟩ = .ok s1)
    (hw : Woken net c ⟨s.now, s.data, s.sched.fired net s.now c⟩ s1) (hpat : Patient net s (.fire c)) :
    StallsOk net ⟨s.now, s1.data, s1.sched.modify c (·.scheduleNextWakeup (net.period c) s.now)⟩ := by
  obtain ⟨tr, hm, -⟩ := hw.moves
  obtain ⟨-, -, -, hself, hother⟩ := hok.fired hev
  have hticks : ∀ {c' : ConsumerId} {τ : ℕ}, τ ∈ s.sched.ticks c' → (c' = c → τ ≠ s.now) →
      τ ∈ (s1.sched.modify c (·.scheduleNextWakeup (net.period c) s.now)).ticks c' := by
    intro c' τ hτ hne
    rw [Sched.ticks_scheduleNextWakeup]
    refine hm.schedOps.ticks_subset ?_
    rcases eq_or_ne c' c with rfl | hc'
    · exact (hself τ).mpr ⟨hτ, hne rfl⟩
    · rw [Sched.ticks, hother c' hc']
      exact hτ
  have hcall : Callbacks net s1.data :=
    hm.invariant (I := fun s => Callbacks net s.data) (fun s a s' hm hc => hc.move hm) h.callbacks
  have hpop : ∀ n v b, (s1.data.ni n).outNode v = some b →
      ∃ b0, (s.data.ni n).outNode v = some b0 ∧ Fuller b0 b ∧ b.timeLastTimePop ≤ s.now := by
    intro n v b hb
    obtain ⟨b0, hb0, hful⟩ := hm.nodes v b hb
    exact ⟨b0, hb0, hful, hful.pop.le.trans (h.pop n v b0 hb0)⟩
  refine ⟨hcall, fun n v b hb => (hpop n v b hb).choose_spec.2.2, fun n l hl g hg b hb hr => ?_⟩
  obtain ⟨b0, hb0, hful, hle⟩ := hpop n g.vnet b hb
  rcases eq_or_ne c (.ni n) with rfl | hne
  · rcases hpat n rfl with ⟨τ, hτ, hlt⟩ | hu
    · exact ⟨τ, hticks hτ fun _ => hlt.ne', hle.trans_lt hlt⟩
    · have hu' : Unhurried net n ⟨s.now, s.data, s.sched.fired net s.now (.ni n)⟩ := ⟨hu.single, hu.fresh⟩
      have htried := wakeup_tried hu' hs
      obtain ⟨hg0, b1, hb1, hnow⟩ := htried.left l hl g hg (fits_iff.mpr ⟨b, hb, hr⟩)
      grind [StallsOk.due, Fuller.hasRoom]
  · obtain ⟨h1, h2⟩ := hm.ejection_eq hne
    dsimp only at hg hb h1 h2
    rw [h1] at hb
    rw [h2 l hl] at hg
    obtain ⟨τ, hτ, hlt⟩ := h.due n l hl g hg b hb hr
    exact ⟨τ, hticks hτ fun he => absurd he.symm hne, hlt⟩

/-- An operation of the protocol keeps the invariant: where it makes room, the interface is called back. -/
lemma StallsOk.protocol {m vnet : ℕ} {op : ProtocolOp} (h : StallsOk net s)
    (hs : Gem5.Garnet.protocol net m vnet op s = .ok s') : StallsOk net s' := by
  obtain ⟨x, σ, rfl, hx⟩ := protocol_eq hs
  rcases hx with ⟨_, _, _, _, b', _, -, -, -, rfl, rfl⟩ | ⟨b, b', called, hb, hop, rfl, rfl⟩
  · -- a message for the network
    have hout : ∀ n, ((s.data.setNi m { s.data.ni m with
        inNode := update (s.data.ni m).inNode vnet (some b') }).ni n).outNode = (s.data.ni n).outNode := by
      intro n
      rcases eq_or_ne n m with rfl | hne
      · simp [setNi]
      · simp [setNi, hne]
    refine ⟨h.callbacks.setNi_same (fun _ => rfl) rfl rfl rfl, fun n v b hb => ?_, fun n l hl g hg b hb hr => ?_⟩
    · exact h.pop n v b (hout n ▸ hb)
    · obtain ⟨τ, hτ, hlt⟩ := h.due n l hl g hg b (hout n ▸ hb) hr
      exact ⟨τ, Sched.ticks_subset_scheduleEventAbsolute _ _ _ _ _ _ hτ, hlt⟩
  · obtain ⟨hcall, hpop, hdone⟩ := onOutNode_spec hop
    have hσ : ∀ c, s.sched.ticks c ⊆ (if called then s.sched.scheduleEventAbsolute net s.now (.ni m)
        (clockEdge (net.period (.ni m)) s.now 1) else s.sched).ticks c := by
      intro c
      cases called with
      | false => exact List.Subset.refl _
      | true => exact Sched.ticks_subset_scheduleEventAbsolute ..
    have hnode : ∀ n v b1, ((s.data.setNi m { s.data.ni m with
        outNode := update (s.data.ni m).outNode vnet (some b') }).ni n).outNode v = some b1 →
        n = m ∧ v = vnet ∧ b1 = b' ∨ (s.data.ni n).outNode v = some b1 := by
      intro n v b1 hb1
      rcases eq_or_ne n m with rfl | hne
      · simp only [setNi, update_self] at hb1
        rcases eq_or_ne v vnet with rfl | hv
        · rw [update_self] at hb1
          exact Or.inl ⟨rfl, rfl, (Option.some.inj hb1).symm⟩
        · rw [update_of_ne hv] at hb1
          exact Or.inr hb1
      · simp only [setNi, update_of_ne hne] at hb1
        exact Or.inr hb1
    refine ⟨h.callbacks.setNi (fun _ => rfl) rfl rfl fun v b1 hb1 => ?_, fun n v b1 hb1 => ?_,
      fun n l hl g hg b1 hb1 hr => ?_⟩
    · dsimp only at hb1
      rcases eq_or_ne v vnet with rfl | hv
      · rw [update_self] at hb1
        cases hb1
        exact ⟨b, hb, hcall⟩
      · rw [update_of_ne hv] at hb1
        exact ⟨b1, hb1, rfl⟩
    · rcases hnode n v b1 hb1 with ⟨rfl, rfl, rfl⟩ | hb1
      · exact hpop (h.pop n v b hb)
      · exact h.pop n v b1 hb1
    · rcases hnode n g.vnet b1 hb1 with ⟨rfl, hv, rfl⟩ | hb1
      · rw [← hv] at hb
        rcases hdone with hcalled | ⟨hroom, hsame⟩
        · -- the message is stalled, so the buffer calls back
          have hpos : 0 < (s.data.ni n).stallCount g.vnet := by
            have hcount := h.callbacks.count n g.vnet
            have hsplit := stalled_update hl (nodup_inLinks _) ⟨[], false⟩ g.vnet (d := s.data)
            have hg' : 0 < (s.data.inPort l).stallQueue.countP (·.vnet = g.vnet) :=
              countP_pos_iff.mpr ⟨g, hg, by simp⟩
            simp only [countP_nil] at hsplit
            omega
          rw [h.callbacks.registered n g.vnet b hpos hb] at hcalled
          subst hcalled
          refine ⟨clockEdge (net.period (.ni n)) s.now 1, ?_, ?_⟩
          · dsimp only
            rw [if_pos rfl, Sched.ticks_scheduleEventAbsolute, ceilTo_of_dvd (net.period_pos _) (dvd_clockEdge ..)]
            exact mem_insertSorted.mpr (Or.inl rfl)
          · have h1 := hpop (h.pop n g.vnet b hb)
            have h2 := le_ceilTo (net.period_pos (.ni n)) s.now
            have h3 := net.period_pos (.ni n)
            rw [clockEdge]
            omega
        · rw [hroom] at hr
          obtain ⟨τ, hτ, hlt⟩ := h.due n l hl g hg b hb hr
          exact ⟨τ, hσ _ hτ, by rw [hsame]; exact hlt⟩
      · obtain ⟨τ, hτ, hlt⟩ := h.due n l hl g hg b1 hb1 hr
        exact ⟨τ, hσ _ hτ, hlt⟩

lemma ReachableBy.stallsOk (h : ReachableBy net (Patient net) s) : StallsOk net s := by
  refine h.invariant (stallsOk_init net) fun s a s' hr hpat hc hs => ?_
  cases hc with
  | advance hle => exact ⟨hs.callbacks, fun n v b hb => (hs.pop n v b hb).trans hle, hs.due⟩
  | events hσ =>
    refine ⟨hs.callbacks, hs.pop, fun n l hl g hg b hb hr' => ?_⟩
    obtain ⟨τ, hτ, hlt⟩ := hs.due n l hl g hg b hb hr'
    exact ⟨τ, (hσ _ τ).mpr hτ, hlt⟩
  | wake _ _ hev hwake hw => exact hs.wake hr.free_schedOk.2 hev hwake hw hpat
  | protocol _ _ hs' => exact hs.protocol hs'

/-- Every stalled message whose buffer would take it at the interface's next clock edge has the interface scheduled. -/
def EjectionRetried (net : Net) (s : State) : Prop :=
  ∀ n, ∀ l ∈ net.inLinks (.ni n), ∀ f ∈ (s.data.inPort l).stallQueue, ∀ b, (s.data.ni n).outNode f.vnet = some b →
    b.areNSlotsAvailable 1 (nextCycle (net.period (.ni n)) s.now) = true → ∃ t, s.sched.Pending (.ni n) t

/-- In every run whose steps leave no message behind, a stalled ejection is always retried. -/
theorem ejection_retried (h : ReachableBy net (Patient net) s) : EjectionRetried net s := by
  intro n l hl f hf b hb hslot
  have hs := h.stallsOk
  have hlt := lt_nextCycle (net.period_pos (.ni n)) s.now
  rw [areNSlotsAvailable_eq ((hs.pop n f.vnet b hb).trans_lt hlt)] at hslot
  obtain ⟨τ, hτ, -⟩ := hs.due n l hl f hf b hb hslot
  exact ⟨τ, h.reachable.free_schedOk.2.pending hτ le_rfl⟩

/-! ### Runs -/

instance (net : Net) (n : ℕ) (s : State) : Decidable (Unhurried net n s) :=
  decidable_of_iff ((∀ l ∈ net.inLinks (.ni n), ((s.data.inPort l).stallQueue ++ arrivingTail s.now l s.data).Pairwise
      fun f g => ¬ (fits n s.data f = true ∧ fits n s.data g = true)) ∧
    ∀ l ∈ net.inLinks (.ni n), ∀ f ∈ arrivingTail s.now l s.data, ∀ b ∈ (s.data.ni n).outNode f.vnet,
      hasRoom b = true → b.timeLastTimePop < s.now) ⟨fun h => ⟨h.1, h.2⟩, fun h => ⟨h.single, h.fresh⟩⟩

/-- `Patient`, as a test. -/
def patientTest (net : Net) (s : State) : Action → Bool
  | .fire (.ni n) => (s.sched.ticks (.ni n)).any (fun τ => decide (s.now < τ)) || decide (Unhurried net n s)
  | _ => true

lemma patient_of_test {a : Action} (h : patientTest net s a = true) : Patient net s a := by
  rintro n rfl
  simpa [patientTest] using h

lemma ReachableBy.exec {acts : List Action} (h : ReachableBy net (Patient net) s)
    (hs : acts.foldlM (fun s a => if patientTest net s a then exec net s a else none) s = some s') :
    ReachableBy net (Patient net) s' := by
  induction acts generalizing s with
  | nil =>
    cases hs
    exact h
  | cons a acts ih =>
    rw [foldlM_cons] at hs
    obtain ⟨s1, h1, h2⟩ := Option.bind_eq_some_iff.mp hs
    obtain ⟨htest, h1⟩ := Option.ite_none_right_eq_some.mp h1
    exact ih (h.step a (patient_of_test htest) (exec_eq_some_iff.mp h1)) h2

/-- Two interfaces, two virtual networks, and buffers of one message for the protocol. -/
def Net.narrow : Net := star 2 2 2 1 1 unbounded oneSlot

/-- A message of eight bits for interface `1`. -/
def small (payload : ℕ) : Message := { payload, destination := [1], size := 8, time := 0 }

/-- Two messages of virtual network `0` go to interface `1`. The first has been handed over, the second has come, at
tick `6`, when the interface has not run yet. -/
def sendTwo : List Action :=
  [.protocol 0 0 (.enqueue (small 0) 1 1), .protocol 0 0 (.enqueue (small 1) 1 1), .advance 1, .fire (.ni 0), .globalWakeup [],
    .advance 2, .fire (.ni 0), .fire (.networkLink 0), .globalWakeup [(0, 0)],
    .advance 3, .fire (.router 0), .fire (.networkLink 0), .globalWakeup [(0, 0)],
    .advance 4, .fire (.router 0), .fire (.creditLink 0), .fire (.networkLink 3), .globalWakeup [],
    .advance 5, .fire (.ni 0), .fire (.ni 1), .fire (.creditLink 0), .fire (.networkLink 3), .globalWakeup [], .advance 6]

/-- Two messages of virtual network `0` and one of virtual network `1` go to interface `1`. The second is stalled, and
ejected in the cycle in which the third comes. -/
def sendThree : List Action :=
  [.protocol 0 0 (.enqueue (small 0) 1 1), .protocol 0 0 (.enqueue (small 1) 1 1), .protocol 0 1 (.enqueue (small 2) 3 1),
    .advance 1, .fire (.ni 0), .globalWakeup [],
    .advance 2, .fire (.ni 0), .fire (.networkLink 0), .globalWakeup [(0, 0)],
    .advance 3, .fire (.router 0), .fire (.ni 0), .fire (.networkLink 0), .globalWakeup [(0, 0)],
    .advance 4, .fire (.router 0), .fire (.networkLink 0), .fire (.creditLink 0), .fire (.networkLink 3), .globalWakeup [(0, 0)],
    .advance 5, .fire (.router 0), .fire (.ni 0), .fire (.ni 1), .fire (.creditLink 0), .fire (.networkLink 3), .globalWakeup [],
    .advance 6, .fire (.ni 0), .fire (.ni 1), .protocol 1 0 .dequeue, .fire (.creditLink 0), .fire (.networkLink 3),
    .fire (.creditLink 3), .globalWakeup [], .advance 7, .fire (.router 0), .fire (.ni 0), .fire (.ni 1)]

/-- A message is stalled at interface `1` that its buffer would take in the next cycle. -/
def strandedTest (s : State) : Bool :=
  (s.data.inPort 3).stallQueue.any fun f => match (s.data.ni 1).outNode f.vnet with
    | none => false
    | some b => b.areNSlotsAvailable 1 (nextCycle 1 s.now)

lemma not_ejectionRetried (ht : strandedTest s = true) (hq : (s.sched.ticks (.ni 1)).isEmpty = true) :
    ¬ EjectionRetried narrow s := by
  intro hret
  obtain ⟨f, hf, ht⟩ := any_eq_true.mp ht
  cases hb : (s.data.ni 1).outNode f.vnet with
  | none =>
    rw [hb] at ht
    cases ht
  | some b =>
    rw [hb] at ht
    obtain ⟨t, τ, hτ, -⟩ := hret 1 3 (by decide) f hf b hb ht
    rw [isEmpty_iff.mp hq] at hτ
    cases hτ

/-- A message is left behind because another was ejected in the same cycle, and because the room for it was made in
the tick in which it came. -/
theorem ejection_not_retried : (∃ s, Reachable Net.narrow s ∧ ¬ EjectionRetried Net.narrow s ∧
      sendThree.foldlM (exec Net.narrow) (State.init Net.narrow) = some s) ∧
    ∃ s, Reachable Net.narrow s ∧ ¬ EjectionRetried Net.narrow s ∧
      (sendTwo ++ ([.protocol 1 0 .dequeue, .fire (.ni 0), .fire (.ni 1)] : List Action)).foldlM (exec Net.narrow)
        (State.init Net.narrow) = some s := by
  have hrun : ∀ acts : List Action, ((acts.foldlM (exec narrow) (State.init narrow)).any fun s =>
      strandedTest s && (s.sched.ticks (.ni 1)).isEmpty) = true →
      ∃ s, Reachable narrow s ∧ ¬ EjectionRetried narrow s ∧
        acts.foldlM (exec narrow) (State.init narrow) = some s := by
    intro acts h
    obtain ⟨s, hs, ht⟩ := (Option.any_eq_true _ _).mp h
    rw [Bool.and_eq_true] at ht
    exact ⟨s, Reachable.init.exec hs, not_ejectionRetried ht.1 ht.2, hs⟩
  exact ⟨hrun _ (by decide +kernel), hrun _ (by decide +kernel)⟩

/-- The second message is stalled in a full buffer; a dequeue makes room for it, and the interface is called back. -/
theorem ejection_retried_two : ∃ s, ReachableBy Net.narrow (Patient Net.narrow) s ∧ strandedTest s = true ∧
    ∃ t, s.sched.Pending (.ni 1) t := by
  have hrun : (((sendTwo ++ ([.fire (.ni 0), .fire (.ni 1), .protocol 1 0 .dequeue] : List Action)).foldlM
      (fun s a => if patientTest narrow s a then exec narrow s a else none) (State.init narrow)).any
        strandedTest) = true := by decide +kernel
  obtain ⟨s, hs, ht⟩ := (Option.any_eq_true _ _).mp hrun
  have hreach := ReachableBy.init.exec hs
  refine ⟨s, hreach, ht, ?_⟩
  obtain ⟨f, hf, ht⟩ := any_eq_true.mp ht
  cases hb : (s.data.ni 1).outNode f.vnet with
  | none =>
    rw [hb] at ht
    cases ht
  | some b =>
    rw [hb] at ht
    exact ejection_retried hreach 1 3 (by decide) f hf b hb ht

end Gem5.Garnet
