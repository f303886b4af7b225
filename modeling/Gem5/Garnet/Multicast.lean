import Gem5.Garnet.FlowInterface
import Gem5.Garnet.Exec
import Gem5.Ruby.NetDest

/-!
# Messages with several destinations

`NetworkInterface::flitisizeMessage` makes a packet for each destination of a message. When it runs out of
virtual channels it stops, and is called again for the same message later; what it has done is recorded in
the destination set of the message only. Here the destination set is the `NetDest` of the source, where the
model of the interface has the list of its nodes: the two do the same, and the set that is left is the one in the
protocol buffer (`multicastMessage_front`). Over any number of attempts each destination gets one packet
(**`multicast_once`**).
-/

namespace Gem5.Garnet

open Ruby Lib List

namespace NetworkInterface

variable {counts : List ℕ}

inductive SplitFault where
  /-- An assertion of `NetDest::add`. -/
  | badElement
  | network (fault : Fault)
  deriving DecidableEq

structure Unicast (counts : List ℕ) where
  vc : ℕ
  /-- `route.dest_ni`. -/
  destNi : ℕ
  /-- The destinations of the clone, which are `route.net_dest` as well. -/
  destination : NetDest counts

/-- An attempt: what it returns, and what it has done. -/
structure Attempt (counts : List ℕ) where
  all : Bool
  /-- The destinations of the message afterwards. -/
  destination : NetDest counts
  sent : List (Unicast counts)
  data : Data

/-- The type of machine that the node is: the first whose range of numbers it is in. -/
def machineType (counts : List ℕ) (id : ℕ) : Option ℕ :=
  (range counts.length).find? fun m => decide (baseNumber counts m ≤ id) && decide (id < baseNumber counts (m + 1))

/-- The destinations of the clone for a node, and those left in the message. A message with one destination is
cloned as it is. -/
def splitOff (multi : Bool) (id : ℕ) (dest : NetDest counts) : Option (NetDest counts × NetDest counts) :=
  if multi then
    match machineType counts id with
    | some m => ((NetDest.empty counts).add m (id - baseNumber counts m)).map fun one => (one, dest.removeNetDest one)
    | none => some (dest, dest.removeNetDest (NetDest.empty counts))
  else some (dest, dest)

variable (net : Net)

/-- `flitisizeMessage(msg_ptr, vnet)` for the destinations that are left. -/
def multicastTo (n now vnet port : ℕ) (msg : Message) (multi : Bool) :
    List ℕ → NetDest counts → Data → Except SplitFault (Attempt counts)
  | [], dest, d => .ok ⟨true, dest, [], d⟩
  | destId :: rest, dest, d => do
    let (vc, x) ← (calculateVC net n now vnet (d.ni n)).mapError .network
    let d := d.setNi n x
    match vc with
    | none => pure ⟨false, dest, [], d⟩
    | some vc =>
      match splitOff multi destId dest with
      | none => .error .badElement
      | some (one, dest) =>
        let d := if multi then removeDest n vnet destId d else d
        let d ← (makePacket net n now vnet port vc destId msg d).mapError .network
        let a ← multicastTo n now vnet port msg multi rest dest d
        pure { a with sent := ⟨vc, destId, one⟩ :: a.sent }

/-- `flitisizeMessage(msg_ptr, vnet)`, for a message with the destinations `dest`. -/
def multicastMessage (n now vnet : ℕ) (msg : Message) (dest : NetDest counts) (d : Data) :
    Except SplitFault (Attempt counts) :=
  match net.outportForVnet n vnet with
  | none => .error (.network .noOutport)
  | some port =>
    multicastTo net n now vnet port { msg with destination := dest.getAllDest } (decide (1 < dest.getAllDest.length))
      dest.getAllDest dest d

variable {net} {n now vnet port : ℕ} {msg : Message} {d : Data}

/-! ### The clones -/

lemma machineType_eq {m j : ℕ} (hj : j < baseCount counts m) : machineType counts (baseNumber counts m + j) = some m := by
  have hm : m < counts.length := by grind [baseCount]
  have hsucc := baseNumber_succ counts m
  cases hfind : machineType counts (baseNumber counts m + j) with
  | none =>
    have := find?_eq_none.mp hfind m (mem_range.mpr hm)
    simp_all
  | some m' =>
    have hrange := find?_some hfind
    simp only [Bool.and_eq_true, decide_eq_true_eq] at hrange
    have hsucc' := baseNumber_succ counts m'
    have heq : baseNumber counts m + j = baseNumber counts m' + (baseNumber counts m + j - baseNumber counts m') := by omega
    rw [(type_unique hj (by omega) heq).1]

/-- The destinations still to be served are those of the message, except that a message with one destination
keeps it. -/
def Left (multi : Bool) (dests : List ℕ) (dest : NetDest counts) : Prop :=
  if multi then dest.getAllDest = dests else dests = [] ∨ dest.getAllDest = dests ∧ dests.length = 1

lemma Left.start (dest : NetDest counts) : Left (decide (1 < dest.getAllDest.length)) dest.getAllDest dest := by
  by_cases h : 1 < dest.getAllDest.length
  · simp [Left, h]
  · simp only [Left, h, decide_false, Bool.false_eq_true, if_false, true_and]
    grind [Nat.lt_or_eq_of_le, Nat.not_lt, length_eq_zero_iff]

section

variable {multi : Bool} {id : ℕ} {rest : List ℕ} {dest : NetDest counts} (h : Left multi (id :: rest) dest)
include h

lemma Left.getAllDest_eq : dest.getAllDest = id :: rest := by
  cases multi with
  | true => exact h
  | false =>
    rcases h with h | h
    · cases h
    · exact h.1

lemma Left.splitOff :
    ∃ one dest', splitOff multi id dest = some (one, dest') ∧ one.getAllDest = [id] ∧ Left multi rest dest' := by
  have hdest := h.getAllDest_eq
  cases multi with
  | false =>
    rcases h with h | ⟨-, hlength⟩
    · cases h
    · have hrest : rest = [] := by simpa using hlength
      exact ⟨dest, dest, rfl, by rw [hdest, hrest], .inl hrest⟩
  | true =>
    obtain ⟨m, j, hj, rfl⟩ := NetDest.mem_getAllDest.mp (hdest ▸ mem_cons_self ..)
    have hlt := dest.lt m j hj
    obtain ⟨one, hadd, hone⟩ := NetDest.add_empty hlt
    refine ⟨one, dest.removeNetDest one, ?_, NetDest.getAllDest_one hone, ?_⟩
    · simp [NetworkInterface.splitOff, machineType_eq hlt, hadd]
    · have hnodup := dest.nodup_getAllDest
      rw [hdest] at hnodup
      change (dest.removeNetDest one).getAllDest = rest
      rw [NetDest.getAllDest_removeNetDest hlt hone, hdest, filter_cons_of_neg (by simp), filter_eq_self]
      grind

end

/-! ### One attempt -/

lemma multicastTo_cons {multi : Bool} {id vc : ℕ} {rest : List ℕ} {dest dest' one : NetDest counts} {x : NiState}
    (hvc : calculateVC net n now vnet (d.ni n) = .ok (some vc, x)) (hsplit : splitOff multi id dest = some (one, dest')) :
    multicastTo net n now vnet port msg multi (id :: rest) dest d = ((makePacket net n now vnet port vc id msg
        (if multi then removeDest n vnet id (d.setNi n x) else d.setNi n x)).mapError .network >>= fun d =>
      multicastTo net n now vnet port msg multi rest dest' d >>= fun a =>
        .ok { a with sent := ⟨vc, id, one⟩ :: a.sent }) := by
  rw [multicastTo, hvc]
  change (match splitOff multi id dest with | none => _ | some (one, dest) => _) = _
  rw [hsplit]
  rfl

lemma multicastTo_eq {multi : Bool} {dests : List ℕ} {dest : NetDest counts} (h : Left multi dests dest) :
    (multicastTo net n now vnet port msg multi dests dest d).map (fun a => (a.all, a.data)) =
      (flitisizeTo net n now vnet port msg multi dests d).mapError .network := by
  induction dests generalizing dest d with
  | nil => rfl
  | cons id rest ih =>
    obtain ⟨one, dest', hsplit, -, hleft⟩ := h.splitOff
    cases hvc : calculateVC net n now vnet (d.ni n) with
    | error e => simp [multicastTo, flitisizeTo, hvc, Except.mapError, Except.map, bind, Except.bind]
    | ok r =>
      obtain ⟨_ | vc, x⟩ := r
      · simp [multicastTo, flitisizeTo, hvc, Except.mapError, Except.map, bind, Except.bind, pure, Except.pure]
      · rw [multicastTo_cons hvc hsplit, flitisizeTo, hvc]
        change _ = Except.mapError _ (makePacket net n now vnet port vc id msg
            (if multi then removeDest n vnet id (d.setNi n x) else d.setNi n x) >>= fun d =>
          flitisizeTo net n now vnet port msg multi rest d)
        cases makePacket net n now vnet port vc id msg
            (if multi then removeDest n vnet id (d.setNi n x) else d.setNi n x) with
        | error e => rfl
        | ok d1 =>
          refine Eq.trans ?_ (ih hleft)
          change Except.map _ (multicastTo net n now vnet port msg multi rest dest' d1 >>= _) = _
          cases multicastTo net n now vnet port msg multi rest dest' d1 <;> rfl

lemma multicastMessage_eq (dest : NetDest counts) :
    (multicastMessage net n now vnet msg dest d).map (fun a => (a.all, a.data)) =
      (flitisizeMessage net n now vnet { msg with destination := dest.getAllDest } d).mapError .network := by
  unfold multicastMessage flitisizeMessage
  cases net.outportForVnet n vnet with
  | none => rfl
  | some port => exact multicastTo_eq (Left.start dest)

/-- The message at the front of the protocol buffer has these destinations. -/
def Front (n vnet : ℕ) (d : Data) (dests : List ℕ) : Prop :=
  ∃ b m l, (d.ni n).inNode vnet = some b ∧ b.prioHeap = m :: l ∧ m.destination = dests

lemma Front.setNi {dests : List ℕ} {x : NiState} (h : Front n vnet d dests) (hx : x.inNode = (d.ni n).inNode) :
    Front n vnet (d.setNi n x) dests := by
  obtain ⟨b, m, l, hb, hrest⟩ := h
  exact ⟨b, m, l, by simpa [Data.setNi, hx] using hb, hrest⟩

lemma Front.removeDest {dests : List ℕ} (h : Front n vnet d dests) (id : ℕ) :
    Front n vnet (removeDest n vnet id d) (dests.filter (· != id)) := by
  obtain ⟨b, m, l, hb, hheap, rfl⟩ := h
  let m' : Message := { m with destination := m.destination.filter (· != id) }
  refine ⟨{ b with prioHeap := m' :: l }, m', l, ?_, rfl, rfl⟩
  simp only [NetworkInterface.removeDest, Data.setNi, Function.update_self, hb, Option.map_some,
    MessageBuffer.updateFront, hheap, m']

lemma Front.makePacket {dests : List ℕ} {vc id : ℕ} {d' : Data} (h : Front n vnet d dests)
    (hmake : makePacket net n now vnet port vc id msg d = .ok d') : Front n vnet d' dests := by
  obtain ⟨destRouter, fs, -, -, -, rfl⟩ := makePacket_eq hmake
  exact h.setNi rfl

lemma multicastTo_front {multi : Bool} {dests : List ℕ} {dest : NetDest counts} (h : Left multi dests dest)
    (hfront : Front n vnet d dest.getAllDest) : Sat (fun _ => True)
      (fun a => Front n vnet a.data a.destination.getAllDest) (multicastTo net n now vnet port msg multi dests dest d) := by
  induction dests generalizing dest d with
  | nil => exact hfront
  | cons id rest ih =>
    obtain ⟨one, dest', hsplit, -, hleft⟩ := h.splitOff
    cases hvc : calculateVC net n now vnet (d.ni n) with
    | error e =>
      rw [multicastTo, hvc]
      trivial
    | ok r =>
      obtain ⟨vc, x⟩ := r
      have hx : Front n vnet (d.setNi n x) dest.getAllDest := hfront.setNi (calculateVC_nodes hvc).1
      cases vc with
      | none =>
        rw [multicastTo, hvc]
        exact hx
      | some vc =>
        rw [multicastTo_cons hvc hsplit]
        -- what is taken out of the message is what the clone has
        have hd : Front n vnet (if multi then removeDest n vnet id (d.setNi n x) else d.setNi n x) dest'.getAllDest := by
          cases multi with
          | false =>
            cases hsplit
            exact hx
          | true =>
            have hnodup := dest.nodup_getAllDest
            have hremoved := hx.removeDest id
            rw [h.getAllDest_eq] at hnodup hremoved
            rw [show dest'.getAllDest = rest from hleft]
            rwa [filter_cons_of_neg (by simp), filter_eq_self.mpr fun a ha => ?_] at hremoved
            exact bne_iff_ne.mpr fun heq => (nodup_cons.mp hnodup).1 (heq ▸ ha)
        cases hmake : NetworkInterface.makePacket net n now vnet port vc id msg
            (if multi then removeDest n vnet id (d.setNi n x) else d.setNi n x) with
        | error e => trivial
        | ok d1 => exact (ih hleft (hd.makePacket hmake)).bind fun a ha => ha

/-- **The set that is left is the one in the protocol buffer**: an attempt on the message at its front does what the loop
over the list of its destinations does, and what it leaves of the set are the destinations of the message then. -/
theorem multicastMessage_front {dest : NetDest counts} {a : Attempt counts} (hfront : Front n vnet d dest.getAllDest)
    (h : multicastMessage net n now vnet msg dest d = .ok a) : Front n vnet a.data a.destination.getAllDest ∧
      flitisizeMessage net n now vnet { msg with destination := dest.getAllDest } d = .ok (a.all, a.data) := by
  constructor
  · unfold multicastMessage at h
    split at h
    · cases h
    · exact (multicastTo_front (Left.start dest) hfront).of_ok h
  · have heq : (multicastMessage net n now vnet msg dest d).map _ = _ := multicastMessage_eq dest
    rw [h] at heq
    generalize flitisizeMessage net n now vnet { msg with destination := dest.getAllDest } d = r at heq
    cases r with
    | error e => cases heq
    | ok r => exact congrArg Except.ok (Except.ok.inj heq).symm

/-- The destinations of a message for the two controllers of a system with one of each of two types. -/
def bothNodes : NetDest [1, 1] where
  bits m := if m < 2 then {0} else ∅
  lt m j h := by
    split at h
    · rename_i hm
      rw [Finset.mem_singleton.mp h]
      rcases (by omega : m = 0 ∨ m = 1) with rfl | rfl <;> decide
    · exact absurd h (Finset.notMem_empty _)

/-- Two nodes at a router, with one virtual channel. -/
def pairNet : Net := Net.star 2 1 1 1 1 unbounded unbounded

def pairMessage : Message := { payload := 0, destination := bothNodes.getAllDest, size := 64, time := 0 }

/-- The interface of the first node has the message in its protocol buffer. -/
def bothWaiting : Data :=
  (Data.init pairNet).setNi 0 { (Data.init pairNet).ni 0 with inNode := fun _ => some { prioHeap := [pairMessage] } }

/-- The first node is served, and the message keeps the second. -/
theorem multicastMessage_front_two : ∃ a, multicastMessage pairNet 0 0 0 pairMessage bothNodes bothWaiting = .ok a ∧
    a.all = false ∧ a.sent.map Unicast.destNi = [0] ∧ Front 0 0 a.data [1] := by
  have hfront : Front 0 0 bothWaiting bothNodes.getAllDest := ⟨_, _, _, rfl, rfl, rfl⟩
  have hcall : ∃ a, multicastMessage pairNet 0 0 0 pairMessage bothNodes bothWaiting = .ok a ∧ a.all = false ∧
      a.sent.map Unicast.destNi = [0] ∧ a.destination.getAllDest = [1] := ⟨_, rfl, rfl, rfl, by decide +kernel⟩
  obtain ⟨a, hcall, hall, hsent, hdest⟩ := hcall
  have hleft := (multicastMessage_front hfront hcall).1
  rw [hdest] at hleft
  exact ⟨a, hcall, hall, hsent, hleft⟩

/-- The packet is for one node: its number and the destinations of the clone name the same node. -/
def OneNode (x : Unicast counts) : Prop := x.destination.getAllDest = [x.destNi]

/-- What an attempt that returns has done for the destinations `dests`. -/
structure Served (dests : List ℕ) (d : Data) (a : Attempt counts) : Prop where
  one : ∀ x ∈ a.sent, OneNode x
  /-- What has been sent is a first part of the destinations, and the message names the rest. -/
  left : a.sent.map Unicast.destNi ++ (if a.all then [] else a.destination.getAllDest) = dests
  /-- The packets that have been made are those for the nodes sent to. -/
  packets : ∃ ps, a.data.created = d.created ++ ps ∧ ps.map (·.route.destNi) = a.sent.map Unicast.destNi ∧
    ∀ p ∈ ps, p.msgPtr.destination = [p.route.destNi]

lemma makePacket_created {vc id : ℕ} {d' : Data} (h : makePacket net n now vnet port vc id msg d = .ok d') :
    ∃ p : Packet, d'.created = d.created ++ [p] ∧ p.route.destNi = id ∧ p.msgPtr.destination = [id] := by
  obtain ⟨destRouter, fs, -, -, -, rfl⟩ := makePacket_eq h
  exact ⟨packetOf net d n vnet port id destRouter msg, rfl, rfl, rfl⟩

lemma multicastTo_sat {multi : Bool} {dests : List ℕ} {dest : NetDest counts} (h : Left multi dests dest) :
    Sat (fun _ => True) (Served dests d) (multicastTo net n now vnet port msg multi dests dest d) := by
  induction dests generalizing dest d with
  | nil => exact ⟨by simp, rfl, [], by simp, rfl, by simp⟩
  | cons id rest ih =>
    obtain ⟨one, dest', hsplit, hone, hleft⟩ := h.splitOff
    cases hvc : calculateVC net n now vnet (d.ni n) with
    | error e => simp [multicastTo, hvc, Except.mapError, bind, Except.bind]
    | ok r =>
      obtain ⟨_ | vc, x⟩ := r
      · rw [multicastTo, hvc]
        exact ⟨by simp, by simpa using h.getAllDest_eq, [], by simp [Data.setNi], rfl, by simp⟩
      · rw [multicastTo_cons hvc hsplit]
        cases hmake : makePacket net n now vnet port vc id msg
            (if multi then removeDest n vnet id (d.setNi n x) else d.setNi n x) with
        | error e => trivial
        | ok d1 =>
          obtain ⟨p, hp, hdest, hmsg⟩ := makePacket_created hmake
          have hcreated : (if multi then removeDest n vnet id (d.setNi n x) else d.setNi n x).created = d.created := by
            cases multi <;> rfl
          refine (ih hleft).bind fun a ha => ?_
          obtain ⟨ps, hps, hdests, hone'⟩ := ha.packets
          refine ⟨?_, congrArg (id :: ·) ha.left, p :: ps, ?_, ?_, ?_⟩
          · simp only [mem_cons, forall_eq_or_imp]
            exact ⟨hone, ha.one⟩
          · rw [hps, hp, hcreated, append_assoc, singleton_append]
          · simp [hdests, hdest]
          simp_all

/-- **One attempt**: what has been sent is a first part of the destinations, in packets for one node each; an
attempt that fails leaves the others in the message. -/
lemma multicastMessage_sat (dest : NetDest counts) :
    Sat (fun _ => True) (Served dest.getAllDest d) (multicastMessage net n now vnet msg dest d) := by
  unfold multicastMessage
  cases net.outportForVnet n vnet with
  | none => trivial
  | some port => exact multicastTo_sat (Left.start dest)

/-! ### All attempts on a message -/

/-- Attempts on a message, one after the other until one succeeds, at any times and with the network in any
state: what has been sent, the packets made, the destinations left in the message, and whether it is done. -/
inductive Attempts (net : Net) (n vnet : ℕ) (msg : Message) (original : NetDest counts) :
    List (Unicast counts) → List Packet → NetDest counts → Bool → Prop
  | none : Attempts net n vnet msg original [] [] original false
  | next {sent : List (Unicast counts)} {packets : List Packet} {dest : NetDest counts} {now : ℕ} {d : Data}
      {a : Attempt counts} (before : Attempts net n vnet msg original sent packets dest false)
      (call : multicastMessage net n now vnet msg dest d = .ok a) :
      Attempts net n vnet msg original (sent ++ a.sent) (packets ++ a.data.created.drop d.created.length) a.destination a.all

variable {original dest : NetDest counts} {sent : List (Unicast counts)} {packets : List Packet} {done : Bool}

section

variable (h : Attempts net n vnet msg original sent packets dest done)
include h

/-- What has been sent so far is a first part of the original destinations, and the message names the rest. -/
lemma Attempts.left : sent.map Unicast.destNi ++ (if done then [] else dest.getAllDest) = original.getAllDest := by
  induction h with
  | none => rfl
  | next before call ih =>
    have hleft := ((multicastMessage_sat _).of_ok call).left
    simp_all

lemma Attempts.one : ∀ x ∈ sent, OneNode x := by
  induction h with
  | none => simp
  | next before call ih =>
    intro x hx
    rcases mem_append.mp hx with hx | hx
    · exact ih x hx
    · exact ((multicastMessage_sat _).of_ok call).one x hx

lemma Attempts.packets_eq :
    packets.map (·.route.destNi) = sent.map Unicast.destNi ∧ ∀ p ∈ packets, p.msgPtr.destination = [p.route.destNi] := by
  induction h with
  | none => simp
  | next before call ih =>
    obtain ⟨ps, hps, hdests, hone⟩ := ((multicastMessage_sat _).of_ok call).packets
    grind

end

/-- **Multicast is split exactly once**: when an attempt succeeds, one packet has been made for each of the
original destinations and none for another node. The clone that is sent is for the node of its route alone. -/
theorem multicast_once (h : Attempts net n vnet msg original sent packets dest true) :
    (∀ id, (packets.map (·.route.destNi)).count id = if id ∈ original.getAllDest then 1 else 0) ∧
      packets.map (·.route.destNi) = sent.map Unicast.destNi ∧
      (∀ p ∈ packets, p.msgPtr.destination = [p.route.destNi]) ∧ ∀ x ∈ sent, OneNode x := by
  have hleft : sent.map Unicast.destNi = original.getAllDest := by simpa using h.left
  refine ⟨fun id => ?_, h.packets_eq.1, h.packets_eq.2, h.one⟩
  rw [h.packets_eq.1, hleft]
  exact original.nodup_getAllDest.count

/-- With one virtual channel, the first attempt serves one of the two nodes, and the second the other. -/
theorem multicast_once_two : ∃ (packets : List Packet) (sent : List (Unicast [1, 1])) (dest : NetDest [1, 1]),
      Attempts pairNet 0 0 pairMessage bothNodes sent packets dest true ∧ packets.length = 2 ∧
      ∀ id, (packets.map (·.route.destNi)).count id = if id ∈ bothNodes.getAllDest then 1 else 0 := by
  have start : Attempts pairNet 0 0 pairMessage bothNodes [] [] bothNodes false := .none
  have first := start.next (show multicastMessage pairNet 0 0 0 pairMessage bothNodes (Data.init pairNet) = .ok _ from rfl)
  have second := first.next (show multicastMessage pairNet 0 0 0 pairMessage _ (Data.init pairNet) = .ok _ from rfl)
  exact ⟨_, _, _, second, rfl, (multicast_once second).1⟩

end NetworkInterface

end Gem5.Garnet
