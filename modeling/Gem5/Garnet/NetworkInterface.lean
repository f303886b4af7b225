import Gem5.Garnet.State

/-!
# Network interfaces

`NetworkInterface::wakeup` and what it is made of (`mem/ruby/network/garnet/NetworkInterface.cc`):
messages from the protocol become packets, flits go out, and flits that come in are turned back into
messages, or stalled while the protocol buffer is full.

Ports are the links on them. `incrementStats` is modelled by the history it leaves: the flit has
been received. A node's number in the whole system and in this network are the same.
-/

namespace Gem5.Garnet

open Sim Ruby Lib Function

namespace NetworkInterface

variable (net : Net)

/-- Lift a check of a protocol buffer. -/
def ofBuffer {α : Type} : Except BufferFault α → Except Fault α
  | .ok a => .ok a
  | .error e => .error (.buffer e)

/-- The virtual channels of an interface: `niOutVcs.size()`. -/
def numVcs (n : ℕ) : ℕ := net.virtualNetworks * net.niVcPerVnet n

/-- `get_vnet(vc)`, for a virtual channel the interface has. -/
def getVnet (n vc : ℕ) : ℕ := vc / net.niVcPerVnet n

/-! ### Messages from the protocol -/

/-- `b->isReady(clockEdge())` for the buffer of a virtual network, which may schedule the interface. -/
def bufferReady (n : ℕ) (b : MessageBuffer) (s : State) : Except Fault (Bool × State) := do
  let (ready, again) ← ofBuffer (b.isReady s.now)
  pure (ready, if again then { s with sched := s.sched.scheduleEvent net s.now (.ni n) 1 } else s)

/-- The search of `calculateVC`, with `i` virtual channels left to look at. -/
def findIdleVc (k now vnet : ℕ) : ℕ → NiState → Option ℕ × NiState
  | 0, x => (none, x)
  | i + 1, x =>
    let delta := x.vcAllocator vnet
    let next := if delta + 1 = k then 0 else delta + 1
    let x := { x with vcAllocator := update x.vcAllocator vnet next }
    if (x.outVcState (vnet * k + delta)).isInState .idle now then (some (vnet * k + delta), x)
    else findIdleVc k now vnet i x

/-- `calculateVC(vnet)`; `none` is `-1`. -/
def calculateVC (n now vnet : ℕ) (x : NiState) : Except Fault (Option ℕ × NiState) :=
  match findIdleVc (net.niVcPerVnet n) now vnet (net.niVcPerVnet n) x with
  | (some vc, x) => .ok (some vc, { x with vcBusyCounter := update x.vcBusyCounter vnet 0 })
  | (none, x) => do
    let busy := x.vcBusyCounter vnet + 1
    ensure (decide (busy ≤ net.deadlockThreshold n)) .deadlock
    pure (none, { x with vcBusyCounter := update x.vcBusyCounter vnet busy })

lemma findIdleVc_nodes (k now vnet i : ℕ) (x : NiState) :
    (findIdleVc k now vnet i x).2.inNode = x.inNode ∧ (findIdleVc k now vnet i x).2.outNode = x.outNode := by
  induction i generalizing x with
  | zero => exact ⟨rfl, rfl⟩
  | succ i ih =>
    rw [findIdleVc]
    dsimp only
    split_ifs <;> first | exact ⟨rfl, rfl⟩ | exact ih _

variable {net} in
/-- `calculateVC` does not touch the protocol buffers. -/
lemma calculateVC_nodes {n now vnet : ℕ} {x : NiState} {y : Option ℕ × NiState}
    (h : calculateVC net n now vnet x = .ok y) : y.2.inNode = x.inNode ∧ y.2.outNode = x.outNode := by
  have hfind := findIdleVc_nodes (net.niVcPerVnet n) now vnet (net.niVcPerVnet n) x
  unfold calculateVC at h
  generalize findIdleVc (net.niVcPerVnet n) now vnet (net.niVcPerVnet n) x = z at h hfind
  obtain ⟨vc, x'⟩ := z
  cases vc with
  | some vc =>
    cases h
    exact hfind
  | none =>
    obtain ⟨_, -, h⟩ := bind_eq_ok.mp h
    cases h
    exact hfind

/-- The route to `destId`. -/
def routeTo (n vnet port destId destRouter : ℕ) : RouteInfo :=
  { vnet, netDest := [destId], srcNi := n, srcRouter := net.routerId port, destNi := destId, destRouter
    hopsTraversed := -1 }

/-- The number of flits of a message on a port. -/
def numFlits (port : ℕ) (msg : Message) : ℕ := divCeil msg.size (net.link port).bitWidth

def flitsOf (packetId vc vnet : ℕ) (route : RouteInfo) (num : ℕ) (msg : Message) (width now : ℕ) : List Flit :=
  (List.range num).map fun i =>
    Flit.new packetId i vc vnet route num msg msg.size width now (now - msg.time)

/-- The part of `flitisizeMessage` for one destination that has a virtual channel. -/
def makePacket (n now vnet port vc destId : ℕ) (msg : Message) (d : Data) : Except Fault Data :=
  match net.getRouterId destId vnet with
  | none => .error .noOutport
  | some destRouter =>
    let route := routeTo net n vnet port destId destRouter
    let num := numFlits net port msg
    let msg := { msg with destination := [destId] }
    let flits := flitsOf d.nextPacketId vc vnet route num msg (net.link port).bitWidth now
    let x := d.ni n
    .ok { d.setNi n { x with
            niOutVcs := update x.niOutVcs vc (x.niOutVcs vc ++ flits)
            outVcsEnqueueTime := update x.outVcsEnqueueTime vc now
            outVcState := update x.outVcState vc ((x.outVcState vc).setState .active now) } with
      nextPacketId := d.nextPacketId + 1
      created := d.created ++ [⟨d.nextPacketId, vnet, num, route, msg⟩] }

/-- Take a destination out of the message at the front of a protocol buffer. -/
def removeDest (n vnet destId : ℕ) (d : Data) : Data :=
  let x := d.ni n
  d.setNi n { x with inNode := update x.inNode vnet ((x.inNode vnet).map fun b =>
    b.updateFront fun m => { m with destination := m.destination.filter (· != destId) }) }

/-- `flitisizeMessage(msg_ptr, vnet)` for the destinations that are left; `multi` if the message had
more than one. -/
def flitisizeTo (n now vnet port : ℕ) (msg : Message) (multi : Bool) : List ℕ → Data → Except Fault (Bool × Data)
  | [], d => .ok (true, d)
  | destId :: rest, d => do
    let (vc, x) ← calculateVC net n now vnet (d.ni n)
    let d := d.setNi n x
    match vc with
    | none => pure (false, d)
    | some vc =>
      let d := if multi then removeDest n vnet destId d else d
      let d ← makePacket net n now vnet port vc destId msg d
      flitisizeTo n now vnet port msg multi rest d

/-- `flitisizeMessage(msg_ptr, vnet)`. -/
def flitisizeMessage (n now vnet : ℕ) (msg : Message) (d : Data) : Except Fault (Bool × Data) :=
  match net.outportForVnet n vnet with
  | none => .error .noOutport
  | some port => flitisizeTo net n now vnet port msg (decide (1 < msg.destination.length)) msg.destination d

/-- The dequeue of a message that has been turned into packets. -/
def dequeueIn (n now vnet : ℕ) (d : Data) : Except Fault Data :=
  let x := d.ni n
  match x.inNode vnet with
  | none => .error .noNode
  | some b => do
    let (b, _) ← ofBuffer (b.dequeue now)
    pure (d.setNi n { x with inNode := update x.inNode vnet (some b) })

/-- The loop of `wakeup` over the messages coming from the protocol, for one virtual network. -/
def takeMessage (n : ℕ) (s : State) (vnet : ℕ) : Except Fault State :=
  match (s.data.ni n).inNode vnet with
  | none => .ok s
  | some b => do
    let (ready, s) ← bufferReady net n b s
    if ready then
      match b.prioHeap with
      | [] => .error .emptyBuffer
      | msg :: _ =>
        let (all, d) ← flitisizeMessage net n s.now vnet msg s.data
        if all then do
          let d ← dequeueIn n s.now vnet d
          pure { s with data := d }
        else pure { s with data := d }
    else pure s

/-! ### Flits to the network -/

/-- `scheduleFlit(t_flit)`. -/
def scheduleFlit (n : ℕ) (f : Flit) (s : State) : Except Fault State :=
  match net.outportForVnet n f.vnet, (net.outLinks (.ni n)).head? with
  | some port, some first =>
    let edge := clockEdge (net.period (.ni n)) s.now 1
    .ok { s with
      data := s.data.pushFlit port f
      sched := (s.sched.scheduleEventAbsolute net s.now (.networkLink port) edge).registerWakeup net
        (net.routerId first) edge }
  | _, _ => .error .noOutport

/-- No virtual channel of the same ordered virtual network has a ready flit of an earlier packet. -/
def isCandidateVc (n now vc : ℕ) (x : NiState) : Bool :=
  let vnet := getVnet net n vc
  !net.isVnetOrdered vnet || !(List.range (net.niVcPerVnet n)).any fun i =>
    let t := vnet * net.niVcPerVnet n + i
    isReady (x.niOutVcs t) now && decide (x.outVcsEnqueueTime t < x.outVcsEnqueueTime vc)

/-- `scheduleOutputPort` takes a flit from this virtual channel. -/
def maySend (n now l : ℕ) (x : NiState) (vc : ℕ) : Bool :=
  (net.link l).isVnetSupported (getVnet net n vc) && isReady (x.niOutVcs vc) now && (x.outVcState vc).hasCredit &&
    isCandidateVc net n now vc x

/-- The part of `scheduleOutputPort` for the virtual channel that was found. -/
def sendFrom (n l vc : ℕ) (s : State) : Except Fault State := do
  let x := s.data.ni n
  let o ← (x.outVcState vc).decrementCredit
  match x.niOutVcs vc with
  | [] => .error .emptyBuffer
  | f :: rest =>
    let f := { f with time := clockEdge (net.period (.ni n)) s.now 1 }
    let x := { x with
      outVcState := update x.outVcState vc o
      niOutVcs := update x.niOutVcs vc rest
      outVcsEnqueueTime := if f.isTail then update x.outVcsEnqueueTime vc infinite else x.outVcsEnqueueTime }
    let d := { s.data.setNi n x with vcRoundRobin := update s.data.vcRoundRobin l vc }
    scheduleFlit net n f { s with data := d }

/-- `scheduleOutputPort(oPort)`. -/
def scheduleOutputPort (n : ℕ) (s : State) (l : ℕ) : Except Fault State :=
  match ((List.range (numVcs net n)).rotate (s.data.vcRoundRobin l + 1)).find? (maySend net n s.now l (s.data.ni n)) with
  | none => .ok s
  | some vc => sendFrom net n l vc s

/-! ### Flits from the network -/

/-- Put the message of a tail flit into the protocol buffer `b`, send a credit that frees its virtual
channel, and count it. -/
def deliver (n l : ℕ) (b : MessageBuffer) (f : Flit) (s : State) : Except Fault State := do
  let random := b.isRandomized net.randomization
  let (b, _) ← ofBuffer (b.enqueue f.msgPtr s.now (net.period (.ni n)) net.randomization net.warmupEnabled
    (net.randomTime s.data.timeDraws) false)
  let x := s.data.ni n
  let d := (s.data.setNi n { x with outNode := update x.outNode f.vnet (some b) }).pushCredit l
    ⟨f.vc, true, s.now⟩
  pure { s with data := { d with
    timeDraws := if random then d.timeDraws + 1 else d.timeDraws
    received := d.received ++ [(n, f)]
    enqueued := d.enqueued ++ [(n, f.vnet, f)] } }

/-- The first flit of a stall queue whose message the protocol buffer accepts, and the others. -/
def takeEjectable (now : ℕ) (x : NiState) : List Flit → Except Fault (Option (MessageBuffer × Flit × List Flit))
  | [] => .ok none
  | f :: rest =>
    match x.outNode f.vnet with
    | none => .error .noNode
    | some b =>
      if b.areNSlotsAvailable 1 now then .ok (some (b, f, rest))
      else do
        match ← takeEjectable now x rest with
        | none => pure none
        | some (b, g, rest) => pure (some (b, g, f :: rest))

/-- A message of the virtual network is no longer stalled; the last one takes the callback away. -/
def unstall (n vnet : ℕ) (d : Data) : Data :=
  let x := d.ni n
  let count := x.stallCount vnet - 1
  d.setNi n { x with
    stallCount := update x.stallCount vnet count
    outNode := if count = 0 then
        update x.outNode vnet ((x.outNode vnet).map (·.unregisterDequeueCallback))
      else x.outNode }

/-- `checkStallQueue()` for the input port `l`. -/
def checkStallQueue (n : ℕ) (s : State) (l : ℕ) : Except Fault State := do
  let p := s.data.inPort l
  match ← takeEjectable s.now (s.data.ni n) p.stallQueue with
  | none => pure { s with data := s.data.setInPort l { p with messageEnqueuedThisCycle := false } }
  | some (b, f, rest) =>
    let s ← deliver net n l b f s
    let d := unstall n f.vnet s.data
    pure { s with data := d.setInPort l ⟨rest, true⟩ }

/-- A flit that is not a tail is exchanged for a credit. -/
def absorb (n l : ℕ) (f : Flit) (s : State) : State :=
  let d := s.data.pushCredit l ⟨f.vc, false, s.now⟩
  { s with data := { d with received := d.received ++ [(n, f)] } }

/-- A tail flit waits in the stall queue, and the protocol buffer is to call back. -/
def stall (n l : ℕ) (f : Flit) (d : Data) : Data :=
  let p := d.inPort l
  let x := d.ni n
  (d.setInPort l { p with stallQueue := p.stallQueue ++ [f] }).setNi n { x with
    stallCount := update x.stallCount f.vnet (x.stallCount f.vnet + 1)
    outNode := update x.outNode f.vnet ((x.outNode f.vnet).map (·.registerDequeueCallback)) }

/-- The loop of `wakeup` over the incoming flit links, for the input port `l`. -/
def receiveFlit (n : ℕ) (s : State) (l : ℕ) : Except Fault State :=
  match (s.data.networkLink l).linkBuffer with
  | [] => .ok s
  | f :: rest =>
    if f.time ≤ s.now then do
      let s := { s with data := s.data.setLink l { s.data.networkLink l with linkBuffer := rest } }
      ensure (f.width == (net.link l).bitWidth) .width
      let f := { f with dequeueTime := s.now }
      if f.isTail then
        match (s.data.ni n).outNode f.vnet with
        | none => .error .noNode
        | some b =>
          if !(s.data.inPort l).messageEnqueuedThisCycle && b.areNSlotsAvailable 1 s.now then deliver net n l b f s
          else pure { s with data := stall n l f s.data }
      else pure (absorb n l f s)
    else .ok s

/-! ### Credits and rescheduling -/

/-- The loop of `wakeup` over the incoming credit links, for the output port `l`. -/
def receiveCredit (n : ℕ) (s : State) (l : ℕ) : Except Fault State :=
  match (s.data.creditLink l).linkBuffer with
  | [] => .ok s
  | c :: rest =>
    if c.time ≤ s.now then do
      let x := s.data.ni n
      let o ← (x.outVcState c.vc).incrementCredit
      let o := if c.isFreeSignal then o.setState .idle s.now else o
      let d := (s.data.setCredit l { s.data.creditLink l with linkBuffer := rest }).setNi n
        { x with outVcState := update x.outVcState c.vc o }
      pure { s with data := d }
    else .ok s

/-- Schedule the credit link of the input port `l` if there are credits to send. -/
def scheduleCreditLink (n : ℕ) (s : State) (l : ℕ) : State :=
  if (s.data.creditLink l).srcQueue = [] then s
  else { s with sched := s.sched.scheduleEventAbsolute net s.now (.creditLink l) (clockEdge (net.period (.ni n)) s.now 1) }

/-- The first loop of `checkReschedule`: a message is waiting. -/
def anyMessage (n : ℕ) : List ℕ → State → Except Fault (Bool × State)
  | [], s => .ok (false, s)
  | vnet :: rest, s =>
    match (s.data.ni n).inNode vnet with
    | none => anyMessage n rest s
    | some b => do
      let (ready, s) ← bufferReady net n b s
      if ready then pure (true, s) else anyMessage n rest s

/-- `checkReschedule()`. -/
def checkReschedule (n : ℕ) (s : State) : Except Fault State := do
  let (message, s) ← anyMessage net n (List.range net.virtualNetworks) s
  let next := clockEdge (net.period (.ni n)) s.now 1
  if message || (List.range (numVcs net n)).any (fun v => isReady ((s.data.ni n).niOutVcs v) next) ||
      (net.inLinks (.ni n)).any (fun l => isReady (s.data.networkLink l).linkBuffer s.now) ||
      (net.outLinks (.ni n)).any (fun l => isReady (s.data.creditLink l).linkBuffer s.now) then
    pure { s with sched := s.sched.scheduleEvent net s.now (.ni n) 1 }
  else pure s

/-- `dequeueCallback()`. -/
def dequeueCallback (n : ℕ) (s : State) : State :=
  { s with sched := s.sched.scheduleEventAbsolute net s.now (.ni n) (clockEdge (net.period (.ni n)) s.now 1) }

/-- `NetworkInterface::wakeup()`. -/
def wakeup (n : ℕ) (s : State) : Except Fault State := do
  ensure (!(net.outLinks (.ni n)).isEmpty) .noOutport
  ensure (decide (net.period (.ni n) ∣ s.now)) .offEdge
  let s ← (List.range net.virtualNetworks).foldlM (takeMessage net n) s
  let s ← (net.outLinks (.ni n)).foldlM (scheduleOutputPort net n) s
  let s ← (net.inLinks (.ni n)).foldlM (checkStallQueue net n) s
  let s ← (net.inLinks (.ni n)).foldlM (receiveFlit net n) s
  let s ← (net.outLinks (.ni n)).foldlM (receiveCredit n) s
  checkReschedule net n ((net.inLinks (.ni n)).foldl (scheduleCreditLink net n) s)

end NetworkInterface

end Gem5.Garnet
