import Gem5.Garnet.Delivery

/-!
# Functional accesses

`functionalRead` and `functionalWrite` of the network and its parts: loops over the buffers of the routers, the
interfaces, the links and, for reads only, the bridges. Neither looks at the stall queues of the interfaces. So a
functional write reaches all flits in the network just when these buffers, and those of the bridges, have none.

A functional packet is what it does to a message: what the message is after it, and whether it was written. Each flit
has its message, which is not looked at otherwise.
-/

namespace Gem5.Garnet

open Ruby Lib List Net

/-! ### Buffers -/

/-- A network with bridges, as far as it holds flits. -/
structure Bridged where
  data : Data
  /-- `linkBuffer` of each bridge. -/
  bridges : ℕ → List Flit

inductive FlitStore where
  | niOutVc (n v : ℕ)
  /-- `outBuffer` of an output unit or `outFlitQueue` of an interface, by the link it leads to. -/
  | srcQueue (l : ℕ)
  | linkBuffer (l : ℕ)
  | inputVc (l v : ℕ)
  | switchBuffer (l : ℕ)
  | stallQueue (l : ℕ)
  | bridge (b : ℕ)
  deriving DecidableEq, Repr

namespace Bridged

variable (s : Bridged)

def flits : FlitStore → List Flit
  | .niOutVc n v => (s.data.ni n).niOutVcs v
  | .srcQueue l => (s.data.networkLink l).srcQueue
  | .linkBuffer l => (s.data.networkLink l).linkBuffer
  | .inputVc l v => (s.data.virtualChannels (l, v)).inputBuffer
  | .switchBuffer l => s.data.switchBuffers l
  | .stallQueue l => (s.data.inPort l).stallQueue
  | .bridge b => s.bridges b

def setFlits (fs : List Flit) : FlitStore → Bridged
  | .niOutVc n v =>
    { s with data := s.data.setNi n { s.data.ni n with niOutVcs := Function.update (s.data.ni n).niOutVcs v fs } }
  | .srcQueue l => { s with data := s.data.setLink l { s.data.networkLink l with srcQueue := fs } }
  | .linkBuffer l => { s with data := s.data.setLink l { s.data.networkLink l with linkBuffer := fs } }
  | .inputVc l v => { s with data := s.data.setVc (l, v) { s.data.virtualChannels (l, v) with inputBuffer := fs } }
  | .switchBuffer l => { s with data := s.data.setSwitch l fs }
  | .stallQueue l => { s with data := s.data.setInPort l { s.data.inPort l with stallQueue := fs } }
  | .bridge b => { s with bridges := Function.update s.bridges b fs }

lemma flits_setFlits (fs : List Flit) (c : FlitStore) : (s.setFlits fs c).flits = Function.update s.flits c fs := by
  funext k
  cases c with
  | niOutVc n v =>
    cases k with
    | niOutVc m u =>
      by_cases hm : m = n
      · by_cases hu : u = v <;> simp [setFlits, flits, Data.setNi, hm, hu]
      · simp [setFlits, flits, Data.setNi, hm]
    | _ => rfl
  | srcQueue l =>
    cases k with
    | srcQueue m | linkBuffer m => by_cases hm : m = l <;> simp [setFlits, flits, Data.setLink, hm]
    | _ => rfl
  | linkBuffer l =>
    cases k with
    | srcQueue m | linkBuffer m => by_cases hm : m = l <;> simp [setFlits, flits, Data.setLink, hm]
    | _ => rfl
  | inputVc l v =>
    cases k with
    | inputVc m u => by_cases hm : (m, u) = (l, v) <;> simp_all [setFlits, flits, Data.setVc]
    | _ => rfl
  | switchBuffer l =>
    cases k with
    | switchBuffer m => by_cases hm : m = l <;> simp [setFlits, flits, Data.setSwitch, hm]
    | _ => rfl
  | stallQueue l =>
    cases k with
    | stallQueue m => by_cases hm : m = l <;> simp [setFlits, flits, Data.setInPort, hm]
    | _ => rfl
  | bridge b =>
    cases k with
    | bridge m => by_cases hm : m = b <;> simp [setFlits, flits, hm]
    | _ => rfl

end Bridged

/-! ### Accesses -/

/-- What `functionalWrite` with a packet does to a message, and whether it wrote anything. -/
abbrev WritePacket := Message → Message × Bool

/-- `flit::functionalWrite`. The flits of a packet share one message in the source; here each has a copy, and a write
that reaches some of them leaves the copies of the others as they are. -/
def Flit.functionalWrite (pkt : WritePacket) (f : Flit) : Flit × Bool :=
  ({ f with msgPtr := (pkt f.msgPtr).1 }, (pkt f.msgPtr).2)

/-- `flitBuffer::functionalWrite`, in a buffer: it counts what was written. -/
def writeStore (pkt : WritePacket) (x : Bridged × ℕ) (c : FlitStore) : Bridged × ℕ :=
  let written := (x.1.flits c).map (Flit.functionalWrite pkt)
  (x.1.setFlits (written.map Prod.fst) c, x.2 + (written.filter Prod.snd).length)

/-- `flitBuffer::functionalRead`, in a buffer: `read` tells what a message adds to the packet and its mask, and whether
there was something to read. -/
def readStore {α : Type} (read : α → Message → α × Bool) (s : Bridged) (x : α × Bool) (c : FlitStore) : α × Bool :=
  (s.flits c).foldl (fun x f =>
    let (mask, isRead) := read x.1 f.msgPtr
    (mask, isRead || x.2)) x

variable (net : Net)

/-- The buffers that `Router::functionalRead` and `Router::functionalWrite` go through. -/
def Router.stores (r : ℕ) : List FlitStore :=
  (net.inLinks (.router r)).map .switchBuffer ++
    (net.inLinks (.router r)).flatMap (fun l => (range (SwitchAllocator.numVcs net r)).map (.inputVc l)) ++
    (net.outLinks (.router r)).map .srcQueue

/-- The buffers that `NetworkInterface::functionalRead` and `NetworkInterface::functionalWrite` go through. -/
def NetworkInterface.stores (n : ℕ) : List FlitStore :=
  (range (NetworkInterface.numVcs net n)).map (.niOutVc n) ++ (net.outLinks (.ni n)).map .srcQueue

namespace GarnetNetwork

/-- The loops over `m_routers`, `m_nis` and `m_networklinks`. -/
def stores : List FlitStore :=
  (range net.numRouters).flatMap (Router.stores net) ++ (range net.numNodes).flatMap (NetworkInterface.stores net) ++
    (range net.links.length).map .linkBuffer

/-- `functionalRead(pkt, mask)`. -/
def functionalRead {α : Type} (numBridges : ℕ) (read : α → Message → α × Bool) (mask : α) (s : Bridged) : α × Bool :=
  (stores net ++ (range numBridges).map FlitStore.bridge).foldl (readStore read s) (mask, false)

/-- `functionalWrite(pkt)`: the network after it, and what it returns. -/
def functionalWrite (pkt : WritePacket) (s : Bridged) : Bridged × ℕ := (stores net).foldl (writeStore pkt) (s, 0)

end GarnetNetwork

/-! ### What they reach -/

/-- The buffer is one of the network, with a number of bridges. -/
def FlitStore.IsIn (numBridges : ℕ) : FlitStore → Prop
  | .niOutVc n v => n < net.numNodes ∧ v < NetworkInterface.numVcs net n
  | .srcQueue l | .linkBuffer l => l < net.links.length
  | .inputVc l v => ∃ r, l ∈ net.inLinks (.router r) ∧ v < SwitchAllocator.numVcs net r
  | .switchBuffer l => ∃ r, l ∈ net.inLinks (.router r)
  | .stallQueue l => ∃ n, l ∈ net.inLinks (.ni n)
  | .bridge b => b < numBridges

/-- The buffers that functional writes do not look at. -/
def FlitStore.isSkipped : FlitStore → Bool
  | .stallQueue _ | .bridge _ => true
  | _ => false

variable {net} {numBridges : ℕ}

lemma Router.mem_stores {r : ℕ} {c : FlitStore} : c ∈ Router.stores net r ↔
    (∃ l ∈ net.inLinks (.router r), c = .switchBuffer l) ∨
    (∃ l ∈ net.inLinks (.router r), ∃ v < SwitchAllocator.numVcs net r, c = .inputVc l v) ∨
    ∃ l ∈ net.outLinks (.router r), c = .srcQueue l := by
  unfold Router.stores
  simp only [mem_append, mem_map, mem_flatMap, mem_range, or_assoc, eq_comm]

lemma NetworkInterface.mem_stores {n : ℕ} {c : FlitStore} : c ∈ NetworkInterface.stores net n ↔
    (∃ v < NetworkInterface.numVcs net n, c = .niOutVc n v) ∨ ∃ l ∈ net.outLinks (.ni n), c = .srcQueue l := by
  unfold NetworkInterface.stores
  simp only [mem_append, mem_map, mem_range, eq_comm]

namespace GarnetNetwork

lemma mem_stores {c : FlitStore} : c ∈ stores net ↔
    (∃ r < net.numRouters, c ∈ Router.stores net r) ∨ (∃ n < net.numNodes, c ∈ NetworkInterface.stores net n) ∨
      ∃ l < net.links.length, c = .linkBuffer l := by
  unfold stores
  simp only [mem_append, mem_map, mem_flatMap, mem_range, or_assoc, eq_comm]

lemma src_lt {l : ℕ} (hl : l < net.links.length) : (net.link l).src.isIn net.numRouters net.numNodes = true :=
  (net.link_ends _ (link_mem hl)).1

lemma dst_lt {l : ℕ} (hl : l < net.links.length) : (net.link l).dst.isIn net.numRouters net.numNodes = true :=
  (net.link_ends _ (link_mem hl)).2

variable (numBridges) in
lemma mem_stores_iff {c : FlitStore} : c ∈ stores net ↔ c.IsIn net numBridges ∧ c.isSkipped = false := by
  rw [mem_stores]
  constructor
  · rintro (⟨r, hr, h⟩ | ⟨n, hn, h⟩ | ⟨l, hl, rfl⟩)
    · rcases Router.mem_stores.mp h with ⟨l, hl, rfl⟩ | ⟨l, hl, v, hv, rfl⟩ | ⟨l, hl, rfl⟩
      · exact ⟨⟨r, hl⟩, rfl⟩
      · exact ⟨⟨r, hl, hv⟩, rfl⟩
      · exact ⟨(mem_outLinks.mp hl).1, rfl⟩
    · rcases NetworkInterface.mem_stores.mp h with ⟨v, hv, rfl⟩ | ⟨l, hl, rfl⟩
      · exact ⟨⟨hn, hv⟩, rfl⟩
      · exact ⟨(mem_outLinks.mp hl).1, rfl⟩
    · exact ⟨hl, rfl⟩
  · rintro ⟨hin, hskip⟩
    have hrouter : ∀ {l r}, l ∈ net.inLinks (.router r) → r < net.numRouters := by
      grind [mem_inLinks, dst_lt, Node.isIn]
    cases c with
    | niOutVc n v => exact Or.inr (Or.inl ⟨n, hin.1, NetworkInterface.mem_stores.mpr (Or.inl ⟨v, hin.2, rfl⟩)⟩)
    | srcQueue l =>
      have hsrc := src_lt hin
      cases hs : (net.link l).src with
      | router r =>
        rw [hs, Node.isIn, decide_eq_true_eq] at hsrc
        exact Or.inl ⟨r, hsrc, Router.mem_stores.mpr
          (Or.inr (Or.inr ⟨l, mem_outLinks.mpr ⟨hin, hs⟩, rfl⟩))⟩
      | ni n =>
        rw [hs, Node.isIn, decide_eq_true_eq] at hsrc
        exact Or.inr (Or.inl ⟨n, hsrc, NetworkInterface.mem_stores.mpr
          (Or.inr ⟨l, mem_outLinks.mpr ⟨hin, hs⟩, rfl⟩)⟩)
    | linkBuffer l => exact Or.inr (Or.inr ⟨l, hin, rfl⟩)
    | inputVc l v =>
      obtain ⟨r, hl, hv⟩ := hin
      exact Or.inl ⟨r, hrouter hl, Router.mem_stores.mpr (Or.inr (Or.inl ⟨l, hl, v, hv, rfl⟩))⟩
    | switchBuffer l =>
      obtain ⟨r, hl⟩ := hin
      exact Or.inl ⟨r, hrouter hl, Router.mem_stores.mpr (Or.inl ⟨l, hl, rfl⟩)⟩
    | stallQueue l => cases hskip
    | bridge b => cases hskip

lemma nodup_stores : (stores net).Nodup := by
  have hdst : ∀ {l x y}, l ∈ net.inLinks x → l ∈ net.inLinks y → x = y := fun h h' =>
    (mem_inLinks.mp h).2.symm.trans (mem_inLinks.mp h').2
  have hsrc : ∀ {l x y}, l ∈ net.outLinks x → l ∈ net.outLinks y → x = y := fun h h' =>
    (mem_outLinks.mp h).2.symm.trans (mem_outLinks.mp h').2
  have hrouter : ((range net.numRouters).flatMap (Router.stores net)).Nodup := by
    refine nodup_flatMap_of_key nodup_range (fun r _ => ?_) fun r _ r' _ c hc hc' => ?_
    · unfold Router.stores
      rw [nodup_append, nodup_append]
      refine ⟨⟨(nodup_inLinks _).map fun _ _ h => FlitStore.switchBuffer.inj h, ?_, ?_⟩,
        (nodup_outLinks _).map fun _ _ h => FlitStore.srcQueue.inj h, ?_⟩
      · refine nodup_flatMap_of_key (nodup_inLinks _) (fun l _ => ?_) fun l _ l' _ c hc hc' => ?_
        · exact nodup_range.map fun _ _ h => (FlitStore.inputVc.inj h).2
        · obtain ⟨v, -, rfl⟩ := mem_map.mp hc
          obtain ⟨v', -, h⟩ := mem_map.mp hc'
          exact (FlitStore.inputVc.inj h).1.symm
      · intro c hc c' hc'
        obtain ⟨l, -, rfl⟩ := mem_map.mp hc
        obtain ⟨l', -, hc'⟩ := mem_flatMap.mp hc'
        obtain ⟨v, -, rfl⟩ := mem_map.mp hc'
        exact FlitStore.noConfusion
      · intro c hc c' hc' h
        obtain ⟨l', -, rfl⟩ := mem_map.mp hc'
        subst h
        simp at hc
    · rcases Router.mem_stores.mp hc with ⟨l, hl, rfl⟩ | ⟨l, hl, v, -, rfl⟩ | ⟨l, hl, rfl⟩ <;>
        rcases Router.mem_stores.mp hc' with ⟨l', hl', h⟩ | ⟨l', hl', v', -, h⟩ | ⟨l', hl', h⟩ <;> cases h
      · exact Node.router.inj (hdst hl hl')
      · exact Node.router.inj (hdst hl hl')
      · exact Node.router.inj (hsrc hl hl')
  have hni : ((range net.numNodes).flatMap (NetworkInterface.stores net)).Nodup := by
    refine nodup_flatMap_of_key nodup_range (fun n _ => ?_) fun n _ n' _ c hc hc' => ?_
    · unfold NetworkInterface.stores
      rw [nodup_append]
      refine ⟨nodup_range.map fun _ _ h => (FlitStore.niOutVc.inj h).2,
        (nodup_outLinks _).map fun _ _ h => FlitStore.srcQueue.inj h, ?_⟩
      intro c hc c' hc'
      obtain ⟨v, -, rfl⟩ := mem_map.mp hc
      obtain ⟨l, -, rfl⟩ := mem_map.mp hc'
      exact FlitStore.noConfusion
    · rcases NetworkInterface.mem_stores.mp hc with ⟨v, -, rfl⟩ | ⟨l, hl, rfl⟩ <;>
        rcases NetworkInterface.mem_stores.mp hc' with ⟨v', -, h⟩ | ⟨l', hl', h⟩ <;> cases h
      · rfl
      · exact Node.ni.inj (hsrc hl hl')
  unfold stores
  rw [nodup_append, nodup_append]
  refine ⟨⟨hrouter, hni, ?_⟩, nodup_range.map fun _ _ h => FlitStore.linkBuffer.inj h, ?_⟩
  · intro c hc c' hc' h
    subst h
    obtain ⟨r, -, hc⟩ := mem_flatMap.mp hc
    obtain ⟨n, -, hc'⟩ := mem_flatMap.mp hc'
    rcases Router.mem_stores.mp hc with ⟨l, hl, rfl⟩ | ⟨l, hl, v, -, rfl⟩ | ⟨l, hl, rfl⟩ <;>
      rcases NetworkInterface.mem_stores.mp hc' with ⟨v', -, h⟩ | ⟨l', hl', h⟩ <;> cases h
    exact absurd (hsrc hl hl') (by simp)
  · intro c hc c' hc' h
    subst h
    obtain ⟨l, -, rfl⟩ := mem_map.mp hc'
    simp_all [Router.mem_stores, NetworkInterface.mem_stores]

lemma flits_functionalWrite (pkt : WritePacket) (s : Bridged) (c : FlitStore) :
    (functionalWrite net pkt s).1.flits c =
      if c ∈ stores net then (s.flits c).map fun f => (f.functionalWrite pkt).1 else s.flits c := by
  refine foldl_visit (fun x : Bridged × ℕ => x.1.flits) (fun x c => ?_) nodup_stores (s, 0) c
  change (x.1.setFlits (((x.1.flits c).map (Flit.functionalWrite pkt)).map Prod.fst) c).flits = _
  rw [Bridged.flits_setFlits, map_map]
  rfl

/-- A functional write reaches every flit in the network just when no message is stalled at an interface and no flit is
in a bridge. -/
theorem functionalWrite_reaches_iff (s : Bridged) : (∀ pkt c, c.IsIn net numBridges →
      (functionalWrite net pkt s).1.flits c = (s.flits c).map fun f => (f.functionalWrite pkt).1) ↔
      (∀ n, ∀ l ∈ net.inLinks (.ni n), (s.data.inPort l).stallQueue = []) ∧ ∀ b < numBridges, s.bridges b = [] := by
  constructor
  · intro h
    -- a packet that changes every message
    have hempty : ∀ c, c.IsIn net numBridges → c.isSkipped = true → s.flits c = [] := by
      intro c hin hskip
      have hc := h (fun m => ({ m with payload := m.payload + 1 }, true)) c hin
      rw [flits_functionalWrite, if_neg fun hmem => by
        rw [((mem_stores_iff numBridges).mp hmem).2] at hskip; cases hskip] at hc
      cases hfs : s.flits c with
      | nil => rfl
      | cons f fs =>
        rw [hfs, map_cons] at hc
        have hmsg := congrArg (fun f : Flit => f.msgPtr.payload) (cons.inj hc).1
        exact absurd hmsg (Nat.ne_of_lt (Nat.lt_succ_self _))
    exact ⟨fun n l hl => hempty (.stallQueue l) ⟨n, hl⟩ rfl, fun b hb => hempty (.bridge b) hb rfl⟩
  · rintro ⟨hstall, hbridge⟩ pkt c hin
    rw [flits_functionalWrite]
    split_ifs with hc
    · rfl
    · -- what is skipped is empty
      have hfs : s.flits c = [] := by
        cases hskip : c.isSkipped with
        | false => exact absurd ((mem_stores_iff numBridges).mpr ⟨hin, hskip⟩) hc
        | true =>
          cases c with
          | stallQueue l =>
            obtain ⟨n, hl⟩ := hin
            exact hstall n l hl
          | bridge b => exact hbridge b hin
          | _ => cases hskip
      rw [hfs, map_nil]

end GarnetNetwork

/-! ### What they miss -/

/-- Two interfaces and a router between them; the protocol takes one message at a time from the network. -/
def Net.twoBounded : Net := star 2 1 2 1 1 unbounded oneSlot

/-- Interface `0` sends two messages; there is room for the first at interface `1`, and the second is stalled there. -/
def stallSecond : List Action :=
  [.protocol 0 0 (.enqueue { payload := 0, destination := [1], size := 8, time := 0 } 1 1),
    .protocol 0 0 (.enqueue { payload := 1, destination := [1], size := 8, time := 0 } 1 1), .advance 1, .fire (.ni 0),
    .globalWakeup [], .advance 2, .fire (.ni 0), .fire (.networkLink 0), .globalWakeup [(0, 0)], .advance 3,
    .fire (.router 0), .fire (.networkLink 0), .globalWakeup [(0, 0)], .advance 4, .fire (.router 0),
    .fire (.creditLink 0), .fire (.networkLink 3), .globalWakeup [], .advance 5, .fire (.ni 0), .fire (.ni 1),
    .fire (.creditLink 0), .fire (.networkLink 3), .globalWakeup [], .advance 6, .fire (.ni 0), .fire (.ni 1)]

/-- A flit in a bridge, and nothing else. -/
def inBridge : Bridged where
  data := Data.init two
  bridges _ := [Flit.new 0 0 0 0 ⟨0, [1], 0, 0, 1, 0, 0⟩ 1 { payload := 7, destination := [1], size := 8, time := 0 } 8 128 0 0]

open GarnetNetwork in
/-- A message that is stalled is missed, and so is a flit in a bridge, which a functional read finds. -/
theorem functionalWrite_misses : (∃ s, Reachable Net.twoBounded s ∧ ¬ ∀ pkt c, c.IsIn Net.twoBounded 0 →
      (functionalWrite Net.twoBounded pkt ⟨s.data, fun _ => []⟩).1.flits c =
        ((⟨s.data, fun _ => []⟩ : Bridged).flits c).map fun f => (f.functionalWrite pkt).1) ∧
    (functionalRead Net.two 1 (fun k (m : Message) => (k + m.payload, true)) 0 inBridge = (7, true) ∧
      (functionalWrite Net.two (fun m => (m, true)) inBridge).2 = 0) := by
  refine ⟨?_, by decide +kernel⟩
  obtain ⟨s, hs, ht⟩ := exists_reachable twoBounded stallSecond (fun s => !(s.data.inPort 3).stallQueue.isEmpty)
    (by decide +kernel)
  refine ⟨s, hs, fun h => ?_⟩
  have hempty := ((functionalWrite_reaches_iff _).mp h).1 1 3 (by decide +kernel)
  rw [isEmpty_iff.mpr hempty] at ht
  cases ht

end Gem5.Garnet
