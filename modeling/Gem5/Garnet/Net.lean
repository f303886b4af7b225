import Gem5.Garnet.Flit
import Gem5.Ruby.Consumer

/-!
# The parts of a network

What does not change while a network runs: its routers, network interfaces and links, and the
parameters of each (`GarnetNetwork`, `Router`, `NetworkLink`, `NetworkInterface` and what
`makeExtInLink`, `makeExtOutLink` and `makeInternalLink` build from a topology), without bridges.

Links are numbered in the order in which the topology makes them, which is the order in which each
router and interface adds its ports. A network link and the credit link that goes the other way
have the same number, and a port is known by the number of the link on it. So the input ports of a
router are the links that end there and its output ports those that start there, in order.
-/

namespace Gem5.Garnet

open Ruby List

inductive Node where
  | router (r : ℕ)
  | ni (n : ℕ)
  deriving DecidableEq, Repr

/-- The node is one of the first routers or interfaces. -/
def Node.isIn (numRouters numNodes : ℕ) : Node → Bool
  | .router r => decide (r < numRouters)
  | .ni n => decide (n < numNodes)

/-- The directions of ports that `outportComputeXY` tells apart. -/
inductive PortDirection where
  /-- `"Local"`. -/
  | loc
  | east | west | north | south
  /-- Any other name. -/
  | other (k : ℕ)
  deriving DecidableEq, Repr

/-- A network link, the credit link beside it and what its ends know about it. -/
structure Link where
  src : Node
  dst : Node
  /-- `m_latency` of the network link, in cycles. -/
  latency : ℕ := 1
  /-- `m_latency` of the credit link. -/
  creditLatency : ℕ := 1
  bitWidth : ℕ := 128
  /-- `mVnets`: the virtual networks it carries; all of them if there is none. -/
  vnets : List ℕ := []
  /-- The link's weight in its router's `m_weight_table`. -/
  weight : ℤ := 1
  /-- The link's entry in its router's `m_routing_table`: for each virtual network the nodes
  it leads to. -/
  routingTableEntry : List (List ℕ) := []
  /-- `src_outport_dirn`. -/
  outDirn : PortDirection := .loc
  /-- `dst_inport_dirn`. -/
  inDirn : PortDirection := .loc
  deriving DecidableEq, Repr

/-- `mVnets` has the virtual network, or none at all: `isVnetSupported`, `supportsVnet`. -/
def Link.isVnetSupported (vnet : ℕ) (l : Link) : Bool := l.vnets.isEmpty || l.vnets.contains vnet

/-- `VNET_type`. -/
inductive VnetType where
  | ctrl | data
  deriving DecidableEq, Repr

/-- `RoutingAlgorithm`, where any other number stands for `TABLE_`. -/
inductive RoutingAlgorithm where
  | table | xy | custom
  deriving DecidableEq, Repr

inductive Object where
  | network
  | router (r : ℕ)
  | ni (n : ℕ)
  | networkLink (l : ℕ)
  | creditLink (l : ℕ)
  deriving DecidableEq, Repr

/-- The consumers that are woken: routers, interfaces, links, and the output units of routers, which
schedule themselves for leftover credits. -/
inductive ConsumerId where
  | router (r : ℕ)
  | ni (n : ℕ)
  | networkLink (l : ℕ)
  | creditLink (l : ℕ)
  | outputUnit (l : ℕ)
  deriving DecidableEq, Repr

/-- A network without bridges. -/
structure Net where
  links : List Link
  /-- `m_routers.size()`. -/
  numRouters : ℕ
  /-- `m_nodes`: the number of interfaces. -/
  numNodes : ℕ
  /-- `m_virtual_networks`. -/
  virtualNetworks : ℕ
  /-- `m_vc_per_vnet` of each router. -/
  vcPerVnet : ℕ → ℕ
  /-- `m_latency` of each router: its pipeline stages. -/
  routerLatency : ℕ → ℕ
  /-- `m_bit_width` of each router. -/
  routerWidth : ℕ → ℕ
  /-- `m_ordered`. -/
  isVnetOrdered : ℕ → Bool
  vnetType : ℕ → VnetType
  buffersPerDataVc : ℕ
  buffersPerCtrlVc : ℕ
  routingAlgorithm : RoutingAlgorithm
  /-- `m_num_rows`, `-1` if it is not a mesh. -/
  numRows : ℤ
  /-- `m_deadlock_threshold` of each interface. -/
  deadlockThreshold : ℕ → ℕ
  clockPeriod : Object → ℕ
  /-- `getRandomization()`. -/
  randomization : Bool
  /-- `getWarmupEnabled()`. -/
  warmupEnabled : Bool
  /-- The values of `rand()`. -/
  rand : ℕ → ℕ
  /-- The values of `random_time()`. -/
  randomTime : ℕ → ℕ
  /-- `m_num_threads`. -/
  numThreads : ℕ
  /-- `m_parallel_threshold`. -/
  parallelThreshold : ℕ := 16
  /-- The protocol buffers each interface takes messages from, by virtual network. -/
  toNetQueues : ℕ → ℕ → Option MessageBuffer
  /-- Those it puts messages into. -/
  fromNetQueues : ℕ → ℕ → Option MessageBuffer
  /-- A clock has a period. -/
  clockPeriod_pos : ∀ o, 0 < clockPeriod o
  /-- `assert(m_credit_count >= 1)` in the constructor of `OutVcState`. -/
  buffers_pos : ∀ vnet < virtualNetworks, 1 ≤ if vnetType vnet = .data then buffersPerDataVc else buffersPerCtrlVc
  /-- The protocol buffers are new when the network is built. -/
  queues_new : ∀ n vnet b, toNetQueues n vnet = some b ∨ fromNetQueues n vnet = some b → b.IsNew
  /-- `random_time()` is at least `1`. -/
  randomTime_pos : ∀ i, 0 < randomTime i
  /-- The ends of links exist. -/
  link_ends : ∀ l ∈ links, l.src.isIn numRouters numNodes = true ∧ l.dst.isIn numRouters numNodes = true
  /-- The links are those of external and internal links of the topology: each has a router at one
  end at least. -/
  link_router : ∀ l ∈ links, ∀ m n, ¬ (l.src = .ni m ∧ l.dst = .ni n)
  /-- `NetworkInterface::addOutPort`: "Connected Physical links have different vc requests". -/
  ni_vcs : ∀ l ∈ links, ∀ l' ∈ links, ∀ n r r', l.src = .ni n → l'.src = .ni n → l.dst = .router r →
    l'.dst = .router r' → vcPerVnet r = vcPerVnet r'

namespace Net

variable (net : Net)

/-- Link number `l`; numbers that are not in use stand for a link from nowhere. -/
def link (l : ℕ) : Link := net.links.getD l { src := .router 0, dst := .router 0 }

/-- The links that end at a node: its input ports. -/
def inLinks (x : Node) : List ℕ := (range net.links.length).filter fun l => (net.link l).dst = x

/-- The links that start at a node: its output ports. -/
def outLinks (x : Node) : List ℕ := (range net.links.length).filter fun l => (net.link l).src = x

/-- `consumerVcs` of a link: the virtual channels per virtual network that its sender keeps state
for, `m_vc_per_vnet` of an `OutputUnit`. They are those of the router at its end, and for a link to
an interface those of the router at its start. -/
def consumerVcs (l : ℕ) : ℕ :=
  match (net.link l).dst, (net.link l).src with
  | .router r, _ => net.vcPerVnet r
  | .ni _, .router r => net.vcPerVnet r
  | .ni _, .ni _ => 0

/-- `m_vc_per_vnet` of an interface, set when its first output port is added. -/
def niVcPerVnet (n : ℕ) : ℕ := ((net.outLinks (.ni n)).head?.map net.consumerVcs).getD 0

/-- `getOutportForVnet(vnet)` of an interface. -/
def outportForVnet (n vnet : ℕ) : Option ℕ :=
  (net.outLinks (.ni n)).find? fun l => (net.link l).isVnetSupported vnet

/-- The router at the end of a link: `routerID()` of an output port of an interface. -/
def routerId (l : ℕ) : ℕ :=
  match (net.link l).dst with
  | .router r => r
  | .ni _ => 0

/-- `get_router_id(ni, vnet)`. -/
def getRouterId (n vnet : ℕ) : Option ℕ := (net.outportForVnet n vnet).map net.routerId

/-- The buffers of a virtual channel of a virtual network. -/
def buffersPerVc (vnet : ℕ) : ℕ :=
  if net.vnetType vnet = .data then net.buffersPerDataVc else net.buffersPerCtrlVc

/-- The object whose clock a consumer runs on. -/
def object : ConsumerId → Object
  | .router r => .router r
  | .ni n => .ni n
  | .networkLink l => .networkLink l
  | .creditLink l => .creditLink l
  | .outputUnit l =>
    match (net.link l).src with
    | .router r => .router r
    | .ni n => .ni n

def period (c : ConsumerId) : ℕ := net.clockPeriod (net.object c)

lemma period_pos (c : ConsumerId) : 0 < net.period c := net.clockPeriod_pos _

/-- `m_num_cols`. -/
def numCols : ℤ := if 0 < net.numRows then net.numRouters / net.numRows else -1

variable {net}

lemma mem_inLinks {l : ℕ} {x : Node} : l ∈ net.inLinks x ↔ l < net.links.length ∧ (net.link l).dst = x := by
  simp [inLinks]

lemma mem_outLinks {l : ℕ} {x : Node} : l ∈ net.outLinks x ↔ l < net.links.length ∧ (net.link l).src = x := by
  simp [outLinks]

lemma nodup_inLinks (x : Node) : (net.inLinks x).Nodup := nodup_range.filter _

lemma nodup_outLinks (x : Node) : (net.outLinks x).Nodup := nodup_range.filter _

lemma link_mem {l : ℕ} (h : l < net.links.length) : net.link l ∈ net.links := by
  unfold link
  rw [getD_eq_getElem?_getD, getElem?_eq_getElem h]
  exact getElem_mem h

lemma exists_link {x : Link} (h : x ∈ net.links) : ∃ l < net.links.length, net.link l = x := by
  obtain ⟨l, hl, rfl⟩ := getElem_of_mem h
  refine ⟨l, hl, ?_⟩
  unfold link
  rw [getD_eq_getElem?_getD, getElem?_eq_getElem hl]
  rfl

lemma consumerVcs_of_dst {l r : ℕ} (h : (net.link l).dst = .router r) : net.consumerVcs l = net.vcPerVnet r := by
  unfold consumerVcs
  rw [h]

lemma outportForVnet_spec {n vnet l : ℕ} (h : net.outportForVnet n vnet = some l) :
    l ∈ net.outLinks (.ni n) ∧ (net.link l).isVnetSupported vnet = true :=
  ⟨mem_of_find?_eq_some h, by simpa using find?_some h⟩

lemma dst_of_outLinks_ni {l n : ℕ} (h : l ∈ net.outLinks (.ni n)) : ∃ r, (net.link l).dst = .router r := by
  obtain ⟨hlt, hsrc⟩ := mem_outLinks.mp h
  cases hd : (net.link l).dst with
  | router r => exact ⟨r, rfl⟩
  | ni m => exact absurd ⟨hsrc, hd⟩ (net.link_router _ (link_mem hlt) n m)

lemma niVcPerVnet_eq {l n : ℕ} (h : l ∈ net.outLinks (.ni n)) : net.niVcPerVnet n = net.consumerVcs l := by
  unfold niVcPerVnet
  cases hv : net.outLinks (.ni n) with
  | nil => rw [hv] at h; cases h
  | cons l0 v =>
    have h0 : l0 ∈ net.outLinks (.ni n) := by rw [hv]; exact mem_cons_self ..
    obtain ⟨r0, hr0⟩ := dst_of_outLinks_ni h0
    obtain ⟨r, hr⟩ := dst_of_outLinks_ni h
    have h1 := mem_outLinks.mp h0
    have h2 := mem_outLinks.mp h
    rw [head?_cons, Option.map_some, Option.getD_some, consumerVcs_of_dst hr0, consumerVcs_of_dst hr]
    exact net.ni_vcs _ (link_mem h1.1) _ (link_mem h2.1) n r0 r h1.2 h2.2 hr0 hr

end Net

end Gem5.Garnet
