import Gem5.Garnet.Net

/-!
# Topologies

How the links of a network and its routing tables are made from a topology (`mem/ruby/network/Topology.cc`, and
`makeExtInLink`, `makeExtOutLink` and `makeInternalLink` of `GarnetNetwork.cc`): all-pairs shortest paths are computed
for each virtual network, by relaxation in place until nothing changes, and the table entry of a link has the
nodes that a shortest path leads to over this link.

The first `m_nodes` switches stand for the inputs of the nodes, the next `m_nodes` for their outputs, the others
are the routers. A matrix is a function, with the virtual network as its first index. `m_link_map` is a list of its
entries in the order in which they were added; its groups are visited in the order of their ends. The loop has a bound
on its passes, since nothing in the source bounds it.
-/

namespace Gem5.Garnet

open Lib

/-- `INFINITE_LATENCY`. -/
def infiniteLatency : ℤ := 10000

/-- A `BasicLink`, with what the links that Garnet makes for it have. -/
structure BasicLink where
  latency : ℕ := 1
  creditLatency : ℕ := 1
  bitWidth : ℕ := 128
  weight : ℤ := 1
  /-- `mVnets`: the virtual networks it carries; all of them if there is none. -/
  vnets : List ℕ := []
  deriving DecidableEq, Repr

/-- The virtual networks that a link carries. -/
def BasicLink.supported (vnets : ℕ) (link : BasicLink) : List ℕ := if link.vnets = [] then List.range vnets else link.vnets

/-- A `BasicExtLink`. -/
structure BasicExtLink extends BasicLink where
  extNode : ℕ
  intNode : ℕ
  deriving DecidableEq, Repr

/-- A `BasicIntLink`. -/
structure BasicIntLink extends BasicLink where
  srcNode : ℕ
  dstNode : ℕ
  srcOutport : PortDirection
  dstInport : PortDirection
  deriving DecidableEq, Repr

/-- A `LinkEntry`, with the switches it is filed under. -/
structure LinkEntry where
  src : ℕ
  dest : ℕ
  link : BasicLink
  srcOutportDirn : PortDirection
  dstInportDirn : PortDirection
  deriving DecidableEq, Repr

/-- The ways the construction can stop. -/
inductive TopologyFault where
  /-- `fatal_if(vnet_done[v], ..)`. -/
  | sameVnets
  /-- `fatal_if(vnet >= m_vnets, ..)`. -/
  | notEnoughVnets
  /-- `assert(intermediate_switch >= 0)`. -/
  | intermediateSwitch
  /-- `assert(src >= 2 * m_nodes || dest >= 2 * m_nodes)`. -/
  | endPoints
  /-- The passes ran out before nothing changed. -/
  | unfinished
  deriving DecidableEq, Repr

/-- What a `Topology` is made from. -/
structure Topology where
  /-- `m_nodes`. -/
  nodes : ℕ
  /-- `m_number_of_switches`. -/
  switches : ℕ
  /-- `m_vnets`. -/
  vnets : ℕ
  extLinks : List BasicExtLink
  intLinks : List BasicIntLink
  /-- The ends of links exist. -/
  ext_lt : ∀ l ∈ extLinks, l.extNode < nodes ∧ l.intNode < switches
  int_lt : ∀ l ∈ intLinks, l.srcNode < switches ∧ l.dstNode < switches

namespace Topology

variable (t : Topology)

def router (r : ℕ) : ℕ := r + 2 * t.nodes

/-- `m_link_map`, as the constructor fills it. -/
def linkMap : List LinkEntry :=
  (t.extLinks.flatMap fun l =>
    [⟨l.extNode, t.router l.intNode, l.toBasicLink, .other 0, .other 0⟩,
      ⟨t.router l.intNode, l.extNode + t.nodes, l.toBasicLink, .other 0, .other 0⟩]) ++
  t.intLinks.map fun l => ⟨t.router l.srcNode, t.router l.dstNode, l.toBasicLink, l.srcOutport, l.dstInport⟩

/-- The links from `src` to `dest`. -/
def group (src dest : ℕ) : List LinkEntry := t.linkMap.filter fun e => e.src = src ∧ e.dest = dest

/-- `num_switches`. -/
def numSwitches : ℕ := t.linkMap.foldl (fun m e => max (max m e.src) e.dest) 0 + 1

/-- The pairs of switches, in the order of the loops. -/
def pairs (n : ℕ) : List (ℕ × ℕ) := (List.range n).flatMap fun i => (List.range n).map fun j => (i, j)

def set {α : Type} (m : ℕ → ℕ → α) (i j : ℕ) (x : α) : ℕ → ℕ → α := fun a b => if a = i ∧ b = j then x else m a b

/-! ### Weights -/

/-- `topology_weights` and `component_latencies`. -/
structure Weights where
  weights : ℕ → ℕ → ℕ → ℤ
  latencies : ℕ → ℕ → ℕ → ℤ

def Weights.init : Weights where
  weights _ i j := if i = j then 0 else infiniteLatency
  latencies _ _ _ := -1

/-- A link is entered for one of its virtual networks; `done` are those that have one. -/
def fillVnet (e : LinkEntry) (x : Weights × List ℕ) (v : ℕ) : Except TopologyFault (Weights × List ℕ) := do
  let (m, done) := x
  ensure (decide (v < t.vnets)) .notEnoughVnets
  ensure (!done.contains v) .sameVnets
  pure (⟨Function.update m.weights v (set (m.weights v) e.src e.dest e.link.weight),
    Function.update m.latencies v (set (m.latencies v) e.src e.dest e.link.latency)⟩, v :: done)

/-- The loop over the links of a group. -/
def fillGroup (m : Weights) (p : ℕ × ℕ) : Except TopologyFault Weights := do
  let (m, _) ← (t.group p.1 p.2).foldlM (fun x e => (e.link.supported t.vnets).foldlM (t.fillVnet e) x) (m, [])
  pure m

/-- The loop over `m_link_map`. -/
def fillWeights : Except TopologyFault Weights := (pairs t.numSwitches).foldlM t.fillGroup Weights.init

/-! ### Shortest paths -/

/-- The matrices of `extend_shortest_path` for a virtual network. -/
structure Paths where
  dist : ℕ → ℕ → ℤ
  latencies : ℕ → ℕ → ℤ
  interSwitches : ℕ → ℕ → ℤ

/-- `a + b` of type `int`. -/
def addInt (a b : ℤ) : ℤ := Int.bmod (a + b) (2 ^ 32)

/-- The loop over `k`: the least sum, the switch that it was found at, and `inter_switches`. -/
def findMinimum (n : ℕ) (m : Paths) (i j : ℕ) : ℤ × Option ℕ × (ℕ → ℕ → ℤ) :=
  (List.range n).foldl (fun x k =>
    let (minimum, via, inter) := x
    let minimum' := min minimum (addInt (m.dist i k) (m.dist k j))
    if minimum ≠ minimum' then
      (minimum', some k, set inter i j (addInt (addInt (inter i k) (inter k j)) 1))
    else (minimum', via, inter))
    (m.dist i j, none, m.interSwitches)

/-- The body of the loops over `i` and `j`. -/
def relax (n : ℕ) (x : Paths × Bool) (p : ℕ × ℕ) : Except TopologyFault (Paths × Bool) :=
  let (m, change) := x
  let (i, j) := p
  let (minimum, via, inter) := findMinimum n m i j
  let m := { m with interSwitches := inter }
  if m.dist i j ≠ minimum then
    match via with
    | none => .error .intermediateSwitch
    | some k =>
      let latency := addInt (m.latencies i k) (m.latencies k j)
      .ok (⟨set m.dist i j minimum, set m.latencies i j latency, inter⟩, true)
  else .ok (m, change)

/-- The body of the `while` loop. -/
def pass (n : ℕ) (m : Paths) : Except TopologyFault (Paths × Bool) := (pairs n).foldlM (relax n) (m, false)

/-- `extend_shortest_path` for a virtual network, with at most `fuel` passes. -/
def extendShortestPath (fuel n : ℕ) (m : Paths) : Except TopologyFault Paths :=
  repeatWhile .unfinished (pass n) fuel m

/-- `shortest_path` for a virtual network: `dist`. -/
def shortestPath (fuel : ℕ) (w : Weights) (vnet : ℕ) : Except TopologyFault (ℕ → ℕ → ℤ) := do
  let m ← extendShortestPath fuel t.numSwitches ⟨w.weights vnet, w.latencies vnet, fun _ _ => 0⟩
  pure m.dist

/-! ### Links -/

/-- `link_is_shortest_path_to_node`. -/
def linkIsShortestPathToNode (weights dist : ℕ → ℕ → ℤ) (src next final : ℕ) : Bool :=
  addInt (weights src next) (dist next final) == dist src final

/-- `shortest_path_to_node`: the nodes that the link leads to. -/
def shortestPathToNode (weights dist : ℕ → ℕ → ℤ) (src next : ℕ) : List ℕ :=
  (List.range t.nodes).filter fun d => linkIsShortestPathToNode weights dist src next (d + t.nodes)

/-- There is a link for a virtual network. -/
def isReal (weights : ℕ → ℕ → ℤ) (i j : ℕ) : Bool := decide (0 < weights i j) && weights i j != infiniteLatency

/-- `routingMap`. -/
def routingMap (w : Weights) (dist : List (ℕ → ℕ → ℤ)) (i j : ℕ) : List (List ℕ) :=
  (List.range t.vnets).map fun v =>
    if isReal (w.weights v) i j then t.shortestPathToNode (w.weights v) (dist.getD v fun _ _ => 0) i j else []

/-- `linkRoute`: the entries of the virtual networks that the link carries. -/
def linkRoute (e : LinkEntry) (entry : List (List ℕ)) : List (List ℕ) :=
  if e.link.vnets = [] then entry
  else (List.range t.vnets).map fun v => if e.link.vnets.contains v then entry.getD v [] else []

/-- `makeExtInLink`, `makeExtOutLink` or `makeInternalLink` for a link between two switches. -/
def makeGarnetLink (src dest : ℕ) (e : LinkEntry) (entry : List (List ℕ)) : Link :=
  let l : Link :=
    { src := .router 0, dst := .router 0, latency := e.link.latency, creditLatency := e.link.creditLatency
      bitWidth := e.link.bitWidth, vnets := e.link.vnets, weight := e.link.weight, routingTableEntry := entry }
  if src < t.nodes then { l with src := .ni src, dst := .router (dest - 2 * t.nodes) }
  else if dest < 2 * t.nodes then { l with src := .router (src - 2 * t.nodes), dst := .ni (dest - t.nodes) }
  else
    { l with
      src := .router (src - 2 * t.nodes)
      dst := .router (dest - 2 * t.nodes)
      outDirn := e.srcOutportDirn
      inDirn := e.dstInportDirn }

/-- `makeLink(net, src, dest, routing_table_entry)`. -/
def makeLink (src dest : ℕ) (entry : List (List ℕ)) : Except TopologyFault (List Link) := do
  ensure (decide (2 * t.nodes ≤ src) || decide (2 * t.nodes ≤ dest)) .endPoints
  pure ((t.group src dest).map fun e => t.makeGarnetLink src dest e (t.linkRoute e entry))

/-- The last loops of `createLinks`, for a pair of switches. -/
def makeLinks (w : Weights) (dist : List (ℕ → ℕ → ℤ)) (links : List Link) (p : ℕ × ℕ) :
    Except TopologyFault (List Link) :=
  if (List.range t.vnets).any fun v => isReal (w.weights v) p.1 p.2 then do
    let ls ← t.makeLink p.1 p.2 (t.routingMap w dist p.1 p.2)
    pure (links ++ ls)
  else .ok links

/-- `createLinks(net)`: the links in the order in which they are made. -/
def createLinks (fuel : ℕ) : Except TopologyFault (List Link) := do
  let w ← t.fillWeights
  let dist ← (List.range t.vnets).mapM (t.shortestPath fuel w)
  (pairs t.numSwitches).foldlM (t.makeLinks w dist) []

end Topology

end Gem5.Garnet
