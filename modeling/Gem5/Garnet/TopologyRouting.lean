import Gem5.Garnet.TopologyPaths
import Gem5.Garnet.Routing

/-!
# Routing by shortest paths

The links that `createLinks` makes and their routing tables. A table entry has a node if the link is the first of a
shortest path to it, so from every router from which a node can be reached there is a candidate, and every candidate
leads closer to the node: however candidates are chosen, a packet arrives.
-/

namespace Gem5.Garnet

open Lib Lib.ShortestPath List

namespace Topology

variable {t : Topology} {w : Weights}

/-! ### The links that are made -/

variable {e : LinkEntry} {v j : ℕ}

lemma mem_linkMap (he : e ∈ t.linkMap) : (∃ l ∈ t.extLinks, e.src = l.extNode ∧ e.dest = t.router l.intNode) ∨
      (∃ l ∈ t.extLinks, e.src = t.router l.intNode ∧ e.dest = l.extNode + t.nodes) ∨
      ∃ l ∈ t.intLinks, e.src = t.router l.srcNode ∧ e.dest = t.router l.dstNode ∧ e.srcOutportDirn = l.srcOutport ∧
        e.dstInportDirn = l.dstInport ∧ e.link = l.toBasicLink := by
  rcases mem_append.mp he with he | he
  · grind
  grind

/-- Links start at inputs of nodes or at routers, and end at outputs of nodes or at routers; one end is a router. -/
lemma linkMap_ends (he : e ∈ t.linkMap) :
    (e.src < t.nodes ∧ 2 * t.nodes ≤ e.dest) ∨ (2 * t.nodes ≤ e.src ∧ t.nodes ≤ e.dest) := by
  rcases mem_linkMap he with ⟨l, hl, h1, h2⟩ | ⟨l, hl, h1, h2⟩ | ⟨l, hl, h1, h2, -⟩
  · simp_all [ext_lt, router]
  · simp_all [router]
  · rw [h1, h2, router, router]
    omega

lemma exists_edge_of_isReal (hfill : t.fillWeights = .ok w) {i : ℕ} (h : isReal (w.weights v) i j = true) :
    t.Edge v i j (w.weights v i j) := by
  unfold isReal at h
  grind [weights_of_no_edge, weights_of_edge]

def linksOf (t : Topology) (w : Weights) (dist : List (ℕ → ℕ → ℤ)) (p : ℕ × ℕ) : List Link :=
  if (range t.vnets).any fun v => isReal (w.weights v) p.1 p.2 then
    (t.group p.1 p.2).map fun e => t.makeGarnetLink p.1 p.2 e (t.linkRoute e (t.routingMap w dist p.1 p.2))
  else []

lemma makeLinks_eq (hfill : t.fillWeights = .ok w) (dist : List (ℕ → ℕ → ℤ)) (links : List Link) (p : ℕ × ℕ) :
    t.makeLinks w dist links p = .ok (links ++ t.linksOf w dist p) := by
  unfold makeLinks linksOf
  split_ifs with h
  · obtain ⟨v, -, hv⟩ := any_eq_true.mp h
    obtain ⟨e, he, -⟩ := exists_edge_of_isReal hfill hv
    obtain ⟨hmem, h1, h2⟩ := mem_group.mp he
    have hends : (decide (2 * t.nodes ≤ p.1) || decide (2 * t.nodes ≤ p.2)) = true := by
      rw [Bool.or_eq_true, decide_eq_true_eq, decide_eq_true_eq]
      have := linkMap_ends hmem
      omega
    rw [makeLink, hends]
    rfl
  · rw [append_nil]

/-- `createLinks` makes the links of all pairs of switches, once the distances are known. -/
lemma createLinks_eq (hfill : t.fillWeights = .ok w) {fuel : ℕ} {dist : ℕ → ℕ → ℕ → ℤ}
    (hdist : ∀ v < t.vnets, t.shortestPath fuel w v = .ok (dist v)) :
    t.createLinks fuel = .ok ((pairs t.numSwitches).flatMap (t.linksOf w ((range t.vnets).map dist))) := by
  rw [createLinks, hfill]
  have := mapM_eq_ok (f := t.shortestPath fuel w) (g := dist) (l := range t.vnets) fun v hv =>
    hdist v (mem_range.mp hv)
  change ((range t.vnets).mapM (t.shortestPath fuel w) >>= _) = _
  rw [this]
  exact foldlM_append_eq_ok (makeLinks_eq hfill _) _ []

lemma mem_links {dist : List (ℕ → ℕ → ℤ)} {l : Link} : l ∈ (pairs t.numSwitches).flatMap (t.linksOf w dist) ↔
      ∃ i j, (∃ v < t.vnets, isReal (w.weights v) i j = true) ∧ ∃ e ∈ t.group i j,
        l = t.makeGarnetLink i j e (t.linkRoute e (t.routingMap w dist i j)) := by
  rw [mem_flatMap]
  constructor
  · rintro ⟨⟨i, j⟩, -, hl⟩
    unfold linksOf at hl
    grind
  · rintro ⟨i, j, ⟨v, hv, hreal⟩, e, he, rfl⟩
    obtain ⟨hmem, rfl, rfl⟩ := mem_group.mp he
    refine ⟨(e.src, e.dest), mem_pairs.mpr (lt_numSwitches hmem), ?_⟩
    grind [linksOf]

/-! ### The table entries -/

/-- What `createLinks` knows of the distances when it makes the links. -/
structure Built (t : Topology) (w : Weights) (dist : ℕ → ℕ → ℕ → ℤ) : Prop where
  fill : t.fillWeights = .ok w
  pos : ∀ e ∈ t.linkMap, 0 < e.link.weight
  max : ∀ v < t.vnets, ∀ i j a, t.Edge v i j a → a < 2 ^ 30
  lt : ∀ v < t.vnets, ∀ i j d, IsDist (t.Edge v) i j d → d < infiniteLatency
  distances : ∀ v < t.vnets, Distances (t.Edge v) (dist v)
  zero : ∀ v < t.vnets, ∀ i, (∀ a, ¬ t.Edge v i i a) → dist v i i = 0

/-- The link is the first of a shortest path from `i` to the output of the node. -/
def LeadsTo (t : Topology) (v i j : ℕ) (e : LinkEntry) (d : ℕ) : Prop :=
  v ∈ e.link.supported t.vnets ∧ ∃ x, IsDist (t.Edge v) i (d + t.nodes) x ∧
    IsDist (t.Edge v) j (d + t.nodes) (x - e.link.weight)

lemma not_edge_of_output {d : ℕ} {a : ℤ} (hd : d < t.nodes) : ¬ t.Edge v (d + t.nodes) j a := by
  rintro ⟨e, he, -⟩
  obtain ⟨hmem, h1, -⟩ := mem_group.mp he
  have := linkMap_ends hmem
  omega

lemma linkRoute_getD {entry : List (List ℕ)} (hv : v < t.vnets) :
    (t.linkRoute e entry).getD v [] = if v ∈ e.link.supported t.vnets then entry.getD v [] else [] := by
  unfold linkRoute BasicLink.supported
  grind

lemma routingMap_getD {dist : ℕ → ℕ → ℕ → ℤ} {i : ℕ} (hv : v < t.vnets) :
    (t.routingMap w ((range t.vnets).map dist) i j).getD v [] =
      if isReal (w.weights v) i j then t.shortestPathToNode (w.weights v) (dist v) i j else [] := by
  unfold routingMap
  simp_all

namespace Built

variable {dist : ℕ → ℕ → ℕ → ℤ} (hb : Built t w dist) {v : ℕ} (hv : v < t.vnets)

include hb hv

lemma dist_output {i d : ℕ} {x : ℤ} (hd : d < t.nodes) (h : IsDist (t.Edge v) i (d + t.nodes) x) :
    dist v i (d + t.nodes) = x := by
  by_cases hi : i = d + t.nodes
  · subst hi
    rw [hb.zero v hv _ fun a => not_edge_of_output hd]
    exact (isDist_self (edge_pos hb.pos) _).unique h
  · exact (hb.distances v hv).dist i _ x h hi

/-- The sum that `link_is_shortest_path_to_node` compares does not overflow. -/
lemma linkIsShortestPathToNode_iff {i j d : ℕ} {a : ℤ} (hd : d < t.nodes) (h : t.Edge v i j a) :
    linkIsShortestPathToNode (w.weights v) (dist v) i j (d + t.nodes) = true ↔
      a + dist v j (d + t.nodes) = dist v i (d + t.nodes) := by
  have hpos := edge_pos (v := v) hb.pos
  have hdist : 0 ≤ dist v j (d + t.nodes) ∧ dist v j (d + t.nodes) < 2 ^ 30 := by
    by_cases hj : ∃ b, Walk (t.Edge v) j (d + t.nodes) b
    · obtain ⟨b, hw⟩ := hj
      obtain ⟨y, hy⟩ := hw.exists_isDist hpos
      rw [hb.dist_output hv hd hy]
      exact ⟨hy.walk.nonneg hpos, (hb.lt v hv _ _ y hy).trans (by decide)⟩
    · rw [(hb.distances v hv).apart j (d + t.nodes) fun b hw => hj ⟨b, hw⟩]
      decide
  rw [linkIsShortestPathToNode, weights_of_edge hb.fill h, addInt_eq ⟨(hpos i j a h).le, hb.max v hv i j a h⟩ hdist,
    beq_iff_eq]

lemma mem_entry {i j d : ℕ} {e : LinkEntry} (he : e ∈ t.group i j) :
    d ∈ (t.linkRoute e (t.routingMap w ((range t.vnets).map dist) i j)).getD v [] ↔
      d < t.nodes ∧ t.LeadsTo v i j e d := by
  have hpos := edge_pos (v := v) hb.pos
  rw [linkRoute_getD hv, routingMap_getD hv]
  by_cases hs : v ∈ e.link.supported t.vnets
  · have hedge : t.Edge v i j e.link.weight := ⟨e, he, rfl, hs⟩
    have hw := weights_of_edge hb.fill hedge
    have hwpos := hpos i j _ hedge
    rw [if_pos hs]
    constructor
    · intro hmem
      split_ifs at hmem with hreal
      · obtain ⟨hd, htest⟩ := mem_filter.mp hmem
        replace hd := mem_range.mp hd
        rw [hb.linkIsShortestPathToNode_iff hv hd hedge] at htest
        -- the far end has a path to the node, since `INFINITE_LATENCY` would not satisfy the test
        have hreach : ∃ a, Walk (t.Edge v) j (d + t.nodes) a := by
          by_contra hno
          have hj := (hb.distances v hv).apart j (d + t.nodes) fun a ha => hno ⟨a, ha⟩
          by_cases hi : ∃ a, Walk (t.Edge v) i (d + t.nodes) a
          · obtain ⟨a, ha⟩ := hi
            obtain ⟨x, hx⟩ := ha.exists_isDist hpos
            have h1 := hb.lt v hv _ _ x hx
            grind [dist_output]
          · have h2 := (hb.distances v hv).apart i (d + t.nodes) fun a ha => hi ⟨a, ha⟩
            omega
        obtain ⟨a, ha⟩ := hreach
        obtain ⟨y, hy⟩ := ha.exists_isDist hpos
        obtain ⟨x, hx⟩ := (Walk.cons hedge hy.walk).exists_isDist hpos
        rw [hb.dist_output hv hd hy, hb.dist_output hv hd hx] at htest
        refine ⟨hd, hs, x, hx, ?_⟩
        rwa [show x - e.link.weight = y by omega]
      · cases hmem
    · rintro ⟨hd, -, x, hx, hy⟩
      have h0 := hy.walk.nonneg hpos
      have hlt := hb.lt v hv _ _ x hx
      have hreal : isReal (w.weights v) i j = true := by grind [isReal]
      rw [if_pos hreal]
      refine mem_filter.mpr ⟨mem_range.mpr hd, ?_⟩
      rw [hb.linkIsShortestPathToNode_iff hv hd hedge, hb.dist_output hv hd hx, hb.dist_output hv hd hy]
      omega
  · rw [if_neg hs]
    constructor
    · intro hmem
      cases hmem
    · rintro ⟨-, hs', -⟩
      exact absurd hs' hs

end Built

end Topology

/-! ### The candidates -/

namespace RoutingUnit

variable {net : Net} {ls : List ℕ}

lemma minWeight_spec (ls : List ℕ) (h : ∀ l ∈ ls, (net.link l).weight ≤ infinite) :
    (∀ l ∈ ls, minWeight net ls ≤ (net.link l).weight) ∧ (ls ≠ [] → ∃ l ∈ ls, (net.link l).weight = minWeight net ls) ∧
      minWeight net ls ≤ infinite := by
  induction ls using reverseRecOn with
  | nil => exact ⟨by simp, by simp, le_rfl⟩
  | append_singleton ls l ih =>
    obtain ⟨h1, h2, h3⟩ := ih fun m hm => h m (mem_append_left _ hm)
    have hl := h l (mem_append_right _ (mem_singleton_self l))
    have hstep : minWeight net (ls ++ [l]) =
        if (net.link l).weight ≤ minWeight net ls then (net.link l).weight else minWeight net ls := by
      rw [minWeight, foldl_append]
      rfl
    rw [hstep]
    refine ⟨fun m hm => ?_, fun _ => ?_, by split_ifs <;> omega⟩
    · grind
    · split_ifs with hle
      · exact ⟨l, by simp, rfl⟩
      · by_cases hnil : ls = []
        · subst hnil
          exact absurd hl hle
        simp_all

variable {r vnet : ℕ} {dest : List ℕ}

lemma mem_candidates_iff (h : ∀ l ∈ matching net r vnet dest, (net.link l).weight ≤ infinite) {l : ℕ} :
    l ∈ candidates net r vnet dest ↔ l ∈ matching net r vnet dest ∧
      ∀ m ∈ matching net r vnet dest, (net.link l).weight ≤ (net.link m).weight := by
  obtain ⟨h1, h2, -⟩ := minWeight_spec _ h
  unfold candidates
  rw [mem_filter, decide_eq_true_eq]
  grind [Eq.trans_le, ne_nil_of_mem, le_antisymm]

lemma exists_candidate (h : ∀ l ∈ matching net r vnet dest, (net.link l).weight ≤ infinite)
    (hne : matching net r vnet dest ≠ []) : ∃ l, l ∈ candidates net r vnet dest := by
  obtain ⟨-, h2, -⟩ := minWeight_spec _ h
  obtain ⟨l, hl, hw⟩ := h2 hne
  refine ⟨l, mem_filter.mpr ⟨hl, ?_⟩⟩
  rw [decide_eq_true_eq]
  exact hw

lemma lookupRoutingTable_ok {l : ℕ} (h : l ∈ candidates net r vnet dest) (σ : Sched) :
    ∃ m σ', lookupRoutingTable net r vnet dest σ = .ok (m, σ') := by
  unfold lookupRoutingTable
  generalize candidates net r vnet dest = cs at h ⊢
  cases cs with
  | nil => cases h
  | cons m ms =>
    dsimp only
    split_ifs
    · exact ⟨_, _, rfl⟩
    · exact ⟨_, _, rfl⟩

end RoutingUnit

open RoutingUnit

/-- Wherever the routing tables lead a packet from here, it arrives at the interface: at each router on the way there is
an entry for it, whatever the draws were, and this goes for the end of every candidate. -/
inductive Delivers (net : Net) (vnet d : ℕ) : Node → Prop
  | here : Delivers net vnet d (.ni d)
  | route {r : ℕ} : (∀ σ, ∃ l σ', lookupRoutingTable net r vnet [d] σ = .ok (l, σ')) →
      (∀ l ∈ candidates net r vnet [d], Delivers net vnet d (net.link l).dst) → Delivers net vnet d (.router r)

namespace Topology

variable {t : Topology} {w : Weights} {dist : ℕ → ℕ → ℕ → ℤ} {net : Net}

/-- The switch at which a link to a node ends. -/
def switchOf (t : Topology) : Node → ℕ
  | .router r => t.router r
  | .ni d => d + t.nodes

lemma makeGarnetLink_ends {i j : ℕ} {e : LinkEntry} (he : e ∈ t.group i j) (entry : List (List ℕ)) {r : ℕ} :
    ((t.makeGarnetLink i j e entry).src = .router r ↔ i = t.router r) ∧
      t.switchOf (t.makeGarnetLink i j e entry).dst = j ∧
      ∀ m, (t.makeGarnetLink i j e entry).dst = .ni m → m < t.nodes := by
  obtain ⟨hmem, rfl, rfl⟩ := mem_group.mp he
  have hends := linkMap_ends hmem
  unfold makeGarnetLink
  dsimp only
  split_ifs with h1 h2
  · refine ⟨?_, ?_, fun m h => by cases h⟩
    · simp only [false_iff, router]
      omega
    · simp only [switchOf, router]
      omega
  · refine ⟨?_, ?_, fun m h => ?_⟩
    · simp only [Node.router.injEq, router]
      omega
    · simp only [switchOf]
      omega
    · cases h
      omega
  · refine ⟨?_, ?_, fun m h => by cases h⟩
    · simp only [Node.router.injEq, router]
      omega
    · simp only [switchOf, router]
      omega

lemma makeGarnetLink_weight (i j : ℕ) (e : LinkEntry) (entry : List (List ℕ)) :
    (t.makeGarnetLink i j e entry).weight = e.link.weight ∧
      (t.makeGarnetLink i j e entry).routingTableEntry = entry := by
  unfold makeGarnetLink
  dsimp only
  split_ifs <;> exact ⟨rfl, rfl⟩

/-- A network with the links that `createLinks` makes. -/
structure Makes (t : Topology) (w : Weights) (dist : ℕ → ℕ → ℕ → ℤ) (net : Net) : Prop extends Built t w dist where
  links : net.links = (pairs t.numSwitches).flatMap (t.linksOf w ((range t.vnets).map dist))

/-- The link that is made for an entry of `m_link_map`. -/
def linkFor (t : Topology) (w : Weights) (dist : ℕ → ℕ → ℕ → ℤ) (i j : ℕ) (e : LinkEntry) : Link :=
  t.makeGarnetLink i j e (t.linkRoute e (t.routingMap w ((range t.vnets).map dist) i j))

namespace Makes

variable (hm : Makes t w dist net) {v r d : ℕ} (hv : v < t.vnets)

include hm

variable {l : ℕ}

lemma exists_entry (hl : l ∈ net.outLinks (.router r)) :
    ∃ j, ∃ e ∈ t.group (t.router r) j, net.link l = t.linkFor w dist (t.router r) j e := by
  obtain ⟨hlt, hsrc⟩ := Net.mem_outLinks.mp hl
  have hmem := Net.link_mem hlt
  rw [hm.links] at hmem
  obtain ⟨i, j, -, e, he, heq⟩ := mem_links.mp hmem
  have hi : i = t.router r := (makeGarnetLink_ends he _).1.mp (heq ▸ hsrc)
  subst hi
  exact ⟨j, e, he, heq⟩

/-- The network is one that routing expects, if XY routing is used on meshes only. -/
lemma isTopology (hmesh : net.routingAlgorithm = .xy → IsMesh net) : IsTopology net where
  mesh := hmesh
  table l n v hdst m hentry := by
    by_cases hl : l < net.links.length
    · have hmem := Net.link_mem hl
      rw [hm.links] at hmem
      obtain ⟨i, j, -, e, he, heq⟩ := mem_links.mp hmem
      rw [heq] at hdst hentry
      rw [(makeGarnetLink_weight ..).2] at hentry
      obtain ⟨-, hj, hn⟩ := makeGarnetLink_ends (r := 0) he _
      rw [hdst] at hj
      by_cases hv : v < t.vnets
      · obtain ⟨-, -, x, -, hx⟩ := (hm.mem_entry hv he).mp hentry
        -- no link leads on from the output of a node
        by_contra hne
        obtain ⟨k, b, hedge, -⟩ := hx.first (by rw [← hj, switchOf]; omega)
        exact not_edge_of_output (hn n hdst) (hj ▸ hedge)
      · have hlen : (t.linkRoute e (t.routingMap w ((range t.vnets).map dist) i j)).length = t.vnets := by
          unfold linkRoute
          split_ifs <;> simp [routingMap]
        rw [getD_eq_default _ _ (by omega)] at hentry
        cases hentry
    · rw [Net.link, getD_eq_default _ _ (by omega)] at hdst
      cases hdst

include hv

lemma exists_link {j : ℕ} {e : LinkEntry} (he : e ∈ t.group (t.router r) j) (hlead : t.LeadsTo v (t.router r) j e d) :
    ∃ l ∈ net.outLinks (.router r), net.link l = t.linkFor w dist (t.router r) j e := by
  obtain ⟨hs, x, hx, hy⟩ := hlead
  have hedge : t.Edge v (t.router r) j e.link.weight := ⟨e, he, rfl, hs⟩
  have hw := weights_of_edge hm.fill hedge
  have hpos := edge_pos (v := v) hm.pos
  have h0 := hy.walk.nonneg hpos
  have h1 := hm.lt v hv _ _ x hx
  have h2 := hpos _ _ _ hedge
  have hreal : isReal (w.weights v) (t.router r) j = true := by grind [isReal]
  have hmem : t.linkFor w dist (t.router r) j e ∈ net.links := by
    rw [hm.links]
    exact mem_links.mpr ⟨_, j, ⟨v, hv, hreal⟩, e, he, rfl⟩
  obtain ⟨l, hl, hlink⟩ := Net.exists_link hmem
  refine ⟨l, Net.mem_outLinks.mpr ⟨hl, ?_⟩, hlink⟩
  rw [hlink]
  exact (makeGarnetLink_ends he _).1.mpr rfl

lemma mem_matching : l ∈ matching net r v [d] ↔ l ∈ net.outLinks (.router r) ∧ d < t.nodes ∧
    ∃ j, ∃ e ∈ t.group (t.router r) j, net.link l = t.linkFor w dist (t.router r) j e ∧
      t.LeadsTo v (t.router r) j e d := by
  have hentry : ∀ {j e}, e ∈ t.group (t.router r) j → net.link l = t.linkFor w dist (t.router r) j e →
      (((net.link l).routingTableEntry.getD v []).any (fun n => [d].contains n) = true ↔
        d < t.nodes ∧ t.LeadsTo v (t.router r) j e d) := by
    intro j e he heq
    rw [heq, linkFor, (makeGarnetLink_weight ..).2, ← hm.mem_entry hv he]
    simp
  unfold matching
  grind [exists_entry]

lemma weight_le (hl : l ∈ matching net r v [d]) : (net.link l).weight ≤ infinite := by
  obtain ⟨-, -, j, e, he, heq, -, x, hx, hy⟩ := (hm.mem_matching hv).mp hl
  have h0 := hy.walk.nonneg (edge_pos (v := v) hm.pos)
  have h1 : x < infiniteLatency := hm.lt v hv _ _ x hx
  rw [heq, linkFor, (makeGarnetLink_weight ..).1]
  have h2 : infiniteLatency = infinite := rfl
  omega

variable {a : ℤ} (hd : d < t.nodes) (hwalk : Walk (t.Edge v) (t.router r) (d + t.nodes) a)

include hd hwalk

lemma exists_mem_candidates : ∃ l, l ∈ candidates net r v [d] := by
  refine exists_candidate (fun l hl => hm.weight_le hv hl) ?_
  obtain ⟨x, hx⟩ := hwalk.exists_isDist (edge_pos (v := v) hm.pos)
  have hne : t.router r ≠ d + t.nodes := by unfold router; omega
  obtain ⟨j, b, ⟨e, he, rfl, hs⟩, hj⟩ := hx.first hne
  have hlead : t.LeadsTo v (t.router r) j e d := ⟨hs, x, hx, hj⟩
  obtain ⟨l, hl, heq⟩ := hm.exists_link hv he hlead
  exact ne_nil_of_mem ((hm.mem_matching hv).mpr ⟨hl, hd, j, e, he, heq, hlead⟩)

omit hd hwalk in
lemma closer (hl : l ∈ candidates net r v [d]) : ∃ x b, 0 < b ∧ IsDist (t.Edge v) (t.router r) (d + t.nodes) x ∧
    IsDist (t.Edge v) (t.switchOf (net.link l).dst) (d + t.nodes) (x - b) ∧
    ∀ m, (net.link l).dst = .ni m → m < t.nodes := by
  obtain ⟨-, -, j, e, he, heq, -, x, hx, hy⟩ := (hm.mem_matching hv).mp (mem_of_mem_filter hl)
  obtain ⟨-, hdst, hlt⟩ := makeGarnetLink_ends (r := r) he
    (t.linkRoute e (t.routingMap w ((range t.vnets).map dist) (t.router r) j))
  rw [heq, linkFor, hdst]
  exact ⟨x, e.link.weight, hm.pos e (mem_group.mp he).1, hx, hy, hlt⟩

omit hd hwalk in
lemma delivers (hd : d < t.nodes) {x : ℤ} {n : Node} (hn : ∀ m, n = .ni m → m < t.nodes)
    (hx : IsDist (t.Edge v) (t.switchOf n) (d + t.nodes) x) : Delivers net v d n := by
  have hpos := edge_pos (v := v) hm.pos
  -- on the distance that is left
  generalize hk : x.toNat = k
  induction k using Nat.strong_induction_on generalizing n x with
  | _ k ih =>
    cases n with
    | ni m =>
      by_cases hmd : m = d
      · subst hmd
        exact .here
      · -- a path does not go on from the output of another node
        obtain ⟨j, b, hedge, -⟩ := hx.first (by simp only [switchOf]; omega)
        exact absurd hedge (not_edge_of_output (hn m rfl))
    | router r =>
      obtain ⟨l, hl⟩ := hm.exists_mem_candidates hv hd hx.walk
      refine .route (lookupRoutingTable_ok hl) fun m hmem => ?_
      obtain ⟨y, b, hb, hy, hnext, hlt⟩ := hm.closer hv hmem
      have hxy := hx.unique hy
      have h0 := hnext.walk.nonneg hpos
      exact ih (x - b).toNat (by omega) hlt (hxy ▸ hnext) rfl

end Makes

/-! ### The tables of a topology -/

lemma exists_built (hfill : t.fillWeights = .ok w) (hpos : ∀ e ∈ t.linkMap, 0 < e.link.weight)
    (hmax : ∀ v < t.vnets, ∀ i j a, t.Edge v i j a → a < 2 ^ 30)
    (hlt : ∀ v < t.vnets, ∀ i j d, IsDist (t.Edge v) i j d → d < infiniteLatency) :
    ∃ dist N, Built t w dist ∧ ∀ fuel ≥ N, (∀ v < t.vnets, t.shortestPath fuel w v = .ok (dist v)) ∧
      t.createLinks fuel = .ok ((pairs t.numSwitches).flatMap (t.linksOf w ((range t.vnets).map dist))) := by
  have hall : ∀ v, ∃ dist N, v < t.vnets → (∀ fuel ≥ N, t.shortestPath fuel w v = .ok dist) ∧
      Distances (t.Edge v) dist ∧ ∀ i, (∀ a, ¬ t.Edge v i i a) → dist i i = 0 := by
    intro v
    by_cases hv : v < t.vnets
    · obtain ⟨dist, N, h⟩ := shortestPath_spec hfill hpos (hlt v hv) (hmax v hv)
      exact ⟨dist, N, fun _ => h⟩
    · exact ⟨fun _ _ => 0, 0, fun h => absurd h hv⟩
  choose dist N h using hall
  have hrun : ∀ fuel ≥ (Finset.range t.vnets).sup N, ∀ v < t.vnets, t.shortestPath fuel w v = .ok (dist v) :=
    fun fuel hf v hv => (h v hv).1 fuel ((Finset.le_sup (f := N) (Finset.mem_range.mpr hv)).trans hf)
  exact ⟨dist, (Finset.range t.vnets).sup N, ⟨hfill, hpos, hmax, hlt, fun v hv => (h v hv).2.1, fun v hv => (h v hv).2.2⟩,
    fun fuel hf => ⟨hrun fuel hf, createLinks_eq hfill (hrun fuel hf)⟩⟩

/-- Routing by tables follows shortest paths. -/
theorem routing_shortestPath (hfill : t.fillWeights = .ok w)
    (hpos : ∀ e ∈ t.linkMap, 0 < e.link.weight ∧ e.link.weight < 2 ^ 30)
    (hlt : ∀ v < t.vnets, ∀ i j d, IsDist (t.Edge v) i j d → d < infiniteLatency) :
    ∃ (dist : ℕ → ℕ → ℕ → ℤ) (links : List Link) (N : ℕ),
      (∀ fuel ≥ N, (∀ v < t.vnets, t.shortestPath fuel w v = .ok (dist v)) ∧ t.createLinks fuel = .ok links) ∧
      (∀ v < t.vnets, ∀ i j, (i = j → ∀ a, ¬ t.Edge v i j a) → (∀ d, IsDist (t.Edge v) i j d → dist v i j = d) ∧
        (dist v i j = infiniteLatency ↔ ∀ a, ¬ Walk (t.Edge v) i j a)) ∧
      ∀ net : Net, net.links = links → ∀ v < t.vnets, ∀ d < t.nodes, ∀ r a,
        Walk (t.Edge v) (t.router r) (d + t.nodes) a → (∀ σ, ∃ l σ', lookupRoutingTable net r v [d] σ = .ok (l, σ')) ∧
          (∀ l ∈ candidates net r v [d],
            dist v (t.switchOf (net.link l).dst) (d + t.nodes) < dist v (t.router r) (d + t.nodes)) ∧
          Delivers net v d (.router r) := by
  have hmax : ∀ v < t.vnets, ∀ i j a, t.Edge v i j a → a < 2 ^ 30 := by
    rintro v - i j a ⟨e, he, rfl, -⟩
    exact (hpos e (mem_group.mp he).1).2
  replace hpos : ∀ e ∈ t.linkMap, 0 < e.link.weight := fun e he => (hpos e he).1
  obtain ⟨dist, N, hb, hrun⟩ := exists_built hfill hpos hmax hlt
  refine ⟨dist, _, N, hrun, fun v hv i j hij => ?_, fun net hnet v hv d hd r a hwalk => ?_⟩
  · have hdist : ∀ d, IsDist (t.Edge v) i j d → dist v i j = d := by
      intro d hd
      by_cases h : i = j
      · subst h
        rw [hb.zero v hv i (hij rfl)]
        exact (isDist_self (edge_pos hpos) i).unique hd
      · exact (hb.distances v hv).dist i j d hd h
    refine ⟨hdist, fun htop a ha => ?_, (hb.distances v hv).apart i j⟩
    obtain ⟨d, hd⟩ := ha.exists_isDist (edge_pos hpos)
    have h1 := hdist d hd
    have h2 := hlt v hv i j d hd
    omega
  · have hm : Makes t w dist net := { hb with links := hnet }
    obtain ⟨x, hx⟩ := hwalk.exists_isDist (edge_pos hpos)
    obtain ⟨l, hl⟩ := hm.exists_mem_candidates hv hd hwalk
    refine ⟨lookupRoutingTable_ok hl, fun m hmem => ?_, hm.delivers hv hd (fun m h => by cases h) hx⟩
    obtain ⟨y, b, hb0, hy, hnext, -⟩ := hm.closer hv hmem
    rw [hb.dist_output hv hd hy, hb.dist_output hv hd hnext]
    omega

/-- Distances are bounded where the switches have numbers such that links between different switches lead to larger
ones. -/
lemma lt_of_numbering (φ : ℕ → ℤ) (hφ : ∀ i, 0 ≤ φ i ∧ φ i < infiniteLatency)
    (h : ∀ e ∈ t.linkMap, e.src = e.dest ∨ φ e.src + e.link.weight ≤ φ e.dest) {v i j : ℕ} {d : ℤ}
    (hd : IsDist (t.Edge v) i j d) : d < infiniteLatency := by
  have hwalk : ∀ {i j a}, Walk (t.Edge v) i j a → ∃ b, Walk (t.Edge v) i j b ∧ φ i + b ≤ φ j := by
    intro i j a hw
    induction hw with
    | nil i => exact ⟨0, .nil i, by omega⟩
    | cons he _ ih =>
      obtain ⟨b, hb, hle⟩ := ih
      have hedge := he
      obtain ⟨e, he, rfl, -⟩ := he
      obtain ⟨hmem, rfl, rfl⟩ := mem_group.mp he
      rcases h e hmem with hself | hless
      · rw [hself]
        exact ⟨b, hb, hle⟩
      · exact ⟨e.link.weight + b, .cons hedge hb, by omega⟩
  obtain ⟨b, hb, hle⟩ := hwalk hd.walk
  have h1 := hd.le b hb
  have h2 := hφ i
  have h3 := hφ j
  omega

/-- Two nodes with a router each, and a link from the first to the second. -/
def twoRouters : Topology where
  nodes := 2
  switches := 2
  vnets := 1
  extLinks := [{ extNode := 0, intNode := 0 }, { extNode := 1, intNode := 1 }]
  intLinks := [{ srcNode := 0, dstNode := 1, srcOutport := .east, dstInport := .west }]
  ext_lt := by decide
  int_lt := by decide

lemma exists_fillWeights (h : t.fillWeights.isOk = true) : ∃ w, t.fillWeights = .ok w := by
  cases hw : t.fillWeights with
  | error e => rw [hw] at h; cases h
  | ok w => exact ⟨w, rfl⟩

theorem routing_shortestPath_twoRouters : ∃ links N, (∀ fuel ≥ N, twoRouters.createLinks fuel = .ok links) ∧
    ∀ net : Net, net.links = links → Delivers net 0 1 (.router 0) := by
  obtain ⟨w, hfill⟩ := exists_fillWeights (t := twoRouters) (by decide +kernel)
  obtain ⟨dist, links, N, hrun, -, hnet⟩ := routing_shortestPath hfill (by decide) fun v _ i j d =>
    lt_of_numbering (fun i => if i < 2 then 0 else if i < 4 then 3 else if i = 4 then 1 else 2)
      (fun i => by unfold infiniteLatency; split_ifs <;> omega) (by decide)
  refine ⟨links, N, fun fuel hf => (hrun fuel hf).2, fun net hl => (hnet net hl 0 (by decide) 1 (by decide) 0 2 ?_).2.2⟩
  -- from the router of node `0` over that of node `1`
  have h1 : twoRouters.Edge 0 4 5 1 := ⟨⟨4, 5, {}, .east, .west⟩, by decide, rfl, by decide⟩
  have h2 : twoRouters.Edge 0 5 3 1 := ⟨⟨5, 3, {}, .other 0, .other 0⟩, by decide, rfl, by decide⟩
  exact (Walk.single h1).trans (Walk.single h2)

/-- Two nodes at a router with a link to itself. -/
def selfLink : Topology where
  nodes := 2
  switches := 1
  vnets := 1
  extLinks := [{ extNode := 0, intNode := 0 }, { extNode := 1, intNode := 0 }]
  intLinks := [{ srcNode := 0, dstNode := 0, srcOutport := .east, dstInport := .west }]
  ext_lt := by decide
  int_lt := by decide

/-- The entry of a switch with a link to itself is the weight of this link, not `0`. -/
theorem selfLink_dist : 1 < selfLink.nodes ∧ (∀ e ∈ selfLink.linkMap, 0 < e.link.weight) ∧
    (∀ v < selfLink.vnets, ∀ i j d, IsDist (selfLink.Edge v) i j d → d < infiniteLatency) ∧
    IsDist (selfLink.Edge 0) 4 4 0 ∧
    (selfLink.fillWeights >>= fun w => selfLink.shortestPath 3 w 0).map (fun dist => dist 4 4) = .ok 1 := by
  have hpos : ∀ e ∈ selfLink.linkMap, 0 < e.link.weight := by decide
  refine ⟨by decide, hpos, fun v _ i j d => ?_, isDist_self (edge_pos hpos) 4, by decide +kernel⟩
  exact lt_of_numbering (fun i => if i < 2 then 0 else if i < 4 then 2 else 1)
    (fun i => by unfold infiniteLatency; split_ifs <;> omega) (by decide)

end Topology

end Gem5.Garnet
