import Gem5.Garnet.Router

/-!
# What the routing units choose

`Routed` relates a route to the output ports that a routing unit may choose for it. They are ports of
the router; on an ordered virtual network there is only one; and a port that leads to an interface is
chosen for packets to that interface only, if the routing tables and, for XY routing, the directions
of the ports are as a topology makes them.
-/

namespace Gem5.Garnet

open Ruby Lib List

variable {net : Net} {r : ℕ} {route : RouteInfo}

variable (net) in
/-- Some call of `outportCompute` gives this output port. -/
def Routed (r : ℕ) (route : RouteInfo) (inport outport : ℕ) : Prop :=
  ∃ σ σ', RoutingUnit.outportCompute net r route inport σ = .ok (outport, σ')

namespace RoutingUnit

lemma mem_candidates {vnet l : ℕ} {dest : List ℕ} (h : l ∈ candidates net r vnet dest) :
    l ∈ net.outLinks (.router r) ∧ ∃ n ∈ (net.link l).routingTableEntry.getD vnet [], n ∈ dest := by
  have hm := mem_filter.mp (mem_of_mem_filter h)
  refine ⟨hm.1, ?_⟩
  obtain ⟨n, hn, hd⟩ := any_eq_true.mp hm.2
  exact ⟨n, hn, contains_iff_mem.mp hd⟩

lemma lookupRoutingTable_spec {vnet l : ℕ} {dest : List ℕ} {σ σ' : Sched}
    (h : lookupRoutingTable net r vnet dest σ = .ok (l, σ')) :
    l ∈ candidates net r vnet dest ∧ (net.isVnetOrdered vnet = true → (candidates net r vnet dest).head? = some l) := by
  unfold lookupRoutingTable at h
  generalize candidates net r vnet dest = cs at h ⊢
  cases cs with
  | nil => cases h
  | cons m ms =>
    dsimp only at h
    split_ifs at h with ho
    · cases h
      exact ⟨mem_cons_self .., fun _ => rfl⟩
    · cases h
      refine ⟨?_, fun h => absurd h ho⟩
      have hlt : net.rand σ.draws % (m :: ms).length < (m :: ms).length := Nat.mod_lt _ (Nat.succ_pos _)
      rw [getD_eq_getElem?_getD, getElem?_eq_getElem hlt]
      exact getElem_mem hlt

lemma outportOfDirn_mem {dirn : PortDirection} {l : ℕ} (h : outportOfDirn net r dirn = .ok l) :
    l ∈ net.outLinks (.router r) := by
  unfold outportOfDirn at h
  dsimp only at h
  split at h
  · rename_i l hlast
    cases h
    exact mem_of_mem_filter (mem_of_getLast? hlast)
  · rename_i l ls hls
    cases h
    rw [hls]
    exact mem_cons_self ..
  · cases h

/-- XY routing goes along the row first, then along the column, towards the destination's router. -/
lemma outportComputeXY_spec {dirn : PortDirection} {l : ℕ} (h : outportComputeXY net r route dirn = .ok l) :
    0 < net.numRows ∧ 0 < net.numCols ∧
      ((r : ℤ) % net.numCols < (route.destRouter : ℤ) % net.numCols ∧ outportOfDirn net r .east = .ok l ∨
      (route.destRouter : ℤ) % net.numCols < (r : ℤ) % net.numCols ∧ outportOfDirn net r .west = .ok l ∨
      (r : ℤ) / net.numCols < (route.destRouter : ℤ) / net.numCols ∧ outportOfDirn net r .north = .ok l ∨
      (route.destRouter : ℤ) / net.numCols < (r : ℤ) / net.numCols ∧ outportOfDirn net r .south = .ok l) := by
  unfold outportComputeXY at h
  obtain ⟨_, h1, h⟩ := bind_eq_ok.mp h
  obtain ⟨_, h2, h⟩ := bind_eq_ok.mp h
  rw [ensure_eq_ok, Bool.and_eq_true, decide_eq_true_eq, decide_eq_true_eq] at h1
  rw [ensure_eq_ok, Bool.not_eq_true', Bool.and_eq_false_iff, beq_eq_false_iff_ne, beq_eq_false_iff_ne] at h2
  refine ⟨h1.1, h1.2, ?_⟩
  split_ifs at h with hx hle hle
  · obtain ⟨_, -, h⟩ := bind_eq_ok.mp h
    exact Or.inl ⟨by omega, h⟩
  · obtain ⟨_, -, h⟩ := bind_eq_ok.mp h
    exact Or.inr (Or.inl ⟨by omega, h⟩)
  · obtain ⟨_, -, h⟩ := bind_eq_ok.mp h
    exact Or.inr (Or.inr (Or.inl ⟨by omega, h⟩))
  · obtain ⟨_, -, h⟩ := bind_eq_ok.mp h
    exact Or.inr (Or.inr (Or.inr ⟨by omega, h⟩))

end RoutingUnit

namespace Routed

open RoutingUnit

variable {inport outport : ℕ}

lemma cases (h : Routed net r route inport outport) :
    (∃ σ σ', lookupRoutingTable net r route.vnet route.netDest σ = .ok (outport, σ')) ∨
      route.destRouter ≠ r ∧ net.routingAlgorithm = .xy ∧
        outportComputeXY net r route (net.link inport).inDirn = .ok outport := by
  obtain ⟨σ, σ', h⟩ := h
  unfold outportCompute at h
  split_ifs at h with hr
  · exact Or.inl ⟨σ, σ', h⟩
  · cases halg : net.routingAlgorithm with
    | table => rw [halg] at h; exact Or.inl ⟨σ, σ', h⟩
    | custom => rw [halg] at h; cases h
    | xy =>
      rw [halg] at h
      obtain ⟨l, hl, h⟩ := bind_eq_ok.mp h
      cases h
      exact Or.inr ⟨hr, rfl, hl⟩

lemma mem_outLinks (h : Routed net r route inport outport) : outport ∈ net.outLinks (.router r) := by
  rcases h.cases with ⟨σ, σ', h⟩ | ⟨-, -, h⟩
  · exact (mem_candidates (lookupRoutingTable_spec h).1).1
  · obtain ⟨-, -, h⟩ := outportComputeXY_spec h
    rcases h with ⟨-, h⟩ | ⟨-, h⟩ | ⟨-, h⟩ | ⟨-, h⟩ <;> exact outportOfDirn_mem h

end Routed

/-! ### What a topology promises -/

/-- A router has an output port in a direction, and its ports in that direction lead to routers. -/
def LeadsOn (net : Net) (r : ℕ) (dirn : PortDirection) : Prop :=
  (∃ l ∈ net.outLinks (.router r), (net.link l).outDirn = dirn) ∧
    ∀ l ∈ net.outLinks (.router r), (net.link l).outDirn = dirn → ∃ r', (net.link l).dst = .router r'

/-- The routers form a mesh, as `Mesh_XY` makes it: each has a port to each of its neighbours. -/
structure IsMesh (net : Net) : Prop where
  /-- `assert(m_num_rows * m_num_cols == m_routers.size())`. -/
  size : net.numRows * net.numCols = net.numRouters
  east : ∀ r < net.numRouters, (r : ℤ) % net.numCols + 1 < net.numCols → LeadsOn net r .east
  west : ∀ r < net.numRouters, 0 < (r : ℤ) % net.numCols → LeadsOn net r .west
  north : ∀ r < net.numRouters, (r : ℤ) / net.numCols + 1 < net.numRows → LeadsOn net r .north
  south : ∀ r < net.numRouters, 0 < (r : ℤ) / net.numCols → LeadsOn net r .south

/-- What the construction of the network from a topology promises about routing: the table entry of a link to an
interface has that interface only, since there is no way on from there, and XY routing is for meshes. -/
structure IsTopology (net : Net) : Prop where
  table : ∀ l n vnet, (net.link l).dst = .ni n → ∀ m ∈ (net.link l).routingTableEntry.getD vnet [], m = n
  mesh : net.routingAlgorithm = .xy → IsMesh net

lemma LeadsOn.outport {dirn : PortDirection} {l : ℕ} (h : LeadsOn net r dirn)
    (hl : RoutingUnit.outportOfDirn net r dirn = .ok l) : ∃ r', (net.link l).dst = .router r' := by
  obtain ⟨⟨l0, hl0, hd0⟩, hall⟩ := h
  have hmem : l0 ∈ (net.outLinks (.router r)).filter fun l => (net.link l).outDirn = dirn :=
    mem_filter.mpr ⟨hl0, by simpa using hd0⟩
  unfold RoutingUnit.outportOfDirn at hl
  dsimp only at hl
  split at hl
  · rename_i l hlast
    cases hl
    have := mem_filter.mp (mem_of_getLast? hlast)
    exact hall l this.1 (by simpa using this.2)
  · rename_i hnone _
    rw [getLast?_eq_none_iff] at hnone
    rw [hnone] at hmem
    cases hmem
  · cases hl

lemma IsMesh.outport (h : IsMesh net) {dirn : PortDirection} {l : ℕ} (hr : r < net.numRouters)
    (hd : route.destRouter < net.numRouters) (hl : RoutingUnit.outportComputeXY net r route dirn = .ok l) :
    ∃ r', (net.link l).dst = .router r' := by
  obtain ⟨hrows, hcols, hl⟩ := RoutingUnit.outportComputeXY_spec hl
  have hx := Int.emod_lt_of_pos (route.destRouter : ℤ) hcols
  have hx0 := Int.emod_nonneg (route.destRouter : ℤ) hcols.ne'
  have hy0 : 0 ≤ (route.destRouter : ℤ) / net.numCols := Int.ediv_nonneg (Int.natCast_nonneg _) hcols.le
  have hy : (route.destRouter : ℤ) / net.numCols < net.numRows := by
    refine Int.ediv_lt_of_lt_mul hcols ?_
    rw [h.size]
    exact_mod_cast hd
  rcases hl with ⟨hlt, hl⟩ | ⟨hlt, hl⟩ | ⟨hlt, hl⟩ | ⟨hlt, hl⟩
  · exact (h.east r hr (by omega)).outport hl
  · exact (h.west r hr (by omega)).outport hl
  · exact (h.north r hr (by omega)).outport hl
  · exact (h.south r hr (by omega)).outport hl

lemma Routed.exit (h : IsTopology net) {inport outport n : ℕ} (hr : r < net.numRouters)
    (hd : route.destRouter < net.numRouters) (hl : Routed net r route inport outport)
    (hn : (net.link outport).dst = .ni n) : n ∈ route.netDest := by
  rcases hl.cases with ⟨σ, σ', hl⟩ | ⟨-, hxy, hl⟩
  · obtain ⟨-, m, hm, hdest⟩ := RoutingUnit.mem_candidates (RoutingUnit.lookupRoutingTable_spec hl).1
    rwa [h.table outport n route.vnet hn m hm] at hdest
  · obtain ⟨r', hr'⟩ := (h.mesh hxy).outport hr hd hl
    rw [hr'] at hn
    cases hn

end Gem5.Garnet
