import Gem5.Garnet.MeshXY

/-!
# XY routing

On a mesh, `outportComputeXY` leads a packet along its row to the column of its destination and then along this column:
on a shortest way, through ports that exist, and past all assertions about the direction it came from. A packet that
holds a link requests only links of larger number in an order of all links, so that packets cannot wait for each other in
a circle.
-/

namespace Gem5.Garnet

open Lib RoutingUnit

/-- The network has the routers of a mesh, connected as `Mesh_XY` does. -/
structure IsMeshXY (net : Net) (o : MeshXY) : Prop where
  checked : o.Checked
  numRows : net.numRows = o.meshRows
  numRouters : net.numRouters = o.numCpus
  /-- A link between routers is one of `int_links`. -/
  inner : ∀ l < net.links.length, ∀ r r', (net.link l).src = .router r → (net.link l).dst = .router r' →
    ∃ e ∈ o.intLinks, e.srcNode = r ∧ e.dstNode = r' ∧ (net.link l).outDirn = e.srcOutport ∧
      (net.link l).inDirn = e.dstInport
  /-- Each of `int_links` is there. -/
  ports : ∀ e ∈ o.intLinks, ∃ l < net.links.length, (net.link l).src = .router e.srcNode ∧
    (net.link l).outDirn = e.srcOutport
  /-- The ports of interfaces are those called `"Local"`. -/
  ext : ∀ l < net.links.length, ∀ n, (net.link l).src = .ni n ∨ (net.link l).dst = .ni n →
    (net.link l).outDirn = .loc ∧ (net.link l).inDirn = .loc

/-! ### The way of a packet -/

namespace MeshXY

variable (o : MeshXY)

/-- `|dx|`. -/
def dx (r s : ℕ) : ℕ := ((s % o.numColumns : ℕ) - (r % o.numColumns : ℕ) : ℤ).natAbs

/-- `|dy|`. -/
def dy (r s : ℕ) : ℕ := ((s / o.numColumns : ℕ) - (r / o.numColumns : ℕ) : ℤ).natAbs

/-- The direction of XY routing: first along the row, then along the column. -/
def dirnTo (r s : ℕ) : PortDirection :=
  if r % o.numColumns < s % o.numColumns then .east
  else if s % o.numColumns < r % o.numColumns then .west
  else if r / o.numColumns < s / o.numColumns then .north
  else .south

/-- The directions from which packets that go on in a direction may come. -/
def mayTurn (inDirn : PortDirection) : PortDirection → Bool
  | .east => inDirn == .loc || inDirn == .west
  | .west => inDirn == .loc || inDirn == .east
  | .north => inDirn != .north
  | .south => inDirn != .south
  | _ => false

variable {o}

lemma router_ext {r s : ℕ} (hx : r % o.numColumns = s % o.numColumns) (hy : r / o.numColumns = s / o.numColumns) :
    r = s := by
  rw [eq_coords o.numColumns r, eq_coords o.numColumns s, hx, hy]

lemma Checked.exists_step (h : o.Checked) {r s : ℕ} (hr : r < o.numCpus) (hs : s < o.numCpus) (hne : r ≠ s) :
    ∃ r', o.Step (o.dirnTo r s) r r' := by
  have x1 := h.col_lt r
  have x2 := h.col_lt s
  have y1 := h.row_lt hr
  have y2 := h.row_lt hs
  have hlt : ∀ {x y}, x < o.numColumns → y < o.meshRows → x + y * o.numColumns < o.numCpus := by
    intro x y hx hy
    rw [← h.size]
    exact coords_lt hx hy
  unfold dirnTo
  split_ifs with h1 h2 h3
  · have hc := coords (r / o.numColumns) (show r % o.numColumns + 1 < o.numColumns by omega)
    exact ⟨_, hr, hlt (by omega) y1, hc⟩
  · have hc := coords (r / o.numColumns) (show r % o.numColumns - 1 < o.numColumns by omega)
    exact ⟨_, hr, hlt (by omega) y1, by rw [hc.1]; omega, hc.2⟩
  · have hc := coords (r / o.numColumns + 1) x1
    exact ⟨_, hr, hlt x1 (by omega), hc⟩
  · have hy : r / o.numColumns ≠ s / o.numColumns := fun hy => hne (router_ext (by omega) hy)
    have h0 := Nat.zero_le (s / o.numColumns)
    have hc := coords (r / o.numColumns - 1) x1
    exact ⟨_, hr, hlt x1 (by omega), hc.1, by rw [hc.2]; omega⟩

/-- A step in the direction of XY routing leads closer, and the packet may turn where it goes on from there. -/
lemma step_closer {r r' s : ℕ} (hne : r ≠ s) (hstep : o.Step (o.dirnTo r s) r r') :
    o.dx r' s + o.dy r' s + 1 = o.dx r s + o.dy r s ∧
      (r' ≠ s → mayTurn (opposite (o.dirnTo r s)) (o.dirnTo r' s) = true) := by
  have hy : r % o.numColumns = s % o.numColumns → r / o.numColumns ≠ s / o.numColumns :=
    fun hx hy => hne (router_ext hx hy)
  have hy' : r' ≠ s → r' % o.numColumns = s % o.numColumns → r' / o.numColumns ≠ s / o.numColumns :=
    fun hne hx hy => hne (router_ext hx hy)
  obtain ⟨-, -, hstep⟩ := hstep
  -- which way it goes, and which way it goes from there
  unfold dx dy
  unfold dirnTo at hstep ⊢
  split_ifs at hstep with h1 h2 h3 <;> dsimp only at hstep
  · rw [if_pos h1]
    refine ⟨by omega, fun _ => ?_⟩
    split_ifs <;> first | rfl | omega
  · rw [if_neg h1, if_pos h2]
    refine ⟨by omega, fun _ => ?_⟩
    split_ifs <;> first | rfl | omega
  · rw [if_neg h1, if_neg h2, if_pos h3]
    refine ⟨by omega, fun hne => ?_⟩
    have := hy' hne
    split_ifs <;> first | rfl | omega
  · rw [if_neg h1, if_neg h2, if_neg h3]
    refine ⟨by omega, fun hne => ?_⟩
    have := hy' hne
    split_ifs <;> first | rfl | omega

end MeshXY

/-! ### Ports -/

lemma RoutingUnit.outportOfDirn_eq {net : Net} {r : ℕ} {dirn : PortDirection}
    (h : ∃ l ∈ net.outLinks (.router r), (net.link l).outDirn = dirn) :
    ∃ l ∈ net.outLinks (.router r), (net.link l).outDirn = dirn ∧ outportOfDirn net r dirn = .ok l := by
  obtain ⟨l0, hl0, hd0⟩ := h
  have hmem : l0 ∈ (net.outLinks (.router r)).filter fun l => (net.link l).outDirn = dirn :=
    List.mem_filter.mpr ⟨hl0, by simpa using hd0⟩
  obtain ⟨l, hl⟩ : ∃ l, ((net.outLinks (.router r)).filter fun l => (net.link l).outDirn = dirn).getLast? = some l :=
    ⟨_, List.getLast?_eq_some_getLast (List.ne_nil_of_mem hmem)⟩
  have hin := List.mem_filter.mp (List.mem_of_getLast? hl)
  refine ⟨l, hin.1, by simpa using hin.2, ?_⟩
  unfold outportOfDirn
  dsimp only
  rw [hl]

namespace IsMeshXY

open MeshXY

variable {net : Net} {o : MeshXY} (h : IsMeshXY net o) {route : RouteInfo} {r : ℕ} {dirn : PortDirection}

include h

lemma numCols_eq : net.numCols = o.numColumns := by
  have := h.checked.rows
  rw [Net.numCols, h.numRows, h.numRouters, if_pos (by omega), numColumns, Int.natCast_ediv]

lemma step {l r r' : ℕ} (hl : l < net.links.length) (hsrc : (net.link l).src = .router r)
    (hdst : (net.link l).dst = .router r') :
    o.Step (net.link l).outDirn r r' ∧ (net.link l).inDirn = opposite (net.link l).outDirn := by
  obtain ⟨e, he, h1, h2, h3, h4⟩ := h.inner l hl r r' hsrc hdst
  obtain ⟨dirn, s, s', hstep, rfl⟩ := h.checked.mem_intLinks.mp he
  cases h1
  cases h2
  rw [h3, h4]
  exact ⟨hstep, rfl⟩

/-- `outportComputeXY` gives the port in the direction of the destination, if the packet may turn there. -/
lemma outportComputeXY_eq (hne : r ≠ route.destRouter) : outportComputeXY net r route dirn =
    if mayTurn dirn (o.dirnTo r route.destRouter) then outportOfDirn net r (o.dirnTo r route.destRouter)
    else .error .xyRouting := by
  have hx : ∀ r : ℕ, (r : ℤ) % net.numCols = (r % o.numColumns : ℕ) := fun r => by rw [h.numCols_eq]; rfl
  have hy : ∀ r : ℕ, (r : ℤ) / net.numCols = (r / o.numColumns : ℕ) := fun r => by rw [h.numCols_eq]; rfl
  have h1 : (decide (0 < net.numRows) && decide (0 < net.numCols)) = true := by
    have := h.checked.rows
    have := h.checked.columns
    grind [numRows, numCols_eq]
  have h2 : (!(((route.destRouter % o.numColumns : ℕ) : ℤ) == (r % o.numColumns : ℕ) &&
      ((route.destRouter / o.numColumns : ℕ) : ℤ) == (r / o.numColumns : ℕ))) = true := by
    rw [Bool.not_eq_true', Bool.and_eq_false_iff, beq_eq_false_iff_ne, beq_eq_false_iff_ne, ne_eq, ne_eq,
      Int.natCast_inj, Int.natCast_inj, ← not_and_or]
    exact fun heq => hne (router_ext heq.1.symm heq.2.symm)
  unfold outportComputeXY
  simp only [hx, hy, ensure_bind, if_pos h1, if_pos h2, ne_eq, Int.natCast_inj, Nat.cast_le]
  have hcol : r % o.numColumns = route.destRouter % o.numColumns →
      r / o.numColumns ≠ route.destRouter / o.numColumns := fun hx hy => hne (router_ext hx hy)
  unfold dirnTo
  by_cases e1 : r % o.numColumns < route.destRouter % o.numColumns
  · rw [if_pos e1, if_pos (by omega), if_pos e1.le]
    rfl
  · by_cases e2 : route.destRouter % o.numColumns < r % o.numColumns
    · rw [if_neg e1, if_pos e2, if_pos (by omega), if_neg (by omega)]
      rfl
    · have heq : r % o.numColumns = route.destRouter % o.numColumns := by omega
      have := hcol heq
      rw [if_neg e1, if_neg e2, if_neg (by omega)]
      by_cases e3 : r / o.numColumns < route.destRouter / o.numColumns
      · rw [if_pos e3, if_pos e3.le]
        rfl
      · rw [if_neg e3, if_neg (by omega)]
        rfl

lemma exists_port {s : ℕ} (hr : r < o.numCpus) (hs : s < o.numCpus) (hne : r ≠ s) :
    ∃ l ∈ net.outLinks (.router r), (net.link l).outDirn = o.dirnTo r s ∧
      outportOfDirn net r (o.dirnTo r s) = .ok l := by
  obtain ⟨r', hstep⟩ := h.checked.exists_step hr hs hne
  obtain ⟨l, hl, hsrc, hout⟩ := h.ports _ (h.checked.mem_intLinks.mpr ⟨_, _, _, hstep, rfl⟩)
  exact outportOfDirn_eq ⟨l, Net.mem_outLinks.mpr ⟨hl, hsrc⟩, hout⟩

lemma port_step {l s : ℕ} (hl : l ∈ net.outLinks (.router r)) (hout : (net.link l).outDirn = o.dirnTo r s) :
    ∃ r', (net.link l).dst = .router r' ∧ o.Step (o.dirnTo r s) r r' ∧
      (net.link l).inDirn = opposite (o.dirnTo r s) := by
  obtain ⟨hlt, hsrc⟩ := Net.mem_outLinks.mp hl
  cases hdst : (net.link l).dst with
  | ni n =>
    have hloc := (h.ext l hlt n (Or.inr hdst)).1
    rw [hout] at hloc
    unfold dirnTo at hloc
    split_ifs at hloc
  | router r' => grind [step]

end IsMeshXY

/-! ### Links of `Mesh_XY` -/

namespace Topology

variable {t : Topology} {w : Weights}

lemma createLinks_inv {fuel : ℕ} {links : List Link} (h : t.createLinks fuel = .ok links) :
    ∃ w dist, t.fillWeights = .ok w ∧ links = (pairs t.numSwitches).flatMap (t.linksOf w dist) := by
  unfold createLinks at h
  obtain ⟨w, hfill, h⟩ := bind_eq_ok.mp h
  obtain ⟨dist, -, h⟩ := bind_eq_ok.mp h
  rw [foldlM_append_eq_ok (makeLinks_eq hfill dist)] at h
  exact ⟨w, dist, hfill, (Except.ok.inj h).symm⟩

/-- A link to or from an interface has the directions of a local port, one between routers those of its entry. -/
lemma makeGarnetLink_dirn {i j : ℕ} {e : LinkEntry} (he : e ∈ t.group i j) (entry : List (List ℕ)) :
    let l := t.makeGarnetLink i j e entry
    (∀ n, l.src = .ni n ∨ l.dst = .ni n → l.outDirn = .loc ∧ l.inDirn = .loc) ∧
      ∀ r r', l.src = .router r → l.dst = .router r' →
        i = t.router r ∧ j = t.router r' ∧ l.outDirn = e.srcOutportDirn ∧ l.inDirn = e.dstInportDirn := by
  obtain ⟨hmem, rfl, rfl⟩ := mem_group.mp he
  have hends := linkMap_ends hmem
  unfold makeGarnetLink
  dsimp only
  split_ifs with h1 h2
  · exact ⟨fun _ _ => ⟨rfl, rfl⟩, fun r r' h => by cases h⟩
  · exact ⟨fun _ _ => ⟨rfl, rfl⟩, fun r r' _ h => by cases h⟩
  · refine ⟨fun n h => ?_, fun r r' h h' => ?_⟩
    · rcases h with h | h <;> cases h
    · cases h
      cases h'
      refine ⟨?_, ?_, rfl, rfl⟩ <;> unfold router <;> omega

lemma makeGarnetLink_router (r r' : ℕ) (e : LinkEntry) (entry : List (List ℕ)) :
    t.makeGarnetLink (t.router r) (t.router r') e entry =
      { src := .router r, dst := .router r', latency := e.link.latency, creditLatency := e.link.creditLatency
        bitWidth := e.link.bitWidth, vnets := e.link.vnets, weight := e.link.weight, routingTableEntry := entry
        outDirn := e.srcOutportDirn, inDirn := e.dstInportDirn } := by
  unfold makeGarnetLink router
  rw [if_neg (by omega), if_neg (by omega)]
  simp

end Topology

/-- A network whose links are made from those of `Mesh_XY` is connected like this. -/
lemma isMeshXY_of_createLinks {net : Net} {o : MeshXY} {t : Topology} {fuel : ℕ} (ho : o.Checked)
    (hint : t.intLinks = o.intLinks) (hv : 0 < t.vnets) (hlinks : t.createLinks fuel = .ok net.links)
    (hrows : net.numRows = o.meshRows) (hrouters : net.numRouters = o.numCpus) : IsMeshXY net o := by
  obtain ⟨w, dist, hfill, heq⟩ := Topology.createLinks_inv hlinks
  have hlink : ∀ l < net.links.length, ∃ i j, ∃ e ∈ t.group i j,
      net.link l = t.makeGarnetLink i j e (t.linkRoute e (t.routingMap w dist i j)) := by
    intro l hl
    have hmem := Net.link_mem hl
    grind [Topology.mem_links]
  refine ⟨ho, hrows, hrouters, fun l hl r r' hsrc hdst => ?_, fun e he => ?_, fun l hl n hn => ?_⟩
  · obtain ⟨i, j, e, he, hle⟩ := hlink l hl
    rw [hle] at hsrc hdst ⊢
    obtain ⟨rfl, rfl, h3, h4⟩ := (Topology.makeGarnetLink_dirn he _).2 r r' hsrc hdst
    obtain ⟨hmem, h1, h2⟩ := Topology.mem_group.mp he
    rcases Topology.mem_linkMap hmem with ⟨l, hl, h5, -⟩ | ⟨l, hl, -, h5⟩ | ⟨l, hl, h5, h6, h7, h8, -⟩
    · have := t.ext_lt l hl
      unfold Topology.router at h1
      omega
    · have := t.ext_lt l hl
      unfold Topology.router at h2
      omega
    · unfold Topology.router at h1 h2 h5 h6
      exact ⟨l, hint ▸ hl, by omega, by omega, h3.trans h7, h4.trans h8⟩
  · -- the link has a weight other than `INFINITE_LATENCY`, so it is made
    let entry : LinkEntry := ⟨t.router e.srcNode, t.router e.dstNode, e.toBasicLink, e.srcOutport, e.dstInport⟩
    have hmem : entry ∈ t.group (t.router e.srcNode) (t.router e.dstNode) := by
      refine Topology.mem_group.mpr ⟨List.mem_append_right _ (List.mem_map.mpr ⟨e, ?_, rfl⟩), rfl, rfl⟩
      rw [hint]
      exact he
    obtain ⟨dirn, r, r', hstep, rfl⟩ := ho.mem_intLinks.mp he
    have hedge : t.Edge 0 (t.router r) (t.router r') (MeshXY.weightOf dirn) :=
      ⟨entry, hmem, rfl, List.mem_range.mpr hv⟩
    have hreal : Topology.isReal (w.weights 0) (t.router r) (t.router r') = true := by
      rw [Topology.isReal, Topology.weights_of_edge hfill hedge]
      cases dirn <;> rfl
    have hin : t.makeGarnetLink (t.router r) (t.router r') entry
        (t.linkRoute entry (t.routingMap w dist (t.router r) (t.router r'))) ∈ net.links := by
      rw [heq]
      exact Topology.mem_links.mpr ⟨_, _, ⟨0, hv, hreal⟩, entry, hmem, rfl⟩
    obtain ⟨l, hl, hle⟩ := Net.exists_link hin
    rw [Topology.makeGarnetLink_router] at hle
    exact ⟨l, hl, by rw [hle]; rfl, by rw [hle]⟩
  · obtain ⟨i, j, e, he, hle⟩ := hlink l hl
    rw [hle] at hn ⊢
    exact (Topology.makeGarnetLink_dirn he _).1 n hn

/-! ### The way of a packet -/

/-- The links that `outportComputeXY` chooses one after the other for a packet at a router, until it is at its
destination; at most `fuel` of them. -/
def iterateXY (net : Net) (route : RouteInfo) : ℕ → ℕ → PortDirection → Except Fault (List ℕ)
  | fuel, r, dirn =>
    if r = route.destRouter then .ok []
    else
      match fuel with
      | 0 => .error .noRoute
      | fuel + 1 => do
        let l ← outportComputeXY net r route dirn
        match (net.link l).dst with
        | .router r' => do
          let ls ← iterateXY net route fuel r' (net.link l).inDirn
          pure (l :: ls)
        | .ni _ => .error .noRoute

namespace IsMeshXY

open MeshXY

variable {net : Net} {o : MeshXY} (h : IsMeshXY net o) {route : RouteInfo}

include h

/-- From a router where the packet may turn, it goes `|dx| + |dy|` links to its destination. -/
lemma iterateXY_eq (hs : route.destRouter < o.numCpus) (n : ℕ) : ∀ (r : ℕ) (dirn : PortDirection), r < o.numCpus →
      (r ≠ route.destRouter → mayTurn dirn (o.dirnTo r route.destRouter) = true) →
      o.dx r route.destRouter + o.dy r route.destRouter = n →
      ∃ ls, (∀ fuel ≥ n, iterateXY net route fuel r dirn = .ok ls) ∧ ls.length = n ∧
        ∀ l ∈ ls, ∃ s, l ∈ net.outLinks (.router s) ∧ (net.link l).outDirn = o.dirnTo s route.destRouter := by
  induction n with
  | zero =>
    intro r dirn _ _ hn
    have hr : r = route.destRouter := by
      unfold dx dy at hn
      exact router_ext (o := o) (by omega) (by omega)
    refine ⟨[], fun fuel _ => ?_, rfl, by simp⟩
    unfold iterateXY
    rw [if_pos hr]
  | succ n ih =>
    intro r dirn hr hturn hn
    have hne : r ≠ route.destRouter := by
      rintro rfl
      unfold dx dy at hn
      omega
    obtain ⟨l, hl, hout, hport⟩ := h.exists_port hr hs hne
    obtain ⟨r', hdst, hstep, hin⟩ := h.port_step hl hout
    obtain ⟨hless, hturn'⟩ := step_closer hne hstep
    obtain ⟨ls, hrun, hlen, hall⟩ := ih r' (net.link l).inDirn hstep.2.1 (fun hne' => hin ▸ hturn' hne') (by omega)
    have hxy : outportComputeXY net r route dirn = .ok l := by
      rw [h.outportComputeXY_eq hne, if_pos (hturn hne), hport]
    refine ⟨l :: ls, fun fuel hf => ?_, by rw [List.length_cons, hlen], fun m hm => ?_⟩
    · obtain ⟨fuel, rfl⟩ : ∃ k, fuel = k + 1 := ⟨fuel - 1, by omega⟩
      unfold iterateXY
      rw [if_neg hne]
      dsimp only
      rw [hxy]
      change (match (net.link l).dst with
        | .router r' => (do
          let ls ← iterateXY net route fuel r' (net.link l).inDirn
          pure (l :: ls) : Except Fault (List ℕ))
        | .ni _ => .error .noRoute) = _
      rw [hdst]
      dsimp only
      rw [hrun fuel (by omega)]
      rfl
    grind

end IsMeshXY

/-! ### Channel dependencies -/

/-- A packet that came over one link requests another: the one that XY routing chooses, or at its destination one to an
interface. -/
def Requests (net : Net) (route : RouteInfo) (a b : ℕ) : Prop :=
  ∃ r, (net.link a).dst = .router r ∧
    if route.destRouter = r then b ∈ net.outLinks (.router r) ∧ ∃ n, (net.link b).dst = .ni n
    else outportComputeXY net r route (net.link a).inDirn = .ok b

/-- The links that a packet may come to hold: that by which an interface sends it, and those it requests from there
on. -/
inductive Holds (net : Net) (route : RouteInfo) : ℕ → Prop
  | sent {l n : ℕ} : l ∈ net.outLinks (.ni n) → Holds net route l
  | next {a b : ℕ} : Holds net route a → Requests net route a b → Holds net route b

/-- Some packet may hold the one link and request the other. -/
def Feeds (net : Net) (a b : ℕ) : Prop :=
  ∃ route : RouteInfo, route.destRouter < net.numRouters ∧ Holds net route a ∧ Requests net route a b

/-- The number of a link: those from interfaces first, then those along rows, then those along columns, each in the
direction in which packets go, and those to interfaces last. -/
def channelRank (net : Net) (o : MeshXY) (l : ℕ) : ℕ :=
  match (net.link l).src, (net.link l).dst with
  | .ni _, _ => 0
  | .router _, .ni _ => 1 + o.numColumns + o.meshRows
  | .router r, .router _ =>
    match (net.link l).outDirn with
    | .east => 1 + r % o.numColumns
    | .west => o.numColumns - r % o.numColumns
    | .north => 1 + o.numColumns + r / o.numColumns
    | .south => o.numColumns + (o.meshRows - r / o.numColumns)
    | _ => 0

lemma Requests.mem_outLinks {net : Net} {route : RouteInfo} {a b : ℕ} (h : Requests net route a b) :
    ∃ r, b ∈ net.outLinks (.router r) := by
  obtain ⟨r, -, hreq⟩ := h
  refine ⟨r, ?_⟩
  split_ifs at hreq
  · exact hreq.1
  · obtain ⟨-, -, hport⟩ := outportComputeXY_spec hreq
    rcases hport with ⟨-, hport⟩ | ⟨-, hport⟩ | ⟨-, hport⟩ | ⟨-, hport⟩ <;> exact outportOfDirn_mem hport

lemma Holds.lt {net : Net} {route : RouteInfo} {a : ℕ} (h : Holds net route a) : a < net.links.length := by
  cases h with
  | sent h => exact (Net.mem_outLinks.mp h).1
  | next _ h =>
    obtain ⟨r, h⟩ := h.mem_outLinks
    exact (Net.mem_outLinks.mp h).1

namespace IsMeshXY

open MeshXY

variable {net : Net} {o : MeshXY} (h : IsMeshXY net o)

include h

lemma rank_lt_of_mayTurn {a b r r' r'' : ℕ} (ha : a < net.links.length) (hb : b < net.links.length)
    (hsrc : (net.link a).src = .router r) (hdst : (net.link a).dst = .router r') (hsrc' : (net.link b).src = .router r')
    (hdst' : (net.link b).dst = .router r'') (hturn : mayTurn (net.link a).inDirn (net.link b).outDirn = true) :
    channelRank net o a < channelRank net o b := by
  obtain ⟨⟨hr, hr', h1⟩, hin⟩ := h.step ha hsrc hdst
  obtain ⟨⟨-, -, h2⟩, -⟩ := h.step hb hsrc' hdst'
  have x1 := h.checked.col_lt r
  have x2 := h.checked.col_lt r'
  have y1 := h.checked.row_lt hr
  have y2 := h.checked.row_lt hr'
  rw [hin] at hturn
  unfold channelRank
  rw [hsrc, hdst, hsrc', hdst']
  dsimp only
  generalize r % o.numColumns = x, r / o.numColumns = y, r' % o.numColumns = x', r' / o.numColumns = y',
    r'' % o.numColumns = x'', r'' / o.numColumns = y'' at *
  cases hd : (net.link a).outDirn <;> cases hd' : (net.link b).outDirn <;> rw [hd] at h1 hturn <;> rw [hd'] at h2 hturn <;>
    dsimp only at h1 h2 ⊢ <;> first | exact absurd hturn Bool.false_ne_true | omega

lemma rank_le {a r : ℕ} (ha : a < net.links.length) (hdst : (net.link a).dst = .router r) :
    channelRank net o a ≤ o.numColumns + o.meshRows := by
  unfold channelRank
  cases hsrc : (net.link a).src with
  | ni n => exact Nat.zero_le _
  | router r' =>
    obtain ⟨⟨hr, -, h1⟩, -⟩ := h.step ha hsrc hdst
    have x1 := h.checked.col_lt r'
    have y1 := h.checked.row_lt hr
    grind

lemma rank_pos {b r r' : ℕ} (hb : b < net.links.length) (hsrc : (net.link b).src = .router r)
    (hdst : (net.link b).dst = .router r') : 0 < channelRank net o b := by
  obtain ⟨⟨hr, -, h1⟩, -⟩ := h.step hb hsrc hdst
  have x1 := h.checked.col_lt r
  have y1 := h.checked.row_lt hr
  unfold channelRank
  grind

lemma rank_lt {a b : ℕ} (hab : Feeds net a b) : channelRank net o a < channelRank net o b := by
  obtain ⟨route, hs, ha, r, hdst, hreq⟩ := hab
  have hlt := ha.lt
  split_ifs at hreq with hr
  · obtain ⟨hb, n, hn⟩ := hreq
    have hle := h.rank_le hlt hdst
    have hlast : channelRank net o b = 1 + o.numColumns + o.meshRows := by
      unfold channelRank
      rw [(Net.mem_outLinks.mp hb).2, hn]
    omega
  · have hrlt : r < net.numRouters := by
      have := (net.link_ends _ (Net.link_mem hlt)).2
      rwa [hdst, Node.isIn, decide_eq_true_eq] at this
    rw [h.numRouters] at hs hrlt
    rw [h.outportComputeXY_eq (Ne.symm hr)] at hreq
    split_ifs at hreq with hturn
    obtain ⟨l, hl, hout, hport⟩ := h.exists_port hrlt hs (Ne.symm hr)
    obtain rfl : l = b := Except.ok.inj (hport.symm.trans hreq)
    obtain ⟨r', hdst', -⟩ := h.port_step hl hout
    obtain ⟨hb, hsrc'⟩ := Net.mem_outLinks.mp hl
    cases hsrc : (net.link a).src with
    | ni n =>
      have hfirst : channelRank net o a = 0 := by
        unfold channelRank
        rw [hsrc]
      rw [hfirst]
      exact h.rank_pos hb hsrc' hdst'
    | router r0 => exact h.rank_lt_of_mayTurn hlt hb hsrc hdst hsrc' hdst' (hout ▸ hturn)

/-- On a mesh, XY routing is minimal and cannot deadlock. -/
theorem xyRouting_minimal_acyclic : (∀ route : RouteInfo, ∀ src < net.numRouters, route.destRouter < net.numRouters →
      ∃ ls, (∀ fuel ≥ o.dx src route.destRouter + o.dy src route.destRouter,
          iterateXY net route fuel src .loc = .ok ls) ∧
        ls.length = o.dx src route.destRouter + o.dy src route.destRouter ∧
        ∀ l ∈ ls, ∃ r, l ∈ net.outLinks (.router r) ∧ (net.link l).outDirn = o.dirnTo r route.destRouter) ∧
      ∀ a, ¬ Relation.TransGen (Feeds net) a a := by
  refine ⟨fun route src hsrc hs => ?_, fun a ha => ?_⟩
  · rw [h.numRouters] at hsrc hs
    exact h.iterateXY_eq hs _ src .loc hsrc (fun _ => by unfold dirnTo; split_ifs <;> rfl) rfl
  · have hlt : ∀ {b}, Relation.TransGen (Feeds net) a b → channelRank net o a < channelRank net o b := by
      intro b hb
      induction hb with
      | single hab => exact h.rank_lt hab
      | tail _ hbc ih => exact ih.trans (h.rank_lt hbc)
    exact absurd (hlt ha) (lt_irrefl _)

end IsMeshXY

lemma ofLinks_buffers (vnets : ℕ) : ∀ v < vnets, 1 ≤ if VnetType.data = VnetType.data then 4 else 1 := by simp

/-- A network with these links and with what `Network.py` and `GarnetNetwork.py` give if nothing else is said. -/
def Net.ofLinks (links : List Link) (numRouters numNodes vnets : ℕ) (numRows : ℤ)
    (hends : ∀ l ∈ links, l.src.isIn numRouters numNodes = true ∧ l.dst.isIn numRouters numNodes = true)
    (hrouter : ∀ l ∈ links, ∀ m n, ¬ (l.src = .ni m ∧ l.dst = .ni n)) : Net where
  links := links
  numRouters := numRouters
  numNodes := numNodes
  virtualNetworks := vnets
  vcPerVnet _ := 4
  routerLatency _ := 1
  routerWidth _ := 128
  isVnetOrdered _ := false
  vnetType _ := .data
  buffersPerDataVc := 4
  buffersPerCtrlVc := 1
  routingAlgorithm := .xy
  numRows := numRows
  deadlockThreshold _ := 50000
  clockPeriod _ := 1
  randomization := false
  warmupEnabled := false
  rand n := n
  randomTime _ := 1
  numThreads := 1
  toNetQueues _ _ := none
  fromNetQueues _ _ := none
  clockPeriod_pos _ := Nat.one_pos
  buffers_pos := ofLinks_buffers vnets
  queues_new _ _ _ h := by rcases h with h | h <;> cases h
  randomTime_pos _ := Nat.one_pos
  link_ends := hends
  link_router := hrouter
  ni_vcs _ _ _ _ _ _ _ _ _ _ _ := rfl

namespace MeshXY

/-- A mesh of two rows of two routers, each with a controller. -/
def square : MeshXY := { numCpus := 4, meshRows := 2 }

/-- What `Mesh_XY` makes of it. -/
def squareTopology : Topology where
  nodes := 4
  switches := 4
  vnets := 1
  extLinks := (List.range 4).map fun i => square.extLink ⟨i, false⟩ i
  intLinks := square.intLinks
  ext_lt := by decide
  int_lt := by decide

def squareLinks : List Link := (squareTopology.createLinks 3).toOption.getD []

lemma squareLinks_spec : squareTopology.createLinks 3 = .ok squareLinks ∧ ∀ l ∈ squareLinks,
    (l.src.isIn 4 4 = true ∧ l.dst.isIn 4 4 = true) ∧ ∀ m n, ¬ (l.src = .ni m ∧ l.dst = .ni n) := by
  obtain ⟨ls, hls, hall⟩ := Lib.exists_ok_of_any (x := squareTopology.createLinks 3) (p := fun ls => ls.all fun l =>
    l.src.isIn 4 4 && l.dst.isIn 4 4 && match l.src, l.dst with | .ni _, .ni _ => false | _, _ => true) (by decide +kernel)
  obtain rfl : squareLinks = ls := by rw [squareLinks, hls]; rfl
  refine ⟨hls, fun l hl => ?_⟩
  obtain ⟨hends, hboth⟩ := Bool.and_eq_true_iff.mp (List.all_eq_true.mp hall l hl)
  refine ⟨Bool.and_eq_true_iff.mp hends, fun m n h => ?_⟩
  rw [h.1, h.2] at hboth
  cases hboth

def squareNet : Net :=
  Net.ofLinks squareLinks 4 4 1 2 (fun l hl => (squareLinks_spec.2 l hl).1) fun l hl => (squareLinks_spec.2 l hl).2

lemma isMeshXY_square : IsMeshXY squareNet square := by
  have hlinks : squareTopology.createLinks 3 = .ok squareNet.links := by
    rw [squareLinks_spec.1, squareNet, Net.ofLinks]
  exact isMeshXY_of_createLinks ⟨by decide, by decide, by decide⟩ rfl (by decide) hlinks rfl rfl

end MeshXY

/-- From one corner to the other: two hops, with a turn. -/
theorem IsMeshXY.xyRouting_minimal_acyclic_square : IsMeshXY MeshXY.squareNet MeshXY.square ∧
    ∃ ls, iterateXY MeshXY.squareNet ⟨0, [3], 0, 0, 3, 3, 0⟩ 2 0 .loc = .ok ls ∧ ls.length = 2 := by
  obtain ⟨ls, hrun, hlen, -⟩ := MeshXY.isMeshXY_square.xyRouting_minimal_acyclic.1 ⟨0, [3], 0, 0, 3, 3, 0⟩ 0 (by decide)
    (by decide)
  exact ⟨MeshXY.isMeshXY_square, ls, hrun 2 (by decide), hlen⟩

end Gem5.Garnet
