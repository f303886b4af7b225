import Gem5.Garnet.TopologyRouting

/-!
# Meshes

`Mesh_XY` of `configs/topologies`: the external and internal links it makes, and what they look like in coordinates.
The routers stand in rows, router `0` first; its column is the rest and its row the quotient of a router's number by the
number of columns. Links lead along the rows to the east and west, with weight `1`, and along the columns to the north,
towards larger rows, and to the south, with weight `2`.
-/

namespace Gem5.Garnet

open Lib List

/-- The options that `makeTopology` reads. -/
structure MeshXY where
  /-- `num_cpus`. -/
  numCpus : ℕ
  /-- `mesh_rows`. -/
  meshRows : ℕ
  /-- `link_latency`. -/
  linkLatency : ℕ := 1
  /-- The weight of the `ExtLink` of a controller, `1` if nothing else is said. -/
  extWeight : ℕ → ℤ := fun _ => 1

/-- A controller: its number among all, and whether its type is `DMA_Controller`. -/
structure Controller where
  id : ℕ
  isDma : Bool := false
  deriving DecidableEq, Repr

namespace MeshXY

/-- The ways `makeTopology` can stop. -/
inductive MeshFault where
  /-- `divmod(len(nodes), num_routers)` with no routers. -/
  | noRouters
  /-- `assert num_rows > 0 and num_rows <= num_routers`. -/
  | rows
  /-- `assert num_columns * num_rows == num_routers`. -/
  | columns
  /-- `assert cntrl_level < cntrls_per_router`. -/
  | level
  /-- `assert node.type == "DMA_Controller"`. -/
  | notDma
  deriving DecidableEq, Repr

variable (o : MeshXY)

/-- `num_columns`. -/
def numColumns : ℕ := o.numCpus / o.meshRows

/-- The `ExtLink` of a controller. -/
def extLink (c : Controller) (router : ℕ) : BasicExtLink :=
  { latency := o.linkLatency, weight := o.extWeight c.id, extNode := c.id, intNode := router }

/-- The links of `network_nodes`. -/
def networkLinks (nodes : List Controller) : Except MeshFault (List BasicExtLink) :=
  ((nodes.take (nodes.length - nodes.length % o.numCpus)).zipIdx).mapM fun (c, i) => do
    ensure (decide (i / o.numCpus < nodes.length / o.numCpus)) .level
    pure (o.extLink c (i % o.numCpus))

/-- The links of `remainder_nodes`. -/
def remainderLinks (nodes : List Controller) : Except MeshFault (List BasicExtLink) :=
  (nodes.drop (nodes.length - nodes.length % o.numCpus)).mapM fun c => do
    ensure c.isDma .notDma
    pure (o.extLink c 0)

/-- The loops that make the links of a direction: for each row or column, from each router that has a next one. -/
def linkLoop (outer inner : ℕ) (mk : ℕ → ℕ → BasicIntLink) : List BasicIntLink :=
  (range outer).flatMap fun a =>
    (range inner).filterMap fun b => if b + 1 < inner then some (mk a b) else none

/-- East output to West input links (weight = 1). -/
def eastLinks : List BasicIntLink :=
  linkLoop o.meshRows o.numColumns fun row col =>
    { latency := o.linkLatency, weight := 1, srcNode := col + row * o.numColumns
      dstNode := (col + 1) + row * o.numColumns, srcOutport := .east, dstInport := .west }

/-- West output to East input links (weight = 1). -/
def westLinks : List BasicIntLink :=
  linkLoop o.meshRows o.numColumns fun row col =>
    { latency := o.linkLatency, weight := 1, srcNode := (col + 1) + row * o.numColumns
      dstNode := col + row * o.numColumns, srcOutport := .west, dstInport := .east }

/-- North output to South input links (weight = 2). -/
def northLinks : List BasicIntLink :=
  linkLoop o.numColumns o.meshRows fun col row =>
    { latency := o.linkLatency, weight := 2, srcNode := col + row * o.numColumns
      dstNode := col + (row + 1) * o.numColumns, srcOutport := .north, dstInport := .south }

/-- South output to North input links (weight = 2). -/
def southLinks : List BasicIntLink :=
  linkLoop o.numColumns o.meshRows fun col row =>
    { latency := o.linkLatency, weight := 2, srcNode := col + (row + 1) * o.numColumns
      dstNode := col + row * o.numColumns, srcOutport := .south, dstInport := .north }

/-- `int_links`. -/
def intLinks : List BasicIntLink := o.eastLinks ++ o.westLinks ++ o.northLinks ++ o.southLinks

/-- `makeTopology`: `ext_links` and `int_links`. -/
def makeTopology (nodes : List Controller) : Except MeshFault (List BasicExtLink × List BasicIntLink) := do
  ensure (decide (0 < o.numCpus)) .noRouters
  ensure (decide (0 < o.meshRows) && decide (o.meshRows ≤ o.numCpus)) .rows
  ensure (o.numColumns * o.meshRows == o.numCpus) .columns
  let network ← o.networkLinks nodes
  let remainder ← o.remainderLinks nodes
  pure (network ++ remainder, o.intLinks)

/-! ### Coordinates -/

/-- There is a link in the direction from one router to the other. -/
def Step (dirn : PortDirection) (r r' : ℕ) : Prop :=
  r < o.numCpus ∧ r' < o.numCpus ∧ match dirn with
    | .east => r' % o.numColumns = r % o.numColumns + 1 ∧ r' / o.numColumns = r / o.numColumns
    | .west => r % o.numColumns = r' % o.numColumns + 1 ∧ r' / o.numColumns = r / o.numColumns
    | .north => r' % o.numColumns = r % o.numColumns ∧ r' / o.numColumns = r / o.numColumns + 1
    | .south => r' % o.numColumns = r % o.numColumns ∧ r / o.numColumns = r' / o.numColumns + 1
    | _ => False

/-- The direction from which a link in a direction arrives. -/
def opposite : PortDirection → PortDirection
  | .east => .west
  | .west => .east
  | .north => .south
  | .south => .north
  | d => d

/-- The weight of the links in a direction. -/
def weightOf : PortDirection → ℤ
  | .north | .south => 2
  | _ => 1

/-- The internal link in a direction. -/
def link (dirn : PortDirection) (r r' : ℕ) : BasicIntLink :=
  { latency := o.linkLatency, weight := weightOf dirn, srcNode := r, dstNode := r', srcOutport := dirn
    dstInport := opposite dirn }

/-- What `makeTopology` checks. -/
structure Checked : Prop where
  rows : 0 < o.meshRows
  columns : 0 < o.numColumns
  size : o.numColumns * o.meshRows = o.numCpus

variable {o}

lemma mem_linkLoop {outer inner : ℕ} {mk : ℕ → ℕ → BasicIntLink} {l : BasicIntLink} :
    l ∈ linkLoop outer inner mk ↔ ∃ a < outer, ∃ b, b + 1 < inner ∧ l = mk a b := by
  unfold linkLoop
  simp only [mem_flatMap, mem_range, mem_filterMap, Option.ite_none_right_eq_some, Option.some.injEq]
  constructor
  · rintro ⟨a, ha, b, -, hb, rfl⟩
    exact ⟨a, ha, b, hb, rfl⟩
  · rintro ⟨a, ha, b, hb, rfl⟩
    exact ⟨a, ha, b, by omega, hb, rfl⟩

lemma coords {cols col : ℕ} (row : ℕ) (hcol : col < cols) :
    (col + row * cols) % cols = col ∧ (col + row * cols) / cols = row := by
  have hpos : 0 < cols := by omega
  rw [Nat.add_mul_mod_self_right, Nat.mod_eq_of_lt hcol, Nat.add_mul_div_right _ _ hpos, Nat.div_eq_of_lt hcol,
    Nat.zero_add]
  exact ⟨rfl, rfl⟩

lemma coords_lt {cols rows col row : ℕ} (hcol : col < cols) (hrow : row < rows) : col + row * cols < cols * rows := by
  calc col + row * cols < cols + row * cols := by omega
    _ = cols * (row + 1) := by ring
    _ ≤ cols * rows := Nat.mul_le_mul_left _ hrow

lemma eq_coords (cols r : ℕ) : r = r % cols + r / cols * cols := by
  rw [Nat.mul_comm]
  exact (Nat.mod_add_div r cols).symm

lemma Checked.row_lt (h : o.Checked) {r : ℕ} (hr : r < o.numCpus) : r / o.numColumns < o.meshRows := by
  refine Nat.div_lt_of_lt_mul ?_
  rwa [h.size]

lemma Checked.col_lt (h : o.Checked) (r : ℕ) : r % o.numColumns < o.numColumns := Nat.mod_lt _ h.columns

lemma Checked.mem_intLinks (h : o.Checked) {l : BasicIntLink} :
    l ∈ o.intLinks ↔ ∃ dirn r r', o.Step dirn r r' ∧ l = o.link dirn r r' := by
  unfold intLinks eastLinks westLinks northLinks southLinks
  simp only [mem_append, mem_linkLoop, or_assoc]
  constructor
  · rintro (⟨y, hy, x, hx, rfl⟩ | ⟨y, hy, x, hx, rfl⟩ | ⟨x, hx, y, hy, rfl⟩ | ⟨x, hx, y, hy, rfl⟩)
    · have h1 := coords y (show x < o.numColumns by omega)
      have h2 := coords y hx
      refine ⟨.east, _, _, ⟨h.size ▸ coords_lt (by omega) hy, h.size ▸ coords_lt hx hy, ?_⟩, rfl⟩
      dsimp only
      omega
    · have h1 := coords y (show x < o.numColumns by omega)
      have h2 := coords y hx
      refine ⟨.west, _, _, ⟨h.size ▸ coords_lt hx hy, h.size ▸ coords_lt (by omega) hy, ?_⟩, rfl⟩
      dsimp only
      omega
    · have h1 := coords y hx
      have h2 := coords (y + 1) hx
      refine ⟨.north, _, _, ⟨h.size ▸ coords_lt hx (by omega), h.size ▸ coords_lt hx hy, ?_⟩, rfl⟩
      dsimp only
      omega
    · have h1 := coords y hx
      have h2 := coords (y + 1) hx
      refine ⟨.south, _, _, ⟨h.size ▸ coords_lt hx hy, h.size ▸ coords_lt hx (by omega), ?_⟩, rfl⟩
      dsimp only
      omega
  · rintro ⟨dirn, r, r', ⟨hr, hr', hd⟩, rfl⟩
    have e1 := eq_coords o.numColumns r
    have e2 := eq_coords o.numColumns r'
    have x1 := h.col_lt r
    have x2 := h.col_lt r'
    have y1 := h.row_lt hr
    have y2 := h.row_lt hr'
    cases dirn with
    | loc => exact absurd hd not_false
    | other k => exact absurd hd not_false
    | east =>
      obtain ⟨hx, hy⟩ := hd
      refine Or.inl ⟨r / o.numColumns, y1, r % o.numColumns, by omega, ?_⟩
      rw [hx, hy] at e2
      rw [link, ← e1, ← e2]
      rfl
    | west =>
      obtain ⟨hx, hy⟩ := hd
      refine Or.inr (Or.inl ⟨r / o.numColumns, y1, r' % o.numColumns, by omega, ?_⟩)
      rw [hy] at e2
      rw [hx] at e1
      rw [link, ← e1, ← e2]
      rfl
    | north =>
      obtain ⟨hx, hy⟩ := hd
      refine Or.inr (Or.inr (Or.inl ⟨r % o.numColumns, x1, r / o.numColumns, by omega, ?_⟩))
      rw [hx, hy] at e2
      rw [link, ← e1, ← e2]
      rfl
    | south =>
      obtain ⟨hx, hy⟩ := hd
      refine Or.inr (Or.inr (Or.inr ⟨r % o.numColumns, x1, r' / o.numColumns, by omega, ?_⟩))
      rw [hx] at e2
      rw [hy] at e1
      rw [link, ← e1, ← e2]
      rfl

/-! ### What `makeTopology` makes -/

variable {nodes : List Controller} {ext : List BasicExtLink} {int : List BasicIntLink}

lemma makeTopology_inv (h : o.makeTopology nodes = .ok (ext, int)) :
    o.Checked ∧ int = o.intLinks ∧ ext.map (fun l => l.extNode) = nodes.map Controller.id ∧
      ∀ l ∈ ext, ∃ c ∈ nodes, ∃ r < o.numCpus, l = o.extLink c r := by
  unfold makeTopology at h
  obtain ⟨_, h1, h⟩ := bind_eq_ok.mp h
  obtain ⟨_, h2, h⟩ := bind_eq_ok.mp h
  obtain ⟨_, h3, h⟩ := bind_eq_ok.mp h
  obtain ⟨network, hn, h⟩ := bind_eq_ok.mp h
  obtain ⟨remainder, hr, h⟩ := bind_eq_ok.mp h
  cases h
  rw [ensure_eq_ok, decide_eq_true_eq] at h1
  rw [ensure_eq_ok, Bool.and_eq_true, decide_eq_true_eq, decide_eq_true_eq] at h2
  rw [ensure_eq_ok, beq_iff_eq] at h3
  have hnetwork := eq_map_of_mapM (g := fun x => o.extLink x.1 (x.2 % o.numCpus)) (fun x y hy => by
    obtain ⟨_, -, hy⟩ := bind_eq_ok.mp hy
    exact (Except.ok.inj hy).symm) hn
  have hremainder := eq_map_of_mapM (g := fun c => o.extLink c 0) (fun x y hy => by
    obtain ⟨_, -, hy⟩ := bind_eq_ok.mp hy
    exact (Except.ok.inj hy).symm) hr
  refine ⟨⟨h2.1, Nat.div_pos h2.2 h2.1, h3⟩, rfl, ?_, fun l hl => ?_⟩
  · have hids : network.map (fun l => l.extNode) =
        (nodes.take (nodes.length - nodes.length % o.numCpus)).map Controller.id := by
      rw [hnetwork, map_map]
      conv_rhs => rw [← zipIdx_map_fst 0 (nodes.take _), map_map]
      rfl
    rw [map_append, hids, hremainder, map_map]
    conv_rhs => rw [← take_append_drop (nodes.length - nodes.length % o.numCpus) nodes, map_append]
    rfl
  · rcases mem_append.mp hl with hl | hl
    · rw [hnetwork] at hl
      obtain ⟨⟨c, i⟩, hc, rfl⟩ := mem_map.mp hl
      exact ⟨c, mem_of_mem_take (fst_mem_of_mem_zipIdx hc), i % o.numCpus, Nat.mod_lt _ h1, rfl⟩
    · rw [hremainder] at hl
      obtain ⟨c, hc, rfl⟩ := mem_map.mp hl
      exact ⟨c, mem_of_mem_drop hc, 0, h1, rfl⟩

end MeshXY

end Gem5.Garnet
