import Gem5.Garnet.XYRouting
import Gem5.Lib.Places

/-!
# Table routing on a mesh

On a mesh the routing tables lead packets the same way as XY routing does. The distance of a router from a node is
`|dx| + 2 |dy|` and the weight of the node's link, so the first links of shortest paths are those that lead closer
along the row or along the column; those along the row have the lesser weight and are taken first.
-/

namespace Gem5.Garnet

open Lib Lib.ShortestPath RoutingUnit List Garnet.Topology

/-! ### No two links between the same switches -/

namespace Topology

variable {t : Topology} {w : Weights}

lemma nodup_pairs (n : ℕ) : (pairs n).Nodup := by
  unfold pairs
  refine nodup_flatMap_of_key nodup_range (fun i _ => ?_) fun i _ j _ b hb hb' => ?_
  · exact nodup_range.map fun j j' h => (Prod.mk.inj h).2
  grind

/-- The switch at which a link from a node starts. -/
def sourceOf (t : Topology) : Node → ℕ
  | .router r => t.router r
  | .ni n => n

lemma makeGarnetLink_source {i j : ℕ} {e : LinkEntry} (he : e ∈ t.group i j) (entry : List (List ℕ)) :
    t.sourceOf (t.makeGarnetLink i j e entry).src = i := by
  obtain ⟨hmem, rfl, rfl⟩ := mem_group.mp he
  have hends := linkMap_ends hmem
  unfold makeGarnetLink
  dsimp only
  split_ifs with h1 h2
  · rfl
  · simp only [sourceOf, router]
    omega
  · simp only [sourceOf, router]
    omega

/-- No two links between the same switches. -/
def Simple (t : Topology) : Prop := (t.linkMap.map fun e => (e.src, e.dest)).Nodup

lemma Simple.eq (h : t.Simple) {i j : ℕ} {e e' : LinkEntry} (he : e ∈ t.group i j) (he' : e' ∈ t.group i j) :
    e = e' := by
  obtain ⟨hm, rfl, rfl⟩ := mem_group.mp he
  obtain ⟨hm', h1, h2⟩ := mem_group.mp he'
  exact inj_on_of_nodup_map h hm hm' (Prod.ext h1.symm h2.symm)

lemma Simple.nodup_group (h : t.Simple) (i j : ℕ) : (t.group i j).Nodup := (List.Nodup.of_map _ h).filter _

lemma Simple.nodup_links (h : t.Simple) (dist : List (ℕ → ℕ → ℤ)) :
    ((pairs t.numSwitches).flatMap (t.linksOf w dist)).Nodup := by
  refine nodup_flatMap_of_key (nodup_pairs _) (fun p _ => ?_) fun p _ q _ l hl hl' => ?_
  · unfold linksOf
    split_ifs
    · exact (h.nodup_group _ _).map_on fun e he e' he' _ => h.eq he he'
    · exact nodup_nil
  · unfold linksOf at hl hl'
    split_ifs at hl hl'
    · obtain ⟨e, he, rfl⟩ := mem_map.mp hl
      obtain ⟨e', he', heq⟩ := mem_map.mp hl'
      refine Prod.ext ?_ ?_
      · rw [← makeGarnetLink_source he, ← heq, makeGarnetLink_source he']
      · rw [← (makeGarnetLink_ends (r := 0) he _).2.1, ← heq, (makeGarnetLink_ends (r := 0) he' _).2.1]
    · cases hl'
    · cases hl
    · cases hl

/-- The loop over `m_link_map` comes to its end, if the links carry all virtual networks. -/
lemma Simple.exists_fillWeights (h : t.Simple) (hv : ∀ e ∈ t.linkMap, e.link.vnets = []) :
    ∃ w, t.fillWeights = .ok w := by
  have hsat : Sat (fun _ => False) (fun _ => True) t.fillWeights := by
    refine Sat.foldlM_const trivial fun p _ m _ => ?_
    unfold fillGroup
    refine Sat.bind (Q := fun _ => True) ?_ fun _ _ => trivial
    refine Sat.mono (Sat.foldlM (fun done x => done = [] → x.2 = []) (fun _ => rfl) fun done e rest x hl hx => ?_)
      fun _ _ => trivial
    -- there is nothing before the only entry
    have hin : ∀ e' ∈ done, e' = e := fun e' he' =>
      h.eq (i := p.1) (j := p.2) (hl ▸ mem_append_left _ he') (hl ▸ by simp)
    have hnd := hl ▸ h.nodup_group p.1 p.2
    have hdone : done = [] := by
      refine eq_nil_iff_forall_not_mem.mpr fun e' he' => ?_
      grind
    have hsup : e.link.supported t.vnets = range t.vnets := by
      rw [BasicLink.supported, if_pos (hv e (mem_group.mp (hl ▸ by simp : e ∈ t.group p.1 p.2)).1)]
    rw [hsup]
    refine Sat.mono (Sat.foldlM (fun vs x => ∀ v ∈ x.2, v ∈ vs) ?_ fun vs v rest' x' hvs hx' => ?_)
      fun _ _ hne => absurd hne (by simp)
    · rw [hx hdone]
      simp
    · have hmem : v ∈ range t.vnets := hvs ▸ by simp
      have hnot : v ∉ vs := by
        have := hvs ▸ nodup_range (n := t.vnets)
        rw [nodup_append] at this
        exact fun hv => this.2.2 v hv v (mem_cons_self ..) rfl
      have h1 : decide (v < t.vnets) = true := by simpa using hmem
      have h2 : (!x'.2.contains v) = true := by
        simpa using fun hv => hnot (hx' v hv)
      unfold fillVnet
      dsimp only
      rw [h1, h2, ensure_bind, if_pos rfl, ensure_bind, if_pos rfl]
      simp_all
  cases hw : t.fillWeights with
  | ok w => exact ⟨w, rfl⟩
  | error e =>
    rw [hw] at hsat
    exact absurd hsat not_false

end Topology

namespace MeshXY

variable {o : MeshXY}

lemma nodup_linkLoop {outer inner : ℕ} {mk : ℕ → ℕ → BasicIntLink}
    (hinj : ∀ a b a' b', a < outer → b + 1 < inner → a' < outer → b' + 1 < inner → mk a b = mk a' b' → a = a' ∧ b = b') :
    (linkLoop outer inner mk).Nodup := by
  unfold linkLoop
  refine nodup_flatMap_of_key nodup_range (fun a ha => ?_) fun a ha a' ha' l hl hl' => ?_
  · refine nodup_range.filterMap fun b b' l hb hb' => ?_
    grind
  grind

lemma coords_inj {cols x y x' y' : ℕ} (hx : x < cols) (hx' : x' < cols) (h : x + y * cols = x' + y' * cols) :
    x = x' ∧ y = y' := by
  have h1 := coords y hx
  have h2 := coords y' hx'
  rw [h] at h1
  exact ⟨h1.1.symm.trans h2.1, h1.2.symm.trans h2.2⟩

lemma nodup_intLinks (o : MeshXY) : o.intLinks.Nodup := by
  have heast : o.eastLinks.Nodup := nodup_linkLoop fun row col row' col' _ hc _ hc' h => by grind [coords_inj]
  have hwest : o.westLinks.Nodup := nodup_linkLoop fun row col row' col' _ hc _ hc' h => by grind [coords_inj]
  have hnorth : o.northLinks.Nodup := nodup_linkLoop fun col row col' row' hc _ hc' _ h => by
    grind [coords_inj]
  have hsouth : o.southLinks.Nodup := nodup_linkLoop fun col row col' row' hc _ hc' _ h => by
    grind [coords_inj]
  -- the loops differ by the direction of their links
  have dirn : ∀ {outer inner mk l d}, (∀ a b, (mk a b : BasicIntLink).srcOutport = d) → l ∈ linkLoop outer inner mk →
      l.srcOutport = d := by
    intro outer inner mk l d hd hl
    obtain ⟨a, -, b, -, rfl⟩ := mem_linkLoop.mp hl
    exact hd a b
  have de : ∀ l ∈ o.eastLinks, l.srcOutport = .east := fun l hl => dirn (fun _ _ => rfl) hl
  have dw : ∀ l ∈ o.westLinks, l.srcOutport = .west := fun l hl => dirn (fun _ _ => rfl) hl
  have dn : ∀ l ∈ o.northLinks, l.srcOutport = .north := fun l hl => dirn (fun _ _ => rfl) hl
  have ds : ∀ l ∈ o.southLinks, l.srcOutport = .south := fun l hl => dirn (fun _ _ => rfl) hl
  unfold intLinks
  rw [nodup_append, nodup_append, nodup_append]
  refine ⟨⟨⟨heast, hwest, fun l hl m hm => ?_⟩, hnorth, fun l hl m hm => ?_⟩, hsouth, fun l hl m hm => ?_⟩
  · grind
  · grind
  · grind

lemma weightOf_pos (d : PortDirection) : 0 < weightOf d := by
  cases d <;> simp [weightOf]

/-- The weight of a shortest path between two routers: `|dx| + 2 |dy|`. -/
def weightTo (o : MeshXY) (r s : ℕ) : ℤ := o.dx r s + 2 * o.dy r s

variable {d : PortDirection} {r r' : ℕ}

lemma Step.weightTo_le (h : o.Step d r r') (s : ℕ) : o.weightTo r s ≤ weightOf d + o.weightTo r' s := by
  obtain ⟨-, -, h⟩ := h
  unfold weightTo dx dy
  cases d <;> dsimp only at h <;> simp only [weightOf] <;> omega

lemma weightTo_eq {s : ℕ} (hne : r ≠ s) (h : o.Step (o.dirnTo r s) r r') :
    o.weightTo r s = weightOf (o.dirnTo r s) + o.weightTo r' s := by
  have hy : r % o.numColumns = s % o.numColumns → r / o.numColumns ≠ s / o.numColumns :=
    fun hx hy => hne (router_ext hx hy)
  obtain ⟨-, -, h⟩ := h
  unfold weightTo dx dy
  unfold dirnTo at h ⊢
  split_ifs at h ⊢ <;> dsimp only at h <;> simp only [weightOf] <;> omega

/-- Of the steps that lead closer by their weight, that of XY routing has the least weight, and no other has it. -/
lemma Step.dirnTo_of_closer {s : ℕ} (h : o.Step d r r') (hw : o.weightTo r s = weightOf d + o.weightTo r' s) : r ≠ s ∧
      (d = o.dirnTo r s ∨ weightOf (o.dirnTo r s) < weightOf d) := by
  have hpos := weightOf_pos d
  obtain ⟨-, -, h⟩ := h
  unfold weightTo dx dy at hw
  refine ⟨?_, ?_⟩
  · rintro rfl
    omega
  · unfold dirnTo
    cases d <;> dsimp only at h <;> simp only [weightOf] at hw <;> split_ifs <;>
      first | exact Or.inl rfl | exact Or.inr (by decide) | omega

lemma Step.dirn_eq {d' : PortDirection} (h : o.Step d r r') (h' : o.Step d' r r') : d = d' := by
  obtain ⟨-, -, h⟩ := h
  obtain ⟨-, -, h'⟩ := h'
  cases d <;> cases d' <;> dsimp only at h h' <;> first | rfl | omega

end MeshXY

/-! ### The graph of a mesh -/

/-- The topology is what `Mesh_XY` makes for the controllers, each with a number of its own. -/
structure MeshTopology (o : MeshXY) (nodes : List Controller) (t : Topology) : Prop where
  make : o.makeTopology nodes = .ok (t.extLinks, t.intLinks)
  nodup : (nodes.map Controller.id).Nodup
  weight : ∀ c ∈ nodes, 1 ≤ o.extWeight c.id

namespace MeshTopology

open MeshXY

variable {o : MeshXY} {nodes : List Controller} {t : Topology} (h : MeshTopology o nodes t)

include h

lemma checked : o.Checked := (makeTopology_inv h.make).1

lemma intLinks_eq : t.intLinks = o.intLinks := (makeTopology_inv h.make).2.1

lemma mem_extLinks {l : BasicExtLink} (hl : l ∈ t.extLinks) :
    1 ≤ l.weight ∧ l.intNode < o.numCpus ∧ l.vnets = [] := by
  obtain ⟨c, hc, r, hr, rfl⟩ := (makeTopology_inv h.make).2.2.2 l hl
  exact ⟨h.weight c hc, hr, rfl⟩

lemma extLink_eq {l l' : BasicExtLink} (hl : l ∈ t.extLinks) (hl' : l' ∈ t.extLinks) (heq : l.extNode = l'.extNode) :
    l = l' := by
  have hnd := h.nodup
  rw [← (makeTopology_inv h.make).2.2.1] at hnd
  exact inj_on_of_nodup_map hnd hl hl' heq

variable {e : LinkEntry} {a : ℤ}

lemma mem_linkMap_iff : e ∈ t.linkMap ↔
    (∃ l ∈ t.extLinks, e = ⟨l.extNode, t.router l.intNode, l.toBasicLink, .other 0, .other 0⟩) ∨
    (∃ l ∈ t.extLinks, e = ⟨t.router l.intNode, l.extNode + t.nodes, l.toBasicLink, .other 0, .other 0⟩) ∨
    ∃ d r r', o.Step d r r' ∧ e = ⟨t.router r, t.router r', (o.link d r r').toBasicLink, d, opposite d⟩ := by
  unfold linkMap
  rw [mem_append, mem_flatMap, mem_map, h.intLinks_eq]
  constructor
  · rintro (⟨l, hl, he⟩ | ⟨l, hl, rfl⟩)
    · grind
    · obtain ⟨d, r, r', hstep, rfl⟩ := h.checked.mem_intLinks.mp hl
      exact Or.inr (Or.inr ⟨d, r, r', hstep, rfl⟩)
  · rintro (⟨l, hl, rfl⟩ | ⟨l, hl, rfl⟩ | ⟨d, r, r', hstep, rfl⟩)
    · exact Or.inl ⟨l, hl, by simp⟩
    · exact Or.inl ⟨l, hl, by simp⟩
    · exact Or.inr ⟨o.link d r r', h.checked.mem_intLinks.mpr ⟨d, r, r', hstep, rfl⟩, rfl⟩

lemma vnets_eq (he : e ∈ t.linkMap) : e.link.vnets = [] := by
  rcases h.mem_linkMap_iff.mp he with ⟨l, hl, rfl⟩ | ⟨l, hl, rfl⟩ | ⟨d, r, r', -, rfl⟩
  · exact (h.mem_extLinks hl).2.2
  · exact (h.mem_extLinks hl).2.2
  · rfl

lemma weight_pos (e : LinkEntry) (he : e ∈ t.linkMap) : 0 < e.link.weight := by
  rcases h.mem_linkMap_iff.mp he with ⟨l, hl, rfl⟩ | ⟨l, hl, rfl⟩ | ⟨d, r, r', -, rfl⟩
  · have := (h.mem_extLinks hl).1
    dsimp only
    omega
  · have := (h.mem_extLinks hl).1
    dsimp only
    omega
  · exact weightOf_pos d

lemma simple : t.Simple := by
  have hnd := h.nodup
  rw [← (makeTopology_inv h.make).2.2.1] at hnd
  unfold Topology.Simple
  -- an entry is known by its ends
  refine List.Nodup.map_on (fun e he e' he' heq => ?_) ?_
  · obtain ⟨h1, h2⟩ := Prod.mk.inj heq
    rcases h.mem_linkMap_iff.mp he with ⟨l, hl, rfl⟩ | ⟨l, hl, rfl⟩ | ⟨d, r, r', hd, rfl⟩ <;>
      rcases h.mem_linkMap_iff.mp he' with ⟨m, hm, rfl⟩ | ⟨m, hm, rfl⟩ | ⟨d', s, s', hd', rfl⟩ <;>
      dsimp only [router] at h1 h2
    · rw [h.extLink_eq hl hm h1]
    · have := t.ext_lt l hl
      omega
    · have := t.ext_lt l hl
      omega
    · have := t.ext_lt m hm
      omega
    · rw [h.extLink_eq hl hm (by omega)]
    · have := t.ext_lt l hl
      omega
    · have := t.ext_lt m hm
      omega
    · have := t.ext_lt m hm
      omega
    grind [Step.dirn_eq]
  · unfold linkMap
    rw [nodup_append]
    refine ⟨?_, ?_, ?_⟩
    · refine nodup_flatMap_of_key (List.Nodup.of_map _ hnd) (fun l hl => ?_) fun l hl m hm e he he' => ?_
      · have := t.ext_lt l hl
        grind
      · have hl' := t.ext_lt l hl
        have hm' := t.ext_lt m hm
        simp only [mem_cons, not_mem_nil, or_false] at he he'
        unfold router at he he'
        grind [LinkEntry.mk.injEq, extLink_eq]
    · rw [h.intLinks_eq]
      refine o.nodup_intLinks.map_on fun l hl m hm heq => ?_
      rw [LinkEntry.mk.injEq] at heq
      unfold router at heq
      obtain ⟨d, r, r', -, rfl⟩ := h.checked.mem_intLinks.mp hl
      obtain ⟨d', s, s', -, rfl⟩ := h.checked.mem_intLinks.mp hm
      obtain ⟨h1, h2, -, h3, -⟩ := heq
      dsimp only [MeshXY.link] at h1 h2 h3
      simp_all
    · rintro e he e' he' rfl
      obtain ⟨l, hl, he⟩ := mem_flatMap.mp he
      obtain ⟨m, hm, he'⟩ := mem_map.mp he'
      have := t.ext_lt l hl
      simp only [mem_cons, not_mem_nil, or_false] at he
      unfold router at he he'
      rcases he with rfl | rfl <;> rw [LinkEntry.mk.injEq] at he' <;> omega

/-! ### Distances -/

variable {v : ℕ} (hv : v < t.vnets)

include hv

lemma edge_iff {i j : ℕ} : t.Edge v i j a ↔
    (∃ l ∈ t.extLinks, i = l.extNode ∧ j = t.router l.intNode ∧ a = l.weight) ∨
    (∃ l ∈ t.extLinks, i = t.router l.intNode ∧ j = l.extNode + t.nodes ∧ a = l.weight) ∨
    ∃ d r r', o.Step d r r' ∧ i = t.router r ∧ j = t.router r' ∧ a = weightOf d := by
  have hsup : ∀ e ∈ t.linkMap, v ∈ e.link.supported t.vnets := by grind [BasicLink.supported, vnets_eq]
  constructor
  · rintro ⟨e, he, rfl, -⟩
    obtain ⟨hmem, rfl, rfl⟩ := mem_group.mp he
    rcases h.mem_linkMap_iff.mp hmem with ⟨l, hl, rfl⟩ | ⟨l, hl, rfl⟩ | ⟨d, r, r', hd, rfl⟩
    · exact Or.inl ⟨l, hl, rfl, rfl, rfl⟩
    · exact Or.inr (Or.inl ⟨l, hl, rfl, rfl, rfl⟩)
    · exact Or.inr (Or.inr ⟨d, r, r', hd, rfl, rfl, rfl⟩)
  · rintro (⟨l, hl, rfl, rfl, rfl⟩ | ⟨l, hl, rfl, rfl, rfl⟩ | ⟨d, r, r', hd, rfl, rfl, rfl⟩)
    · have hmem := h.mem_linkMap_iff.mpr (Or.inl ⟨l, hl, rfl⟩)
      exact ⟨_, mem_group.mpr ⟨hmem, rfl, rfl⟩, rfl, hsup _ hmem⟩
    · have hmem := h.mem_linkMap_iff.mpr (Or.inr (Or.inl ⟨l, hl, rfl⟩))
      exact ⟨_, mem_group.mpr ⟨hmem, rfl, rfl⟩, rfl, hsup _ hmem⟩
    · have hmem := h.mem_linkMap_iff.mpr (Or.inr (Or.inr ⟨d, r, r', hd, rfl⟩))
      exact ⟨_, mem_group.mpr ⟨hmem, rfl, rfl⟩, rfl, hsup _ hmem⟩

/-- There is a path of weight `|dx| + 2 |dy|` between two routers. -/
lemma walk_routers {s : ℕ} (hs : s < o.numCpus) (n : ℕ) : ∀ r < o.numCpus, o.dx r s + o.dy r s = n →
    Walk (t.Edge v) (t.router r) (t.router s) (o.weightTo r s) := by
  induction n with
  | zero =>
    intro r _ hn
    have hzero : o.weightTo r s = 0 := by
      unfold weightTo
      omega
    obtain rfl : r = s := by
      unfold dx dy at hn
      exact router_ext (o := o) (by omega) (by omega)
    rw [hzero]
    exact .nil _
  | succ n ih =>
    intro r hr hn
    have hne : r ≠ s := by
      rintro rfl
      unfold dx dy at hn
      omega
    obtain ⟨r', hstep⟩ := h.checked.exists_step hr hs hne
    have hcloser := (step_closer hne hstep).1
    have hwalk := ih r' hstep.2.1 (by omega)
    have hedge := (h.edge_iff hv).mpr (Or.inr (Or.inr ⟨_, r, r', hstep, rfl, rfl, rfl⟩))
    rw [weightTo_eq hne hstep]
    exact .cons hedge hwalk

variable {x : BasicExtLink} (hx : x ∈ t.extLinks)

include hx

omit hv in
lemma walk_output {y : BasicExtLink} (hy : y ∈ t.extLinks)
    (hw : Walk (t.Edge v) (y.extNode + t.nodes) (x.extNode + t.nodes) a) : y = x ∧ a = 0 := by
  generalize hi : y.extNode + t.nodes = i, hj : x.extNode + t.nodes = j at hw
  cases hw with
  | nil => exact ⟨h.extLink_eq hy hx (by omega), rfl⟩
  | cons he _ => grind [not_edge_of_output, ext_lt]

lemma weightTo_le {i : ℕ} (hw : Walk (t.Edge v) i (x.extNode + t.nodes) a) :
    ∀ r, i = t.router r → o.weightTo r x.intNode + x.weight ≤ a := by
  generalize hj : x.extNode + t.nodes = j at hw
  induction hw with
  | nil i =>
    intro r hr
    have := t.ext_lt x hx
    unfold router at hr
    omega
  | cons he hrest ih =>
    intro r hr
    subst hr
    rcases (h.edge_iff hv).mp he with ⟨l, hl, h1, -⟩ | ⟨l, hl, h1, h2, h3⟩ | ⟨d, s, s', hstep, h1, h2, h3⟩
    · have := t.ext_lt l hl
      unfold router at h1
      omega
    · subst h2 h3 hj
      obtain ⟨rfl, rfl⟩ := h.walk_output hx hl hrest
      obtain rfl : r = l.intNode := by unfold router at h1; omega
      have hzero : o.weightTo l.intNode l.intNode = 0 := by
        unfold weightTo dx dy
        omega
      omega
    · have h4 := ih hj s' h2
      obtain rfl : r = s := by unfold router at h1; omega
      have h5 := hstep.weightTo_le x.intNode
      omega

lemma isDist_router {r : ℕ} (hr : r < o.numCpus) :
    IsDist (t.Edge v) (t.router r) (x.extNode + t.nodes) (o.weightTo r x.intNode + x.weight) := by
  refine ⟨?_, fun a ha => h.weightTo_le hv hx ha r rfl⟩
  have hedge := (h.edge_iff hv).mpr (Or.inr (Or.inl ⟨x, hx, rfl, rfl, rfl⟩))
  exact (h.walk_routers hv (h.mem_extLinks hx).2.1 _ r hr rfl).trans (.single hedge)

omit hx in
lemma edge_small {i j : ℕ} (hlt : ∀ i j d, IsDist (t.Edge v) i j d → d < infiniteLatency) (he : t.Edge v i j a) :
    a < 2 ^ 30 := by
  have hext {l : BasicExtLink} (hl : l ∈ t.extLinks) : l.weight < 2 ^ 30 := by
    have hlt' := hlt _ _ _ (h.isDist_router hv hl (h.mem_extLinks hl).2.1)
    have hself : o.weightTo l.intNode l.intNode = 0 := by simp [weightTo, dx, dy]
    unfold infiniteLatency at hlt'
    omega
  rcases (h.edge_iff hv).mp he with ⟨l, hl, -, -, rfl⟩ | ⟨l, hl, -, -, rfl⟩ | ⟨d, -, -, -, -, -, rfl⟩
  · exact hext hl
  · exact hext hl
  · cases d <;> simp [weightOf]

/-- The first links of shortest paths to a controller: its own link at its router, and elsewhere the steps that lead
closer by their weight. -/
lemma leadsTo_iff {r j : ℕ} (hr : r < o.numCpus) (he : e ∈ t.group (t.router r) j) :
    t.LeadsTo v (t.router r) j e x.extNode ↔ (r = x.intNode ∧ j = x.extNode + t.nodes ∧ e.link = x.toBasicLink) ∨
      ∃ d r', o.Step d r r' ∧ j = t.router r' ∧ e.srcOutportDirn = d ∧ e.link.weight = weightOf d ∧
        o.weightTo r x.intNode = weightOf d + o.weightTo r' x.intNode := by
  obtain ⟨hmem, h1, h2⟩ := mem_group.mp he
  have hsup : v ∈ e.link.supported t.vnets := by grind [BasicLink.supported, vnets_eq]
  have hdist := h.isDist_router hv hx hr
  constructor
  · rintro ⟨-, a, ha, hb⟩
    obtain rfl := ha.unique hdist
    rcases h.mem_linkMap_iff.mp hmem with ⟨l, hl, rfl⟩ | ⟨l, hl, rfl⟩ | ⟨d, s, s', hstep, rfl⟩
    · have := t.ext_lt l hl
      dsimp only [router] at h1
      omega
    · subst h2
      obtain ⟨rfl, -⟩ := h.walk_output hx hl hb.walk
      refine Or.inl ⟨?_, rfl, rfl⟩
      dsimp only [router] at h1
      omega
    · subst h2
      obtain rfl : s = r := by dsimp only [router] at h1; omega
      have h3 := hb.unique (h.isDist_router hv hx hstep.2.1)
      refine Or.inr ⟨d, s', hstep, rfl, rfl, rfl, ?_⟩
      dsimp only [MeshXY.link] at h3
      omega
  · rintro (⟨rfl, rfl, hlink⟩ | ⟨d, r', hstep, rfl, -, hlink, hw⟩)
    · refine ⟨hsup, _, hdist, ?_⟩
      have hzero : o.weightTo x.intNode x.intNode + x.weight - e.link.weight = 0 := by
        rw [hlink]
        unfold weightTo dx dy
        omega
      rw [hzero]
      exact isDist_self (edge_pos h.weight_pos) _
    · refine ⟨hsup, _, hdist, ?_⟩
      have := h.isDist_router hv hx hstep.2.1
      convert this using 1
      omega

end MeshTopology

/-! ### The only candidate -/

variable {net : Net} {r l : ℕ}

/-- Links of a router to the same node are the same link, if no two links are between the same switches. -/
lemma Topology.Makes.outLink_eq {t : Topology} {w : Topology.Weights} {dist : ℕ → ℕ → ℕ → ℤ}
    (hm : Topology.Makes t w dist net) (hs : t.Simple) {m : ℕ} (hl : l ∈ net.outLinks (.router r))
    (hl' : m ∈ net.outLinks (.router r)) (hdst : (net.link l).dst = (net.link m).dst) : l = m := by
  obtain ⟨j, e, he, hle⟩ := hm.exists_entry hl
  obtain ⟨j', e', he', hme⟩ := hm.exists_entry hl'
  have h1 := (makeGarnetLink_ends (r := r) he
    (t.linkRoute e (t.routingMap w ((range t.vnets).map dist) (t.router r) j))).2.1
  have h2 := (makeGarnetLink_ends (r := r) he'
    (t.linkRoute e' (t.routingMap w ((range t.vnets).map dist) (t.router r) j'))).2.1
  obtain rfl : j = j' := by
    rw [← h1, ← h2]
    exact congrArg t.switchOf (by rw [hle, hme] at hdst; exact hdst)
  obtain rfl := hs.eq he he'
  -- the links are equal, so are their places in the list
  have hnd : net.links.Nodup := hm.links ▸ hs.nodup_links _
  have heq := hle.trans hme.symm
  have hlt := (Net.mem_outLinks.mp hl).1
  have hlt' := (Net.mem_outLinks.mp hl').1
  unfold Net.link at heq
  simp_all [getD_eq_getElem?_getD, Option.getD_some, List.Nodup.getElem_inj_iff]

lemma MeshXY.Step.unique {o : MeshXY} {d : PortDirection} {r' r'' : ℕ} (h : o.Step d r r') (h' : o.Step d r r'') :
    r' = r'' := by
  obtain ⟨-, -, h⟩ := h
  obtain ⟨-, -, h'⟩ := h'
  refine MeshXY.router_ext (o := o) ?_ ?_ <;> cases d <;> dsimp only at h h' <;> omega

namespace MeshTopology

open MeshXY

variable {o : MeshXY} {nodes : List Controller} {t : Topology} {w : Topology.Weights} {dist : ℕ → ℕ → ℕ → ℤ} {net : Net}
  (h : MeshTopology o nodes t) (hm : Topology.Makes t w dist net) (hnet : IsMeshXY net o) {v r : ℕ}
  (hv : v < t.vnets) {x : BasicExtLink} (hx : x ∈ t.extLinks) (hr : r < o.numCpus)

include h hm hv hx hr

variable {l : ℕ}

lemma candidate_home (hhome : r = x.intNode) (hl : l ∈ candidates net r v [x.extNode]) :
    l ∈ net.outLinks (.router r) ∧ (net.link l).dst = .ni x.extNode := by
  obtain ⟨hout, -, j, e, he, hle, hlead⟩ := (hm.mem_matching hv).mp (mem_of_mem_filter hl)
  refine ⟨hout, ?_⟩
  rcases (h.leadsTo_iff hv hx hr he).mp hlead with ⟨-, hj, -⟩ | ⟨d, r', hstep, -, -, -, hw⟩
  · subst hj
    rw [hle]
    unfold linkFor makeGarnetLink router
    grind [ext_lt]
  · exact absurd hhome (hstep.dirnTo_of_closer hw).1

lemma candidate_away (haway : r ≠ x.intNode) (hl : l ∈ candidates net r v [x.extNode]) :
    l ∈ net.outLinks (.router r) ∧ ∃ r', (net.link l).dst = .router r' ∧ o.Step (o.dirnTo r x.intNode) r r' := by
  obtain ⟨hmatch, hmin⟩ := (mem_candidates_iff fun l hl => hm.weight_le hv hl).mp hl
  obtain ⟨hout, hd, j, e, he, hle, hlead⟩ := (hm.mem_matching hv).mp hmatch
  refine ⟨hout, ?_⟩
  rcases (h.leadsTo_iff hv hx hr he).mp hlead with ⟨hhome, -⟩ | ⟨d, r', hstep, hj, hdirn, hweight, hw⟩
  · exact absurd hhome haway
  · have hd : d = o.dirnTo r x.intNode := by
      rcases (hstep.dirnTo_of_closer hw).2 with hd | hless
      · exact hd
      · -- a link along the row would have less weight
        obtain ⟨s, hs⟩ := h.checked.exists_step hr (h.mem_extLinks hx).2.1 haway
        have hmem := h.mem_linkMap_iff.mpr (Or.inr (Or.inr ⟨_, r, s, hs, rfl⟩))
        have he' := mem_group.mpr ⟨hmem, rfl, rfl⟩
        have hlead' := (h.leadsTo_iff hv hx hr he').mpr
          (Or.inr ⟨_, s, hs, rfl, rfl, rfl, weightTo_eq haway hs⟩)
        obtain ⟨m, hmout, hme⟩ := hm.exists_link hv he' hlead'
        have hle' := hmin m ((hm.mem_matching hv).mpr ⟨hmout, hd, _, _, he', hme, hlead'⟩)
        rw [hle, hme, linkFor, linkFor, (makeGarnetLink_weight ..).1,
          (makeGarnetLink_weight ..).1, hweight] at hle'
        exact absurd hless (not_lt.mpr hle')
    simp_all [linkFor, makeGarnetLink_router]

lemma exists_candidates_eq : ∃ l, candidates net r v [x.extNode] = [l] := by
  obtain ⟨l, hl⟩ := hm.exists_mem_candidates hv (t.ext_lt x hx).1 (h.isDist_router hv hx hr).walk
  have hone : ∀ m ∈ candidates net r v [x.extNode], m = l := by
    intro m hmem
    by_cases hhome : r = x.intNode
    · obtain ⟨h1, h2⟩ := h.candidate_home hm hv hx hr hhome hmem
      obtain ⟨h3, h4⟩ := h.candidate_home hm hv hx hr hhome hl
      exact hm.outLink_eq h.simple h1 h3 (h2.trans h4.symm)
    · obtain ⟨h1, s, h2, hs⟩ := h.candidate_away hm hv hx hr hhome hmem
      obtain ⟨h3, s', h4, hs'⟩ := h.candidate_away hm hv hx hr hhome hl
      grind [Step.unique, Topology.Makes.outLink_eq, simple]
  have hnd : (candidates net r v [x.extNode]).Nodup := ((Net.nodup_outLinks _).filter _).filter _
  refine ⟨l, ?_⟩
  generalize candidates net r v [x.extNode] = cs at hl hone hnd
  match cs, hl, hone, hnd with
  | [m], _, hone, _ => rw [hone m (mem_cons_self ..)]
  | m :: m' :: cs, _, hone, hnd =>
    have h1 := hone m (by simp)
    have h2 := hone m' (by simp)
    subst h1 h2
    simp at hnd

include hnet in
lemma outportOfDirn_candidate (haway : r ≠ x.intNode) (hl : candidates net r v [x.extNode] = [l]) :
    outportOfDirn net r (o.dirnTo r x.intNode) = .ok l := by
  obtain ⟨m, hmem, hout, hport⟩ := hnet.exists_port hr (h.mem_extLinks hx).2.1 haway
  obtain ⟨s, hdst, hs, -⟩ := hnet.port_step hmem hout
  obtain ⟨h1, s', hdst', hs'⟩ := h.candidate_away hm hv hx hr haway (l := l) (by rw [hl]; exact mem_cons_self ..)
  grind [Step.unique, Topology.Makes.outLink_eq, simple]

end MeshTopology

/-! ### The same path -/

/-- The links that a packet goes over after an input link, until it is at an interface. -/
def packetPath (net : Net) (route : RouteInfo) : ℕ → ℕ → Sched → Except Fault (List ℕ)
  | 0, _, _ => .error .noRoute
  | fuel + 1, inport, σ =>
    match (net.link inport).dst with
    | .ni _ => .ok []
    | .router r => do
      let (l, σ) ← outportCompute net r route inport σ
      let ls ← packetPath net route fuel l σ
      pure (l :: ls)

lemma packetPath_ni (net : Net) {route : RouteInfo} {inport n : ℕ} (hdst : (net.link inport).dst = .ni n) (fuel : ℕ)
    (σ : Sched) : packetPath net route (fuel + 1) inport σ = .ok [] := by
  unfold packetPath
  rw [hdst]

lemma packetPath_router {route : RouteInfo} {inport fuel : ℕ} {σ σ' : Sched} {ls : List ℕ}
    (hdst : (net.link inport).dst = .router r) (hl : outportCompute net r route inport σ = .ok (l, σ'))
    (hrest : packetPath net route fuel l σ' = .ok ls) : packetPath net route (fuel + 1) inport σ = .ok (l :: ls) := by
  rw [packetPath.eq_2, hdst]
  dsimp only
  rw [hl]
  change (packetPath net route fuel l σ' >>= fun ls => pure (l :: ls)) = _
  rw [hrest]
  rfl

lemma RoutingUnit.lookupRoutingTable_singleton {vnet : ℕ} {dest : List ℕ}
    (h : candidates net r vnet dest = [l]) (σ : Sched) : ∃ σ', lookupRoutingTable net r vnet dest σ = .ok (l, σ') := by
  unfold lookupRoutingTable
  rw [h]
  dsimp only
  split_ifs
  · exact ⟨_, rfl⟩
  · exact ⟨_, congrArg Except.ok (Prod.ext (by simp [Nat.mod_one]) rfl)⟩

/-- Table routing and XY routing choose the same port where there is one candidate, given by XY routing. -/
lemma RoutingUnit.outportCompute_eq (net : Net) (route : RouteInfo) (inport : ℕ)
    (halg : net.routingAlgorithm ≠ .custom) (hl : candidates net r route.vnet route.netDest = [l])
    (hxy : r ≠ route.destRouter → outportComputeXY net r route (net.link inport).inDirn = .ok l) (σ : Sched) :
    ∃ σ', outportCompute net r route inport σ = .ok (l, σ') := by
  unfold outportCompute
  split_ifs with hr
  · exact lookupRoutingTable_singleton hl σ
  · cases ha : net.routingAlgorithm with
    | table => exact lookupRoutingTable_singleton hl σ
    | custom => exact absurd ha halg
    | xy =>
      rw [hxy (Ne.symm hr)]
      exact ⟨σ, rfl⟩

namespace MeshTopology

open MeshXY

variable {o : MeshXY} {nodes : List Controller} {t : Topology} {w : Topology.Weights} {dist : ℕ → ℕ → ℕ → ℤ} {net : Net}
  (h : MeshTopology o nodes t) (hm : Topology.Makes t w dist net) (hnet : IsMeshXY net o)
  {x : BasicExtLink} (hx : x ∈ t.extLinks) {route : RouteInfo} (hv : route.vnet < t.vnets)
  (hdest : route.netDest = [x.extNode]) (hhome : route.destRouter = x.intNode)

include h hm hnet hx hv hdest hhome

lemma exists_packetPath (n : ℕ) : ∀ r inport, r < o.numCpus → (net.link inport).dst = .router r →
    (r ≠ x.intNode → mayTurn (net.link inport).inDirn (o.dirnTo r x.intNode) = true) →
    o.dx r x.intNode + o.dy r x.intNode = n →
    ∃ ls, ls.length = n + 1 ∧ (∃ l ∈ ls, (net.link l).dst = .ni x.extNode) ∧
      ∀ a, a ≠ RoutingAlgorithm.custom → ∀ fuel ≥ n + 2, ∀ σ,
        packetPath { net with routingAlgorithm := a } route fuel inport σ = .ok ls := by
  induction n with
  | zero =>
    intro r inport hr hdst _ hn
    obtain rfl : r = x.intNode := by
      unfold dx dy at hn
      exact router_ext (o := o) (by omega) (by omega)
    obtain ⟨l, hl⟩ := h.exists_candidates_eq hm hv hx hr
    obtain ⟨-, hni⟩ := h.candidate_home hm hv hx hr rfl (l := l) (by rw [hl]; exact mem_cons_self ..)
    refine ⟨[l], rfl, ⟨l, mem_cons_self .., hni⟩, fun a ha fuel hf σ => ?_⟩
    obtain ⟨fuel, rfl⟩ : ∃ k, fuel = k + 2 := ⟨fuel - 2, by omega⟩
    obtain ⟨σ', hstep⟩ := outportCompute_eq { net with routingAlgorithm := a } route inport ha
      (by rw [hdest]; exact hl) (fun hne => absurd hhome.symm hne) σ
    exact packetPath_router hdst hstep (packetPath_ni { net with routingAlgorithm := a } hni fuel σ')
  | succ n ih =>
    intro r inport hr hdst hturn hn
    have haway : r ≠ x.intNode := by
      rintro rfl
      unfold dx dy at hn
      omega
    obtain ⟨l, hl⟩ := h.exists_candidates_eq hm hv hx hr
    have hport := h.outportOfDirn_candidate hm hnet hv hx hr haway hl
    obtain ⟨hout, r', hdst', hstep⟩ := h.candidate_away hm hv hx hr haway (l := l) (by rw [hl]; exact mem_cons_self ..)
    obtain ⟨hlt, hsrc⟩ := Net.mem_outLinks.mp hout
    obtain ⟨hstep', hin⟩ := hnet.step hlt hsrc hdst'
    rw [hstep'.dirn_eq hstep] at hin
    obtain ⟨hless, hturn'⟩ := step_closer haway hstep
    obtain ⟨ls, hlen, ⟨m, hmem, hni⟩, hrun⟩ := ih r' l hstep.2.1 hdst' (fun hne => hin ▸ hturn' hne) (by omega)
    refine ⟨l :: ls, by rw [length_cons, hlen], ⟨m, mem_cons_of_mem _ hmem, hni⟩, fun a ha fuel hf σ => ?_⟩
    obtain ⟨fuel, rfl⟩ : ∃ k, fuel = k + 1 := ⟨fuel - 1, by omega⟩
    have hxy : outportComputeXY net r route (net.link inport).inDirn = .ok l := by
      rw [hnet.outportComputeXY_eq (hhome ▸ haway), hhome, if_pos (hturn haway), hport]
    obtain ⟨σ', hstep⟩ := outportCompute_eq { net with routingAlgorithm := a } route inport ha (by rw [hdest]; exact hl) (fun _ => hxy) σ
    exact packetPath_router hdst hstep (hrun a ha fuel (by omega) σ')

omit hm hnet hx hv hdest hhome

/-- Table routing on a mesh is XY routing. -/
theorem tableRouting_eq_xyRouting (hlt : ∀ v < t.vnets, ∀ i j d, IsDist (t.Edge v) i j d → d < infiniteLatency) :
    ∃ (links : List Link) (N : ℕ), (∀ fuel ≥ N, t.createLinks fuel = .ok links) ∧
      ∀ net : Net, net.links = links → net.numRows = o.meshRows → net.numRouters = o.numCpus →
      ∀ x ∈ t.extLinks, ∀ route : RouteInfo, route.vnet < t.vnets → route.netDest = [x.extNode] →
        route.destRouter = x.intNode →
        (∀ r < net.numRouters, ∃ l, candidates net r route.vnet route.netDest = [l] ∧
          (∀ σ, ∃ σ', lookupRoutingTable net r route.vnet route.netDest σ = .ok (l, σ')) ∧
          if r = x.intNode then (net.link l).dst = .ni x.extNode ∧ (net.link l).outDirn = .loc
          else outportComputeXY net r route .loc = .ok l ∧
            ∀ dirn m, outportComputeXY net r route dirn = .ok m → m = l) ∧
        ∀ n, ∀ inport ∈ net.outLinks (.ni n), ∃ ls, (∃ l ∈ ls, (net.link l).dst = .ni x.extNode) ∧
          ∀ a, a ≠ RoutingAlgorithm.custom → ∀ fuel > ls.length, ∀ σ,
            packetPath { net with routingAlgorithm := a } route fuel inport σ = .ok ls := by
  obtain ⟨w, hfill⟩ := h.simple.exists_fillWeights fun e he => h.vnets_eq he
  obtain ⟨dist, N, hb, hrun⟩ := exists_built hfill h.weight_pos (fun v hv _ _ _ => h.edge_small hv (hlt v hv)) hlt
  refine ⟨_, N, fun fuel hf => (hrun fuel hf).2, fun net hlinks hrows hrouters x hx route hv hdest hhome => ?_⟩
  have hm : Topology.Makes t w dist net := { hb with links := hlinks }
  have hnet : IsMeshXY net o := isMeshXY_of_createLinks h.checked h.intLinks_eq (by omega)
    ((hrun N le_rfl).2.trans (congrArg Except.ok hlinks.symm)) hrows hrouters
  refine ⟨fun r hr => ?_, fun n inport hin => ?_⟩
  · rw [hrouters] at hr
    obtain ⟨l, hl⟩ := h.exists_candidates_eq hm hv hx hr
    rw [hdest]
    refine ⟨l, hl, lookupRoutingTable_singleton hl, ?_⟩
    split_ifs with hr'
    · obtain ⟨hout, hdst⟩ := h.candidate_home hm hv hx hr hr' (l := l) (by rw [hl]; exact mem_cons_self ..)
      exact ⟨hdst, (hnet.ext l (Net.mem_outLinks.mp hout).1 _ (Or.inr hdst)).1⟩
    · have hport := h.outportOfDirn_candidate hm hnet hv hx hr hr' hl
      have hne : r ≠ route.destRouter := hhome ▸ hr'
      refine ⟨?_, fun dirn m hmem => ?_⟩
      · have hturn : mayTurn .loc (o.dirnTo r x.intNode) = true := by
          unfold dirnTo
          split_ifs <;> rfl
        rw [hnet.outportComputeXY_eq hne, hhome, if_pos hturn, hport]
      · rw [hnet.outportComputeXY_eq hne, hhome] at hmem
        split_ifs at hmem
        exact Except.ok.inj (hmem.symm.trans hport)
  · obtain ⟨r, hdst⟩ := Net.dst_of_outLinks_ni hin
    obtain ⟨hlt', hsrc⟩ := Net.mem_outLinks.mp hin
    have hr : r < o.numCpus := by
      have := (net.link_ends _ (Net.link_mem hlt')).2
      rwa [hdst, Node.isIn, decide_eq_true_eq, hrouters] at this
    have hloc := (hnet.ext inport hlt' n (Or.inl hsrc)).2
    obtain ⟨ls, hlen, hlast, hpath⟩ := h.exists_packetPath hm hnet hx hv hdest hhome _ r inport hr hdst
      (fun _ => by rw [hloc]; unfold dirnTo; split_ifs <;> rfl) rfl
    exact ⟨ls, hlast, fun a ha fuel hf σ => hpath a ha fuel (by omega) σ⟩

lemma walk_ends {v : ℕ} (hv : v < t.vnets) {i j : ℕ} {a : ℤ} (hw : Walk (t.Edge v) i j a) :
    ∀ r < o.numCpus, i = t.router r → (∃ s < o.numCpus, j = t.router s) ∨ ∃ x ∈ t.extLinks, j = x.extNode + t.nodes := by
  induction hw with
  | nil i => exact fun r hr hi => Or.inl ⟨r, hr, hi⟩
  | cons he hrest ih =>
    intro r hr hi
    rcases (h.edge_iff hv).mp he with ⟨l, hl, h1, -⟩ | ⟨l, hl, -, h2, -⟩ | ⟨d, s, s', hstep, -, h2, -⟩
    · have := t.ext_lt l hl
      unfold router at hi
      omega
    · subst h2
      cases hrest with
      | nil => exact Or.inr ⟨l, hl, rfl⟩
      | cons he' _ => exact absurd he' (not_edge_of_output (t.ext_lt l hl).1)
    · exact ih s' hstep.2.1 h2

lemma exists_short {v : ℕ} (hv : v < t.vnets) {B : ℤ} (hB : ∀ x ∈ t.extLinks, x.weight ≤ B) (hB0 : 0 ≤ B) {r j : ℕ}
    {a : ℤ} (hr : r < o.numCpus) (hw : Walk (t.Edge v) (t.router r) j a) :
    ∃ b ≤ B + o.numColumns + 2 * o.meshRows, Walk (t.Edge v) (t.router r) j b := by
  have hside : ∀ s < o.numCpus, o.weightTo r s ≤ o.numColumns + 2 * o.meshRows := by
    intro s hs
    have x1 := h.checked.col_lt r
    have x2 := h.checked.col_lt s
    have y1 := h.checked.row_lt hr
    have y2 := h.checked.row_lt hs
    unfold weightTo dx dy
    grind
  rcases h.walk_ends hv hw r hr rfl with ⟨s, hs, rfl⟩ | ⟨x, hx, rfl⟩
  · have := hside s hs
    exact ⟨_, by omega, h.walk_routers hv hs _ r hr rfl⟩
  · have := hside _ (h.mem_extLinks hx).2.1
    have := hB x hx
    exact ⟨_, by omega, (h.isDist_router hv hx hr).walk⟩

lemma lt_of_size {B : ℤ} (hB : ∀ x ∈ t.extLinks, x.weight ≤ B) (hB0 : 0 ≤ B)
    (hsize : 2 * B + o.numColumns + 2 * o.meshRows < infiniteLatency) :
    ∀ v < t.vnets, ∀ i j d, IsDist (t.Edge v) i j d → d < infiniteLatency := by
  intro v hv i j d hd
  have hshort : ∃ b, b < infiniteLatency ∧ Walk (t.Edge v) i j b := by
    cases hd.walk with
    | nil => exact ⟨0, by decide, .nil _⟩
    | cons he hrest =>
      rcases (h.edge_iff hv).mp he with ⟨l, hl, h1, h2, h3⟩ | ⟨l, hl, h1, -⟩ | ⟨d, s, s', hstep, h1, -⟩
      · subst h2
        obtain ⟨b, hb, hwalk⟩ := h.exists_short hv hB hB0 (h.mem_extLinks hl).2.1 hrest
        have := hB l hl
        exact ⟨_, by omega, .cons he hwalk⟩
      · subst h1
        obtain ⟨b, hb, hwalk⟩ := h.exists_short hv hB hB0 (h.mem_extLinks hl).2.1 (.cons he hrest)
        exact ⟨b, by omega, hwalk⟩
      · subst h1
        obtain ⟨b, hb, hwalk⟩ := h.exists_short hv hB hB0 hstep.1 (.cons he hrest)
        exact ⟨b, by omega, hwalk⟩
  obtain ⟨b, hb, hwalk⟩ := hshort
  exact (hd.le b hwalk).trans_lt hb

end MeshTopology

lemma MeshXY.meshTopology_square :
    MeshTopology MeshXY.square ((range 4).map (⟨·, false⟩)) MeshXY.squareTopology := ⟨by decide, by decide, by decide⟩

/-- Of the two shortest ways to the opposite corner the table has the first hop of one. -/
theorem MeshTopology.tableRouting_eq_xyRouting_square :
    ∃ links, (∃ fuel, MeshXY.squareTopology.createLinks fuel = .ok links) ∧
    ∀ net : Net, net.links = links → net.numRows = 2 → net.numRouters = 4 → ∃ l, candidates net 0 0 [3] = [l] := by
  obtain ⟨links, N, hrun, hnet⟩ := MeshXY.meshTopology_square.tableRouting_eq_xyRouting
    (MeshXY.meshTopology_square.lt_of_size (B := 1) (by decide) (by decide) (by decide))
  refine ⟨links, ⟨N, hrun N le_rfl⟩, fun net hlinks hrows hrouters => ?_⟩
  obtain ⟨l, hl, -⟩ := (hnet net hlinks hrows hrouters (MeshXY.square.extLink ⟨3, false⟩ 3) (by decide)
    ⟨0, [3], 0, 0, 3, 3, 0⟩ (by decide) rfl rfl).1 0 (by omega)
  exact ⟨l, hl⟩

end Gem5.Garnet
