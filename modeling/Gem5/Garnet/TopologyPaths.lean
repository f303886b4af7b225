import Gem5.Garnet.Topology
import Gem5.Lib.ShortestPath

/-!
# Shortest paths of a topology

`extend_shortest_path` ends, with the distances in the graph of the links that carry the virtual network, if weights
are positive and less than `2 ^ 30` and no distance reaches `INFINITE_LATENCY`. No sum of two entries overflows then,
since entries only get smaller. It is a sweep of relaxations in the sense of
`Gem5.Lib.ShortestPath`, repeated until nothing changes.

The entry for a switch and itself is zero, unless the topology has a link from the switch to itself: then it starts
with the weight of that link.
-/

namespace Gem5.Garnet

open Lib Lib.ShortestPath List

namespace Topology

/-! ### A pass is a sweep -/

lemma mem_pairs {n : ℕ} {p : ℕ × ℕ} : p ∈ pairs n ↔ p.1 < n ∧ p.2 < n := by
  obtain ⟨a, b⟩ := p
  simp [pairs]

@[simp] lemma set_self {α : Type} (m : ℕ → ℕ → α) (i j : ℕ) (x : α) : set m i j x i j = x := by simp [set]

lemma set_of_ne {α : Type} (m : ℕ → ℕ → α) {i j a b : ℕ} (x : α) (h : (a, b) ≠ (i, j)) : set m i j x a b = m a b :=
  if_neg fun hab => h (by rw [hab.1, hab.2])

/-- The entries of a matrix are such that the sum of two of them is an `int`. -/
def Small (D : ℕ → ℕ → ℤ) : Prop := ∀ a b, 0 ≤ D a b ∧ D a b < 2 ^ 30

lemma addInt_eq {a b : ℤ} (ha : 0 ≤ a ∧ a < 2 ^ 30) (hb : 0 ≤ b ∧ b < 2 ^ 30) : addInt a b = a + b :=
  Int.bmod_eq_of_le (by omega) (by omega)

lemma Small.relaxed {ks : List ℕ} {i j : ℕ} {D D' : ℕ → ℕ → ℤ} (hs : Small D) (hr : Relaxed ks i j D D') :
    Small D' := by
  intro a b
  refine ⟨?_, (hr.mono a b).trans_lt (hs a b).2⟩
  by_cases hab : (a, b) = (i, j)
  · cases hab
    rcases hr.attained with h | ⟨k, -, h⟩
    · rw [h]
      exact (hs i j).1
    · rw [h]
      exact add_nonneg (hs i k).1 (hs k j).1
  · rw [hr.other a b hab]
    exact (hs a b).1

/-- The loop over `k` finds the least sum, and where it is less than the entry, a switch. -/
lemma findMinimum_spec (n : ℕ) {m : Paths} (hs : Small m.dist) (i j : ℕ) :
    (findMinimum n m i j).1 ≤ m.dist i j ∧ (∀ k ∈ range n, (findMinimum n m i j).1 ≤ m.dist i k + m.dist k j) ∧
      ((findMinimum n m i j).1 = m.dist i j ∨ ∃ k ∈ range n, (findMinimum n m i j).1 = m.dist i k + m.dist k j) ∧
      ((findMinimum n m i j).2.1 = none → (findMinimum n m i j).1 = m.dist i j) := by
  have hadd (k : ℕ) : addInt (m.dist i k) (m.dist k j) = m.dist i k + m.dist k j := addInt_eq (hs i k) (hs k j)
  simp only [findMinimum, hadd]
  generalize range n = ks
  -- induction on the switches that have been looked at
  induction ks using reverseRecOn with
  | nil => exact ⟨le_rfl, fun k hk => absurd hk not_mem_nil, Or.inl rfl, fun _ => rfl⟩
  | append_singleton ks k ih =>
    rw [foldl_append, foldl_cons, foldl_nil]
    revert ih
    generalize ks.foldl _ _ = x
    obtain ⟨minimum, via, inter⟩ := x
    rintro ⟨h1, h2, h3, h4⟩
    dsimp only at h1 h2 h3 h4 ⊢
    split_ifs with hne
    · dsimp only
      have hlt : m.dist i k + m.dist k j < minimum := by omega
      rw [min_eq_right hlt.le]
      refine ⟨by omega, fun k' hk' => ?_, Or.inr ⟨k, by simp, rfl⟩, fun h => by cases h⟩
      rcases mem_append.mp hk' with hk' | hk'
      · have := h2 k' hk'
        omega
      · rw [mem_singleton.mp hk']
    grind

/-- The body of the loops over `i` and `j` relaxes an entry, and the assert in it holds. -/
lemma relax_spec (n : ℕ) {m : Paths} (hs : Small m.dist) (c : Bool) (i j : ℕ) :
    ∃ m' c', relax n (m, c) (i, j) = .ok (m', c') ∧ Relaxed (range n) i j m.dist m'.dist ∧ c' = (c || decide (m'.dist i j ≠ m.dist i j)) := by
  obtain ⟨h1, h2, h3, h4⟩ := findMinimum_spec n hs i j
  unfold relax
  dsimp only
  generalize findMinimum n m i j = x at h1 h2 h3 h4 ⊢
  obtain ⟨minimum, via, inter⟩ := x
  dsimp only at h1 h2 h3 h4 ⊢
  split_ifs with hne
  · cases via with
    | none => exact absurd (h4 rfl).symm hne
    | some k =>
      refine ⟨_, _, rfl, ⟨fun a b hab => ?_, ?_, ?_, ?_⟩, ?_⟩
      · exact set_of_ne _ _ hab
      · simpa using h1
      · simpa using h2
      · simpa using h3
      · simp [Ne.symm hne]
  · rw [not_not] at hne
    refine ⟨_, _, rfl, ⟨fun a b _ => rfl, le_rfl, fun k hk => ?_, Or.inl rfl⟩, by simp⟩
    dsimp only
    rw [hne]
    exact h2 k hk

lemma pass_spec (n : ℕ) {m : Paths} (hsmall : Small m.dist) :
    ∃ m' c, pass n m = .ok (m', c) ∧ Sweep (range n) m.dist (pairs n) m'.dist ∧
      (c = false → ∀ a b, m'.dist a b = m.dist a b) ∧ (c = true → ∃ e ∈ pairs n, m'.dist e.1 e.2 ≠ m.dist e.1 e.2) := by
  have h : Sat (fun _ => False) (fun x : Paths × Bool => Sweep (range n) m.dist (pairs n) x.1.dist ∧ Small x.1.dist ∧
      (x.2 = false → ∀ a b, x.1.dist a b = m.dist a b) ∧
      (x.2 = true → ∃ e ∈ pairs n, x.1.dist e.1 e.2 < m.dist e.1 e.2)) (pass n m) := by
    refine (Sat.foldlM (fun done (x : Paths × Bool) => Sweep (range n) m.dist done x.1.dist ∧ Small x.1.dist ∧
      (x.2 = false → ∀ a b, x.1.dist a b = m.dist a b) ∧
      (x.2 = true → ∃ e ∈ done, x.1.dist e.1 e.2 < m.dist e.1 e.2)) ⟨.nil, hsmall, fun _ _ _ => rfl, fun h => by cases h⟩ ?_)
    rintro done ⟨i, j⟩ rest ⟨m1, c1⟩ - ⟨hs, hsm, hsame, hless⟩
    obtain ⟨m2, c2, heq, hr, rfl⟩ := relax_spec n hsm c1 i j
    rw [heq]
    dsimp only at hsame hless
    refine ⟨hs.snoc hr, hsm.relaxed hr, fun hc a b => ?_, fun hc => ?_⟩
    · dsimp only at hc ⊢
      rw [Bool.or_eq_false_iff, decide_eq_false_iff_not, not_not] at hc
      by_cases hab : (a, b) = (i, j)
      · cases hab
        rw [hc.2, hsame hc.1]
      · rw [hr.other a b hab, hsame hc.1]
    · dsimp only at hc ⊢
      rw [Bool.or_eq_true, decide_eq_true_eq] at hc
      rcases hc with hc | hc
      · obtain ⟨e, he, hlt⟩ := hless hc
        exact ⟨e, mem_append_left _ he, (hr.mono _ _).trans_lt hlt⟩
      · exact ⟨(i, j), by simp, (lt_of_le_of_ne hr.le hc).trans_le (hs.mono i j)⟩
  generalize hp : pass n m = x at h
  cases x with
  | error e => exact absurd h not_false
  | ok x =>
    obtain ⟨h1, -, h2, h3⟩ := h
    grind

/-- What the matrix of `extend_shortest_path` has to be for the graph `E`: no entry is too small, and those for links
and for switches that are not connected are not too large. -/
structure Starts (E : ℕ → ℕ → ℤ → Prop) (D : ℕ → ℕ → ℤ) : Prop where
  atLeast : ∀ i j, AtLeast E infiniteLatency i j (D i j)
  edge : ∀ i j a, E i j a → i ≠ j → D i j ≤ a
  apart : ∀ i j, (∀ a, ¬ Walk E i j a) → D i j ≤ infiniteLatency

/-- The distances, where two switches are connected, and `INFINITE_LATENCY` where they are not. -/
structure Distances (E : ℕ → ℕ → ℤ → Prop) (D : ℕ → ℕ → ℤ) : Prop where
  dist : ∀ i j d, IsDist E i j d → i ≠ j → D i j = d
  apart : ∀ i j, (∀ a, ¬ Walk E i j a) → D i j = infiniteLatency

lemma walk_lt {E : ℕ → ℕ → ℤ → Prop} {n i j : ℕ} {a : ℤ} (hE : ∀ i j a, E i j a → i < n ∧ j < n) (h : Walk E i j a)
    (hi : i < n) : j < n := by
  induction h with
  | nil => exact hi
  | cons he _ ih => exact ih (hE _ _ _ he).2

/-- `extend_shortest_path` ends with the distances. -/
lemma extendShortestPath_spec {E : ℕ → ℕ → ℤ → Prop} {n : ℕ} {m : Paths} (hpos : ∀ i j a, E i j a → 0 < a)
    (hlt : ∀ i j d, IsDist E i j d → d < infiniteLatency) (hE : ∀ i j a, E i j a → i < n ∧ j < n)
    (hmax : ∀ a b, m.dist a b < 2 ^ 30) (hs : Starts E m.dist) : ∃ m' N, (∀ fuel ≥ N, extendShortestPath fuel n m = .ok m') ∧ Distances E m'.dist ∧
      ∀ i, m.dist i i = 0 → m'.dist i i = 0 := by
  have htop : (0 : ℤ) ≤ infiniteLatency := by decide
  let I : Paths → Prop := fun x =>
    (∀ a b, AtLeast E infiniteLatency a b (x.dist a b)) ∧ ∀ a b, x.dist a b ≤ m.dist a b
  have hsmall {x : Paths} (hx : I x) : Small x.dist := fun a b =>
    ⟨(hx.1 a b).nonneg hpos htop, (hx.2 a b).trans_lt (hmax a b)⟩
  have hbody : ∀ x, I x → ∃ x' change, pass n x = .ok (x', change) ∧ I x' ∧
      (change = true → total (pairs n) x'.dist < total (pairs n) x.dist) := by
    rintro x ⟨h1, h2⟩
    obtain ⟨x', c, hp, hsw, -, hless⟩ := pass_spec n (hsmall ⟨h1, h2⟩)
    have h1' := hsw.atLeast hpos htop hlt h1
    exact ⟨x', c, hp, ⟨h1', fun a b => (hsw.mono a b).trans (h2 a b)⟩, fun hc =>
      hsw.total_lt (fun a b => (h1' a b).nonneg hpos htop) (hless hc)⟩
  obtain ⟨x, m', hx, hlast, ⟨hmin, -⟩, hrun⟩ := repeatWhile_spec (e := TopologyFault.unfinished)
    (μ := fun x => total (pairs n) x.dist) hbody (a := m) ⟨hs.atLeast, fun _ _ => le_rfl⟩ (Nat.lt_succ_self _)
  -- the last pass changed nothing, so the matrix it started from is stable
  obtain ⟨x', c, hp, hsw, hsame, -⟩ := pass_spec n (hsmall hx)
  have hle := hx.2
  have hx : x' = m' ∧ c = false := by simp_all
  obtain ⟨rfl, rfl⟩ := hx
  have hstable := hsw.stable (hsame rfl)
  refine ⟨x', _, hrun, ⟨fun i j d hd hne => ?_, fun i j hno => ?_⟩, fun i hi => ?_⟩
  · refine le_antisymm ?_ ((hmin i j).dist d hd)
    rw [hsame rfl]
    refine hstable.le_walk hpos (fun i j a he => mem_range.mpr (hE i j a he).2) (fun i j a b c he ht => ?_)
      (fun i j a he hij => (hle i j).trans (hs.edge i j a he hij)) hd.walk hne
    exact mem_pairs.mpr ⟨(hE i j a he).1, walk_lt hE ht (hE i j a he).2⟩
  · refine le_antisymm ?_ ((hmin i j).top hno)
    rw [hsame rfl]
    exact (hle i j).trans (hs.apart i j hno)
  · refine le_antisymm ?_ ((hmin i i).nonneg hpos htop)
    rw [hsame rfl, ← hi]
    exact hle i i

/-! ### Weights -/

variable (t : Topology)

/-- The links of a virtual network, between switches and with their weights. -/
def Edge (v i j : ℕ) (a : ℤ) : Prop :=
  ∃ e ∈ t.group i j, e.link.weight = a ∧ v ∈ e.link.supported t.vnets

/-- What an entry of the weights is after the links `es` have been entered. -/
structure Filled (es : List LinkEntry) (v : ℕ) (old new : ℤ) : Prop where
  weight : ∀ e ∈ es, v ∈ e.link.supported t.vnets → new = e.link.weight
  none : (∀ e ∈ es, v ∉ e.link.supported t.vnets) → new = old

variable {t}

lemma mem_group {i j : ℕ} {e : LinkEntry} : e ∈ t.group i j ↔ e ∈ t.linkMap ∧ e.src = i ∧ e.dest = j := by
  simp [group]

lemma fillVnets_spec (e : LinkEntry) (vs : List ℕ) (m : Weights) (done : List ℕ) :
    Sat (fun _ => True) (fun x : Weights × List ℕ =>
      (∀ v ∈ vs, v < t.vnets ∧ v ∉ done ∧ x.1.weights v e.src e.dest = e.link.weight) ∧
      (∀ v ∉ vs, x.1.weights v = m.weights v) ∧
      (∀ v i j, (i, j) ≠ (e.src, e.dest) → x.1.weights v i j = m.weights v i j) ∧
      ∀ v, v ∈ x.2 ↔ v ∈ vs ∨ v ∈ done) (vs.foldlM (t.fillVnet e) (m, done)) := by
  refine Sat.foldlM (fun vs' (x : Weights × List ℕ) =>
      (∀ v ∈ vs', v < t.vnets ∧ v ∉ done ∧ x.1.weights v e.src e.dest = e.link.weight) ∧
      (∀ v ∉ vs', x.1.weights v = m.weights v) ∧
      (∀ v i j, (i, j) ≠ (e.src, e.dest) → x.1.weights v i j = m.weights v i j) ∧
      ∀ v, v ∈ x.2 ↔ v ∈ vs' ∨ v ∈ done) ⟨by simp, by simp, by simp, by simp⟩ ?_
  rintro vs' u rest ⟨m1, done1⟩ - ⟨h1, h2, h3, h4⟩
  unfold fillVnet
  dsimp only at h1 h2 h3 h4 ⊢
  refine (Sat.ensure fun _ => trivial).bind fun _ hlt => (Sat.ensure fun _ => trivial).bind fun _ hnew => ?_
  rw [decide_eq_true_eq] at hlt
  have hnew : u ∉ done1 := by simpa using hnew
  rw [h4, not_or] at hnew
  refine ⟨fun v hv => ?_, fun v hv => ?_, fun v i j hij => ?_, fun v => ?_⟩
  · by_cases hvu : v = u
    · subst hvu
      exact ⟨hlt, hnew.2, by simp⟩
    simp_all
  · simp_all
  · dsimp only
    by_cases hvu : v = u
    · simp_all [set_of_ne]
    simp_all
  grind

lemma fillGroup_spec (m : Weights) (i j : ℕ) : Sat (fun _ => True) (fun m' : Weights =>
    (∀ v, Filled t (t.group i j) v (m.weights v i j) (m'.weights v i j)) ∧
      (∀ v a b, (a, b) ≠ (i, j) → m'.weights v a b = m.weights v a b) ∧
      ∀ e ∈ t.group i j, ∀ v ∈ e.link.supported t.vnets, v < t.vnets) (t.fillGroup m (i, j)) := by
  refine Sat.bind (Q := fun x : Weights × List ℕ =>
    (∀ v, Filled t (t.group i j) v (m.weights v i j) (x.1.weights v i j)) ∧
      (∀ v a b, (a, b) ≠ (i, j) → x.1.weights v a b = m.weights v a b) ∧
      ∀ e ∈ t.group i j, ∀ v ∈ e.link.supported t.vnets, v < t.vnets) ?_ fun x hx => hx
  refine (Sat.foldlM (fun es (x : Weights × List ℕ) =>
    ((∀ v, Filled t es v (m.weights v i j) (x.1.weights v i j)) ∧
      (∀ v a b, (a, b) ≠ (i, j) → x.1.weights v a b = m.weights v a b) ∧
      ∀ e ∈ es, ∀ v ∈ e.link.supported t.vnets, v < t.vnets) ∧
      ∀ v, v ∈ x.2 ↔ ∃ e ∈ es, v ∈ e.link.supported t.vnets)
    ⟨⟨fun v => ⟨by simp, fun _ => rfl⟩, fun _ _ _ _ => rfl, by simp⟩, by simp⟩ ?_).mono fun x hx => hx.1
  rintro es e rest ⟨m1, done⟩ hes ⟨⟨h1, h2, h3⟩, h4⟩
  obtain ⟨-, hsrc, hdest⟩ := mem_group.mp (show e ∈ t.group i j by rw [hes]; simp)
  refine (fillVnets_spec e _ m1 done).mono ?_
  rintro ⟨m2, done2⟩ ⟨h5, h6, h7, h8⟩
  rw [hsrc, hdest] at h5 h7
  dsimp only at h1 h2 h4 h5 h6 h7 h8 ⊢
  refine ⟨⟨fun v => ⟨fun e' he' hv => ?_, fun hno => ?_⟩, fun v a b hab => ?_, fun e' he' v hv => ?_⟩, fun v => ?_⟩
  · rcases mem_append.mp he' with he' | he'
    · -- a link that was entered before: the virtual network is not one of this link's
      have hnot : v ∉ e.link.supported t.vnets := fun hv' => (h5 v hv').2.1 ((h4 v).mpr ⟨e', he', hv⟩)
      rw [h6 v hnot]
      exact (h1 v).weight e' he' hv
    grind
  · grind [Filled.none]
  · rw [h7 v a b hab]
    exact h2 v a b hab
  · grind
  grind

lemma lt_numSwitches {e : LinkEntry} (he : e ∈ t.linkMap) : e.src < t.numSwitches ∧ e.dest < t.numSwitches := by
  have h : ∀ (es : List LinkEntry) (m : ℕ), m ≤ es.foldl (fun m e => max (max m e.src) e.dest) m ∧
      ∀ e ∈ es, e.src ≤ es.foldl (fun m e => max (max m e.src) e.dest) m ∧
        e.dest ≤ es.foldl (fun m e => max (max m e.src) e.dest) m := by
    intro es
    induction es with
    | nil => exact fun m => ⟨le_rfl, fun e he => absurd he not_mem_nil⟩
    | cons x es ih => grind
  have := (h t.linkMap 0).2 e he
  unfold numSwitches
  omega

lemma fillWeights_spec {w : Weights} (h : t.fillWeights = .ok w) :
    (∀ v i j, Filled t (t.group i j) v (if i = j then 0 else infiniteLatency) (w.weights v i j)) ∧
      ∀ e ∈ t.linkMap, ∀ v ∈ e.link.supported t.vnets, v < t.vnets := by
  have hsat : Sat (fun _ : TopologyFault => True) (fun m : Weights =>
      (∀ v i j, Filled t (if (i, j) ∈ pairs t.numSwitches then t.group i j else []) v (if i = j then 0 else infiniteLatency)
        (m.weights v i j)) ∧
      ∀ i j, (i, j) ∈ pairs t.numSwitches → ∀ e ∈ t.group i j, ∀ v ∈ e.link.supported t.vnets, v < t.vnets)
      t.fillWeights := by
    refine Sat.foldlM (fun done (m : Weights) =>
      (∀ v i j, Filled t (if (i, j) ∈ done then t.group i j else []) v (if i = j then 0 else infiniteLatency)
        (m.weights v i j)) ∧
      ∀ i j, (i, j) ∈ done → ∀ e ∈ t.group i j, ∀ v ∈ e.link.supported t.vnets, v < t.vnets)
      ⟨fun v i j => ⟨by simp, fun _ => rfl⟩, by simp⟩ ?_
    rintro done ⟨a, b⟩ rest m - ⟨h1, h2⟩
    refine (fillGroup_spec m a b).mono fun m' ⟨h3, h4, h5⟩ => ⟨fun v i j => ?_, fun i j hij => ?_⟩
    · by_cases hij : (i, j) = (a, b)
      · cases hij
        rw [if_pos (by simp)]
        refine ⟨(h3 v).weight, fun hno => ((h3 v).none hno).trans ((h1 v a b).none fun e he => ?_)⟩
        split_ifs at he
        · exact hno e he
        · cases he
      · grind
    grind
  obtain ⟨h1, h2⟩ := hsat.of_ok h
  refine ⟨fun v i j => ?_, fun e he => ?_⟩
  · by_cases hij : (i, j) ∈ pairs t.numSwitches
    · have := h1 v i j
      rwa [if_pos hij] at this
    · have hnil : t.group i j = [] := by
        rw [eq_nil_iff_forall_not_mem]
        grind [mem_group, mem_pairs, lt_numSwitches]
      grind
  · exact h2 e.src e.dest (mem_pairs.mpr (lt_numSwitches he)) e (mem_group.mpr ⟨he, rfl, rfl⟩)

section Distances

variable {w : Weights} {v : ℕ} (hfill : t.fillWeights = .ok w) (hpos : ∀ e ∈ t.linkMap, 0 < e.link.weight)

include hpos in
lemma edge_pos (i j : ℕ) (a : ℤ) (h : t.Edge v i j a) : 0 < a := by
  obtain ⟨e, he, rfl, -⟩ := h
  exact hpos e (mem_group.mp he).1

lemma edge_lt (i j : ℕ) (a : ℤ) (h : t.Edge v i j a) : i < t.numSwitches ∧ j < t.numSwitches := by
  obtain ⟨e, he, -⟩ := h
  obtain ⟨hmem, rfl, rfl⟩ := mem_group.mp he
  exact lt_numSwitches hmem

include hfill in
lemma weights_of_edge {i j : ℕ} {a : ℤ} (h : t.Edge v i j a) : w.weights v i j = a := by
  obtain ⟨e, he, rfl, hv⟩ := h
  exact ((fillWeights_spec hfill).1 v i j).weight e he hv

include hfill in
lemma weights_of_no_edge {i j : ℕ} (h : ∀ a, ¬ t.Edge v i j a) :
    w.weights v i j = if i = j then 0 else infiniteLatency :=
  ((fillWeights_spec hfill).1 v i j).none fun e he hv => h _ ⟨e, he, rfl, hv⟩

include hfill in
lemma weights_lt (hmax : ∀ i j a, t.Edge v i j a → a < 2 ^ 30) (i j : ℕ) : w.weights v i j < 2 ^ 30 := by
  by_cases he : ∃ a, t.Edge v i j a
  · obtain ⟨a, ha⟩ := he
    rw [weights_of_edge hfill ha]
    exact hmax i j a ha
  · rw [weights_of_no_edge hfill fun a ha => he ⟨a, ha⟩]
    split_ifs <;> decide

include hfill hpos in
/-- The weights are what `extend_shortest_path` has to start with. -/
lemma starts (hlt : ∀ i j d, IsDist (t.Edge v) i j d → d < infiniteLatency) : Starts (t.Edge v) (w.weights v) where
  atLeast := by
    intro i j
    have hp := edge_pos (v := v) hpos
    by_cases he : ∃ a, t.Edge v i j a
    · obtain ⟨a, ha⟩ := he
      rw [weights_of_edge hfill ha]
      exact ⟨fun d hd => hd.le _ (.single ha), fun hno => absurd (.single ha) (hno a)⟩
    · rw [weights_of_no_edge hfill fun a ha => he ⟨a, ha⟩]
      split_ifs with hij
      · subst hij
        exact ⟨fun d hd => hd.le _ (.nil i), fun hno => absurd (.nil i) (hno 0)⟩
      · exact ⟨fun d hd => (hlt i j d hd).le, fun _ => le_rfl⟩
  edge := fun i j a ha _ => (weights_of_edge hfill ha).le
  apart := by
    intro i j hno
    rw [weights_of_no_edge hfill fun a ha => hno a (.single ha)]
    split_ifs <;> decide

include hfill hpos in
/-- `shortest_path` ends with the distances. -/
lemma shortestPath_spec (hlt : ∀ i j d, IsDist (t.Edge v) i j d → d < infiniteLatency)
    (hmax : ∀ i j a, t.Edge v i j a → a < 2 ^ 30) :
    ∃ dist N, (∀ fuel ≥ N, t.shortestPath fuel w v = .ok dist) ∧ Distances (t.Edge v) dist ∧
      ∀ i, (∀ a, ¬ t.Edge v i i a) → dist i i = 0 := by
  obtain ⟨m, N, h1, h2, h3⟩ := extendShortestPath_spec
    (m := ⟨w.weights v, w.latencies v, fun _ _ => 0⟩) (edge_pos (v := v) hpos) hlt edge_lt (weights_lt hfill hmax)
    (starts hfill hpos hlt)
  refine ⟨m.dist, N, fun fuel hf => ?_, h2, fun i hi => h3 i ?_⟩
  · rw [shortestPath, h1 fuel hf]
    rfl
  grind [weights_of_no_edge]

end Distances

end Topology

end Gem5.Garnet
