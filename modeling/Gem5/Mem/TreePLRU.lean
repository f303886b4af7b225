import Gem5.Lib.Except
import Gem5.Lib.Turns

/-!
# Tree-PLRU replacement

`TreePLRU` of `mem/cache/replacement_policies/tree_plru_rp.cc`. A tree is a vector of bits without its leaves; a bit says
which half is replaced next. `touch` and `invalidate` climb from a leaf to the root, `getVictim` follows the bits from the
root to a leaf. A vector is read and written with `at`, which throws; a loop that goes on after as many turns as there are
indices is a fault of its own.

With the indices counted from one, the ancestors of `i` are the quotients of `i` by powers of two, and what a climb does
is said about these (`climb_spec`). From that follow where the victims are (**`victim_selection`**) and, for a
complete tree, that the rounds visit all leaves (`Turns.visits_perm`, for trees with turns in general). A policy for a single
leaf has a tree without bits, and cannot touch it (`single_leaf_fails`).
-/

namespace Gem5.Mem

open Lib List Nat

namespace TreePLRU

inductive TreeFault where
  /-- `std::out_of_range`, from the tree. -/
  | outOfRange
  /-- `std::out_of_range`, from the replacement candidates. -/
  | noCandidate
  /-- A loop does not end. -/
  | loops
  deriving DecidableEq, Repr

/-- `parentIndex(index)`: at 0, `index - 1` wraps around, and `std::floor` rounds its half to the next `double`. -/
def parentIndex (index : ℕ) : ℕ := if index = 0 then 2 ^ 63 else (index - 1) / 2

def leftSubtreeIndex (index : ℕ) : ℕ := 2 * index + 1

def rightSubtreeIndex (index : ℕ) : ℕ := 2 * index + 2

def isRightSubtree (index : ℕ) : Bool := index % 2 == 0

/-- The loop of `touch` and `invalidate`: each ancestor gets the bit `point right`. -/
def climb (point : Bool → Bool) : ℕ → ℕ → List Bool → Except TreeFault (List Bool)
  | 0, _, _ => .error .loops
  | fuel + 1, index, tree =>
    let right := isRightSubtree index
    let index := parentIndex index
    if index < tree.length then
      if index = 0 then .ok (tree.set index (point right)) else climb point fuel index (tree.set index (point right))
    else .error .outOfRange

/-- The loop of `getVictim`. -/
def descend (tree : List Bool) : ℕ → ℕ → Except TreeFault ℕ
  | 0, _ => .error .loops
  | fuel + 1, index =>
    if index < tree.length then
      descend tree fuel (if tree.getD index false then rightSubtreeIndex index else leftSubtreeIndex index)
    else .ok index

variable (numLeaves : ℕ)

def leafIndex (leaf : ℕ) : ℕ := leaf + (numLeaves - 1)

/-- `invalidate`, for the leaf with that index. -/
def invalidate (index : ℕ) (tree : List Bool) : Except TreeFault (List Bool) := climb id (index + 1) index tree

/-- `touch`, for the leaf with that index. -/
def touch (index : ℕ) (tree : List Bool) : Except TreeFault (List Bool) := climb (!·) (index + 1) index tree

/-- `getVictim`: the number of the candidate, out of so many. The difference of the indices would wrap around. -/
def getVictim (candidates : ℕ) (tree : List Bool) : Except TreeFault ℕ := do
  let index ← descend tree (tree.length + 1) 0
  ensure (numLeaves - 1 ≤ index && index - (numLeaves - 1) < candidates) .noCandidate
  .ok (index - (numLeaves - 1))

/-- Rounds of `getVictim` and a `touch` of the victim. -/
def rounds : ℕ → List Bool → Except TreeFault (List ℕ)
  | 0, _ => .ok []
  | k + 1, tree => do
    let victim ← getVictim numLeaves numLeaves tree
    let tree ← touch (leafIndex numLeaves victim) tree
    let rest ← rounds k tree
    .ok (victim :: rest)

/-! ### Climbing -/

variable {point : Bool → Bool} {tree : List Bool} {fuel i : ℕ} {numLeaves}

/-- What a climb from `i` makes of a tree: the ancestors are set, the other bits are kept. -/
structure Climbed (point : Bool → Bool) (i : ℕ) (tree tree' : List Bool) : Prop where
  length : tree'.length = tree.length
  ancestor : ∀ e p, (i + 1) / 2 ^ (e + 1) = p + 1 → tree'.getD p false = point ((i + 1) / 2 ^ e % 2 == 1)
  other : ∀ p, (∀ e, (i + 1) / 2 ^ (e + 1) ≠ p + 1) → tree'.getD p false = tree.getD p false

lemma div_two_pow_succ (k e : ℕ) : k / 2 ^ (e + 1) = k / 2 / 2 ^ e := by
  rw [Nat.pow_succ', Nat.div_div_eq_div_mul]

lemma half_div (k e : ℕ) : k / 2 ^ (e + 1) = k / 2 ^ e / 2 := by rw [Nat.pow_succ, Nat.div_div_eq_div_mul]

lemma div_two_pow_ne (k e : ℕ) : (k + 1) / 2 ^ (e + 1) ≠ k + 1 :=
  Nat.ne_of_lt (Nat.div_lt_self (Nat.succ_pos k) (Nat.one_lt_two_pow (Nat.succ_ne_zero e)))

lemma climb_spec (hi : 0 < i) (hlen : i ≤ 2 * tree.length) (hfuel : i < fuel) :
    ∃ tree', climb point fuel i tree = .ok tree' ∧ Climbed point i tree tree' := by
  induction fuel generalizing i tree with
  | zero => exact absurd hfuel (not_lt_zero i)
  | succ fuel ih =>
    obtain ⟨q, hq⟩ : ∃ q, parentIndex i = q ∧ (i + 1) / 2 = q + 1 := ⟨_, rfl, by rw [parentIndex]; split_ifs <;> omega⟩
    have hright : isRightSubtree i = ((i + 1) % 2 == 1) := by
      rw [isRightSubtree, Bool.eq_iff_iff, beq_iff_eq, beq_iff_eq]
      omega
    have hset : ∀ p b, (tree.set q b).getD p false = if p = q then b else tree.getD p false := fun p b => by
      by_cases hp : p = q
      · subst hp
        simp [getD_eq_getElem?_getD, show p < tree.length by omega]
      · simp [getD_eq_getElem?_getD, hp, Ne.symm hp]
    rw [climb, hq.1, hright, if_pos (by omega)]
    by_cases h0 : q = 0
    · -- the root is the only ancestor
      refine ⟨_, if_pos h0, length_set, fun e p he => ?_, fun p hp => ?_⟩
      · rw [div_two_pow_succ, hq.2, h0] at he
        cases e with
        | zero =>
          rw [hset, if_pos (by simpa [h0] using he.symm)]
          simp
        | succ e =>
          rw [Nat.div_eq_of_lt (Nat.one_lt_two_pow (Nat.succ_ne_zero e))] at he
          cases he
      · have := hp 0
        rw [hset, if_neg (by rintro rfl; exact this (by simpa using hq.2))]
    · obtain ⟨tree', htree', hlen', hanc, hother⟩ :=
        @ih (tree.set q (point ((i + 1) % 2 == 1))) q (by omega) (by simp; omega) (by omega)
      refine ⟨tree', by rw [if_neg h0, htree'], by simpa using hlen', fun e p he => ?_, fun p hp => ?_⟩
      · rw [div_two_pow_succ, hq.2] at he
        cases e with
        | zero =>
          obtain rfl : q = p := by simpa using he
          rw [hother q fun e => div_two_pow_ne q e, hset, if_pos rfl]
          simp
        | succ e =>
          rw [hanc e p he, div_two_pow_succ, hq.2]
      · rw [hother p fun e he => hp (e + 1) (by rw [div_two_pow_succ, hq.2, he]), hset, if_neg]
        rintro rfl
        exact hp 0 (by simpa using hq.2)

/-! ### Descending -/

lemma descend_spec (hi : i ≤ 2 * tree.length) (hpos : 0 < fuel) (hfuel : tree.length < fuel + i) :
    ∃ j, descend tree fuel i = .ok j ∧ tree.length ≤ j ∧ j ≤ 2 * tree.length ∧ ∃ d, (j + 1) / 2 ^ d = i + 1 ∧
      ∀ e < d, tree.getD ((j + 1) / 2 ^ (e + 1) - 1) false = ((j + 1) / 2 ^ e % 2 == 1) := by
  induction fuel generalizing i with
  | zero => exact absurd hpos (lt_irrefl 0)
  | succ fuel ih =>
    rw [descend]
    by_cases h : i < tree.length
    · obtain ⟨c, hc, hbit, hhalf⟩ : ∃ c, (if tree.getD i false then rightSubtreeIndex i else leftSubtreeIndex i) = c ∧
          tree.getD i false = ((c + 1) % 2 == 1) ∧ (c + 1) / 2 = i + 1 := by
        refine ⟨_, rfl, ?_⟩
        cases tree.getD i false with
        | false => exact ⟨by simp [leftSubtreeIndex]; omega, by simp [leftSubtreeIndex]; omega⟩
        | true => exact ⟨by simp [rightSubtreeIndex]; omega, by simp [rightSubtreeIndex]; omega⟩
      obtain ⟨j, hj, hle, hle', d, hd, hbits⟩ := ih (i := c) (by omega) (by omega) (by omega)
      have hup : (j + 1) / 2 ^ (d + 1) = i + 1 := by rw [half_div, hd, hhalf]
      refine ⟨j, by rw [if_pos h, hc, hj], hle, hle', d + 1, hup, fun e he => ?_⟩
      rcases Nat.lt_succ_iff_lt_or_eq.mp he with he | rfl
      · exact hbits e he
      · rw [hup, hd, Nat.add_sub_cancel, hbit]
    · exact ⟨i, if_neg h, Nat.le_of_not_lt h, hi, 0, by simp, nofun⟩

lemma descend_along (hle : tree.length ≤ i) (hi : i ≤ 2 * tree.length) {d : ℕ} (hd : 2 ^ d ≤ i + 1) (hfuel : d < fuel)
    (hbits : ∀ e < d, tree.getD ((i + 1) / 2 ^ (e + 1) - 1) false = ((i + 1) / 2 ^ e % 2 == 1)) :
    descend tree fuel ((i + 1) / 2 ^ d - 1) = .ok i := by
  induction d generalizing fuel with
  | zero =>
    obtain ⟨fuel, rfl⟩ : ∃ f, fuel = f + 1 := ⟨fuel - 1, by omega⟩
    simp [descend, not_lt.mpr hle]
  | succ d ih =>
    obtain ⟨fuel, rfl⟩ : ∃ f, fuel = f + 1 := ⟨fuel - 1, by omega⟩
    obtain ⟨q, hq⟩ : ∃ q, (i + 1) / 2 ^ d = q := ⟨_, rfl⟩
    have hup : (i + 1) / 2 ^ (d + 1) = q / 2 := by rw [half_div, hq]
    have hpos : 0 < q / 2 := hup ▸ Nat.div_pos hd (Nat.two_pow_pos _)
    have hlt : q ≤ i + 1 := hq ▸ div_le_self ..
    have hbit := hbits d (lt_succ_self d)
    rw [hup, hq] at hbit
    have hnext : (if (q % 2 == 1) = true then rightSubtreeIndex (q / 2 - 1) else leftSubtreeIndex (q / 2 - 1)) = q - 1 := by
      simp only [beq_iff_eq, leftSubtreeIndex, rightSubtreeIndex]
      split_ifs <;> omega
    have := @ih fuel (Nat.le_trans (Nat.pow_le_pow_right Nat.two_pos d.le_succ) hd) (by omega)
      fun e he => hbits e (lt_succ_of_lt he)
    rwa [hup, descend, if_pos (by omega), hbit, hnext, ← hq]

lemma depth_le {d k : ℕ} (h : 2 ^ d ≤ 2 * k + 1) : d ≤ k := by
  cases d with
  | zero => exact zero_le k
  | succ d =>
    have := Nat.lt_two_pow_self (n := d)
    rw [pow_succ] at h
    omega

/-! ### Victims -/

variable {x : ℕ}

lemma getVictim_spec (hlen : tree.length = numLeaves - 1) (hn : 1 ≤ numLeaves) :
    ∃ v < numLeaves, descend tree (tree.length + 1) 0 = .ok (leafIndex numLeaves v) ∧
      ∀ candidates, getVictim numLeaves candidates tree = if v < candidates then .ok v else .error .noCandidate := by
  obtain ⟨j, hj, hle, hle', -⟩ := descend_spec (zero_le (2 * tree.length)) tree.length.succ_pos (by omega)
  obtain ⟨v, rfl⟩ : ∃ v, j = leafIndex numLeaves v := ⟨j - (numLeaves - 1), by rw [leafIndex]; omega⟩
  rw [leafIndex] at hle'
  refine ⟨v, by omega, hj, fun candidates => ?_⟩
  rw [getVictim, hj]
  exact (ensure_bind ..).trans (by simp [leafIndex])

lemma climb_leaf (point : Bool → Bool) (hlen : tree.length = numLeaves - 1) (hn : 2 ≤ numLeaves) (hx : x < numLeaves) :
    ∃ tree', climb point (leafIndex numLeaves x + 1) (leafIndex numLeaves x) tree = .ok tree' ∧
      Climbed point (leafIndex numLeaves x) tree tree' :=
  climb_spec (by rw [leafIndex]; omega) (by rw [leafIndex]; omega) (lt_succ_self _)

lemma victim_ne_of_touch (hn : 2 ≤ numLeaves) {v : ℕ} {tree' : List Bool} (hlen : tree'.length = numLeaves - 1)
    (hv : descend tree' (tree'.length + 1) 0 = .ok (leafIndex numLeaves v))
    (h : Climbed (!·) (leafIndex numLeaves x) tree tree') : v ≠ x := by
  rintro rfl
  obtain ⟨j, hj, hle, -, d, hd, hbits⟩ := descend_spec (zero_le (2 * tree'.length)) tree'.length.succ_pos (by omega)
  obtain rfl : leafIndex numLeaves v = j := Except.ok.inj (hv.symm.trans hj)
  cases d with
  | zero =>
    rw [Nat.pow_zero, Nat.div_one] at hd
    omega
  | succ d =>
    have h1 := hbits d (lt_succ_self d)
    rw [hd, h.ancestor d 0 hd] at h1
    simp at h1

lemma descend_of_invalidate {tree' : List Bool} (hlen : tree'.length = numLeaves - 1) (hx : x < numLeaves)
    (h : Climbed id (leafIndex numLeaves x) tree tree') :
    descend tree' (tree'.length + 1) 0 = .ok (leafIndex numLeaves x) := by
  obtain ⟨i, hi⟩ : ∃ i, leafIndex numLeaves x = i := ⟨_, rfl⟩
  have hle : tree'.length ≤ i ∧ i ≤ 2 * tree'.length := by rw [← hi, leafIndex]; omega
  have hlog : 2 ^ log 2 (i + 1) ≤ i + 1 := pow_log_le_self 2 (succ_ne_zero i)
  have hlog' : i + 1 < 2 * 2 ^ log 2 (i + 1) := pow_succ' ▸ lt_pow_succ_log_self one_lt_two (i + 1)
  have hdepth : log 2 (i + 1) ≤ tree'.length := depth_le (le_trans hlog (by omega))
  have hroot : (i + 1) / 2 ^ Nat.log 2 (i + 1) = 1 := Nat.div_eq_of_lt_le (by omega) (by omega)
  rw [hi] at h ⊢
  rw [← descend_along hle.1 hle.2 hlog (lt_succ_of_le hdepth) fun e he => ?_, hroot]
  have : 0 < (i + 1) / 2 ^ (e + 1) :=
    Nat.div_pos (Nat.le_trans (Nat.pow_le_pow_right Nat.two_pos he) hlog) (Nat.two_pow_pos _)
  exact h.ancestor e _ (Nat.sub_add_cancel this).symm

/-! ### Complete trees -/

/-- The bits below an index, as a tree of height `h`. -/
def turns (tree : List Bool) : (h : ℕ) → ℕ → Turns h
  | 0, _ => .leaf
  | h + 1, index =>
    .node (tree.getD index false) (turns tree h (leftSubtreeIndex index)) (turns tree h (rightSubtreeIndex index))

variable {h m : ℕ}

lemma descend_turns (hi : m ≤ i + 1) (hi' : i + 1 < 2 * m) (hlen : tree.length + 1 = m * 2 ^ h) (hfuel : h < fuel) :
    descend tree fuel i = .ok ((i + 1) * 2 ^ h + (turns tree h i).first - 1) := by
  induction h generalizing i m fuel with
  | zero =>
    obtain ⟨fuel, rfl⟩ : ∃ f, fuel = f + 1 := ⟨fuel - 1, by omega⟩
    rw [descend, if_neg (by omega)]
    simp [turns, Turns.first]
  | succ h ih =>
    obtain ⟨fuel, rfl⟩ : ∃ f, fuel = f + 1 := ⟨fuel - 1, by omega⟩
    rw [pow_succ', ← mul_assoc, mul_comm m] at hlen
    have hpos : 2 * m * 1 ≤ 2 * m * 2 ^ h := Nat.mul_le_mul_left _ (Nat.two_pow_pos h)
    rw [descend, if_pos (by omega), turns, Turns.first]
    cases tree.getD i false with
    | false =>
      refine (ih (m := 2 * m) (by simp [leftSubtreeIndex]; omega) (by simp [leftSubtreeIndex]; omega) hlen (by omega)).trans ?_
      simp [leftSubtreeIndex, Nat.pow_succ', show 2 * i + 1 + 1 = 2 * (i + 1) by omega, Nat.mul_left_comm, Nat.mul_assoc]
    | true =>
      refine (ih (m := 2 * m) (by simp [rightSubtreeIndex]; omega) (by simp [rightSubtreeIndex]; omega) hlen (by omega)).trans ?_
      have : (2 * i + 2 + 1) * 2 ^ h = (i + 1) * (2 * 2 ^ h) + 2 ^ h := by ring
      simp [rightSubtreeIndex, Nat.pow_succ', this, Nat.add_assoc]

lemma div_two_pow_inj {k e f : ℕ} (h : k / 2 ^ e = k / 2 ^ f) (hpos : 0 < k / 2 ^ e) : e = f := by
  have key : ∀ {e f}, e < f → 0 < k / 2 ^ e → k / 2 ^ f < k / 2 ^ e := fun {e f} hlt hpos => by
    obtain ⟨d, rfl⟩ := Nat.exists_eq_add_of_lt hlt
    rw [Nat.add_assoc, Nat.pow_add, ← Nat.div_div_eq_div_mul]
    exact Nat.div_lt_self hpos (Nat.one_lt_two_pow (Nat.succ_ne_zero d))
  rcases lt_trichotomy e f with hlt | heq | hgt
  · exact absurd h.symm (Nat.ne_of_lt (key hlt hpos))
  · exact heq
  · exact absurd h (Nat.ne_of_lt (key hgt (h ▸ hpos)))

lemma turns_frame {j : ℕ} {tree' : List Bool} (hc : Climbed point j tree tree')
    (hne : ∀ e, (j + 1) / 2 ^ e ≠ i + 1) : turns tree' h i = turns tree h i := by
  induction h generalizing i with
  | zero => rfl
  | succ h ih =>
    have up : ∀ c, (c + 1) / 2 = i + 1 → ∀ e, (j + 1) / 2 ^ e ≠ c + 1 := fun c hc e he => hne (e + 1) (by
      rw [half_div, he, hc])
    rw [turns, turns, hc.other i fun e => hne (e + 1), ih (up _ (by rw [leftSubtreeIndex]; omega)),
      ih (up _ (by rw [rightSubtreeIndex]; omega))]

lemma turns_touch {j : ℕ} {tree' : List Bool} (hc : Climbed (!·) j tree tree')
    (hj : j + 1 = (i + 1) * 2 ^ h + (turns tree h i).first) : turns tree' h i = (turns tree h i).turn := by
  induction h generalizing i with
  | zero => rfl
  | succ h ih =>
    -- `c` is the child on the way to the leaf, `c'` the other one
    have side : ∀ {c c'}, (c + 1) / 2 = i + 1 → (c' + 1) / 2 = i + 1 → c ≠ c' →
        j + 1 = (c + 1) * 2 ^ h + (turns tree h c).first →
        tree'.getD i false = !((c + 1) % 2 == 1) ∧ turns tree' h c = (turns tree h c).turn ∧
          turns tree' h c' = turns tree h c' := fun {c c'} h2 h2' hne hj => by
      have hdiv : (j + 1) / 2 ^ h = c + 1 := by
        rw [hj, Nat.add_comm, Nat.add_mul_div_right _ _ (Nat.two_pow_pos h), Nat.div_eq_of_lt (Turns.first_lt _), Nat.zero_add]
      have hup : (j + 1) / 2 ^ (h + 1) = i + 1 := by rw [half_div, hdiv, h2]
      refine ⟨by rw [hc.ancestor h i hup, hdiv], ih hj, turns_frame hc fun e he => ?_⟩
      have hup' : (j + 1) / 2 ^ (e + 1) = i + 1 := by rw [half_div, he, h2']
      have : h + 1 = e + 1 := div_two_pow_inj (hup.trans hup'.symm) (by omega)
      rw [succ.inj this, he] at hdiv
      exact hne (succ.inj hdiv.symm)
    have hl : (leftSubtreeIndex i + 1) / 2 = i + 1 := by rw [leftSubtreeIndex]; omega
    have hr : (rightSubtreeIndex i + 1) / 2 = i + 1 := by rw [rightSubtreeIndex]; omega
    have hlr : leftSubtreeIndex i ≠ rightSubtreeIndex i := by rw [leftSubtreeIndex, rightSubtreeIndex]; omega
    rw [turns, Turns.first] at hj
    rw [turns, turns, Turns.turn]
    cases hb : tree.getD i false with
    | false =>
      rw [hb] at hj
      obtain ⟨h1, h2, h3⟩ := side hl hr hlr (hj.trans (by simp [leftSubtreeIndex]; ring))
      rw [h1, h2, h3]
      simp [leftSubtreeIndex, add_assoc]
    | true =>
      rw [hb] at hj
      obtain ⟨h1, h2, h3⟩ := side hr hl hlr.symm (hj.trans (by simp [rightSubtreeIndex]; ring))
      rw [h1, h2, h3]
      simp [rightSubtreeIndex, add_assoc]

lemma rounds_eq (k : ℕ) (hlen : tree.length + 1 = 2 ^ (h + 1)) :
    rounds (2 ^ (h + 1)) k tree = .ok ((turns tree (h + 1) 0).visits k) := by
  induction k generalizing tree with
  | zero => rfl
  | succ k ih =>
    have hpow : 2 ≤ 2 ^ (h + 1) := Nat.pow_le_pow_right Nat.two_pos (Nat.succ_pos h)
    have hlen' : tree.length = 2 ^ (h + 1) - 1 := by omega
    obtain ⟨v, hv, hdesc, hget⟩ := getVictim_spec hlen' (by omega)
    obtain ⟨tree', htouch, hc⟩ := climb_leaf (!·) hlen' hpow hv
    have hlog : h + 1 < tree.length + 1 := hlen ▸ Nat.lt_two_pow_self
    rw [descend_turns (m := 1) (le_refl 1) (by omega) (by omega) hlog] at hdesc
    have hidx := Except.ok.inj hdesc
    have hfirst : v = (turns tree (h + 1) 0).first := by
      rw [leafIndex] at hidx
      omega
    have hrest := ih (hc.length.symm ▸ hlen)
    rw [turns_touch (i := 0) hc (by omega)] at hrest
    rw [rounds, Turns.visits, ← hfirst]
    exact bind_eq_ok.mpr ⟨v, (hget _).trans (if_pos hv), bind_eq_ok.mpr ⟨tree', htouch, bind_eq_ok.mpr ⟨_, hrest, rfl⟩⟩⟩

/-- Where the victims are: below the number of leaves, not a leaf that was just touched, a leaf that was just invalidated;
and each leaf once in as many rounds as a complete tree has leaves. -/
theorem victim_selection (hn : 2 ≤ numLeaves) (hlen : tree.length = numLeaves - 1) :
    (∃ v < numLeaves, getVictim numLeaves numLeaves tree = .ok v) ∧
    (∀ x < numLeaves, ∃ tree', touch (leafIndex numLeaves x) tree = .ok tree' ∧ tree'.length = numLeaves - 1 ∧
      ∃ v, getVictim numLeaves numLeaves tree' = .ok v ∧ v ≠ x) ∧
    (∀ x < numLeaves, ∃ tree', invalidate (leafIndex numLeaves x) tree = .ok tree' ∧ tree'.length = numLeaves - 1 ∧
      getVictim numLeaves numLeaves tree' = .ok x) ∧
    (∀ k, numLeaves = 2 ^ k → ∃ vs, rounds numLeaves numLeaves tree = .ok vs ∧ vs ~ range numLeaves) := by
  refine ⟨?_, fun x hx => ?_, fun x hx => ?_, fun k hk => ?_⟩
  · obtain ⟨v, hv, -, hget⟩ := getVictim_spec hlen (by omega)
    exact ⟨v, hv, (hget _).trans (if_pos hv)⟩
  · obtain ⟨tree', htouch, hc⟩ := climb_leaf (!·) hlen hn hx
    have hlen' := hc.length.trans hlen
    obtain ⟨v, hv, hdesc, hget⟩ := getVictim_spec hlen' (by omega)
    exact ⟨tree', htouch, hlen', v, (hget _).trans (if_pos hv), victim_ne_of_touch hn hlen' hdesc hc⟩
  · obtain ⟨tree', hinv, hc⟩ := climb_leaf id hlen hn hx
    have hlen' := hc.length.trans hlen
    obtain ⟨v, hv, hdesc, hget⟩ := getVictim_spec hlen' (by omega)
    obtain rfl : v = x := Nat.add_right_cancel (Except.ok.inj (hdesc.symm.trans (descend_of_invalidate hlen' hx hc)))
    exact ⟨tree', hinv, hlen', (hget _).trans (if_pos hv)⟩
  · subst hk
    cases k with
    | zero => simp at hn
    | succ k => exact ⟨_, rounds_eq _ (by omega), Turns.visits_perm _⟩

theorem victim_selection_four : 2 ≤ 4 ∧ rounds 4 4 [true, false, true] = .ok [3, 0, 2, 1] ∧
    ∃ vs, rounds 4 4 [true, false, true] = .ok vs ∧ vs ~ range 4 :=
  ⟨by decide, by decide, (victim_selection (by decide) rfl).2.2.2 2 rfl⟩

/-! ### The policy -/

/-- The trees and the replacement data handed out: the tree of each and its index there. -/
structure Policy where
  count : ℕ := 0
  trees : List (List Bool) := []
  entries : List (ℕ × ℕ) := []

/-- `instantiateEntry`. `treeInstance` is the last tree. -/
def instantiateEntry (numLeaves : ℕ) (s : Policy) : Policy :=
  let trees := if s.count % numLeaves = 0 then s.trees ++ [replicate (numLeaves - 1) false] else s.trees
  { count := s.count + 1, trees, entries := s.entries ++ [(trees.length - 1, s.count % numLeaves + numLeaves - 1)] }

/-- The calls of a policy, for replacement data by its number. `reset` is a `touch`. -/
inductive Call where
  | instantiateEntry
  | invalidate (entry : ℕ)
  | touch (entry : ℕ)
  | getVictim (first : ℕ) (others : List ℕ)

/-- A call is about replacement data that was handed out. -/
def Call.Valid (s : Policy) : Call → Prop
  | .instantiateEntry => True
  | .invalidate entry | .touch entry | .getVictim entry _ => entry < s.entries.length

def Policy.climb (point : Bool → Bool) (entry : ℕ) (s : Policy) : Except TreeFault Policy :=
  let e := s.entries.getD entry default
  (TreePLRU.climb point (e.2 + 1) e.2 (s.trees.getD e.1 [])).map fun t => { s with trees := s.trees.set e.1 t }

def Call.run (numLeaves : ℕ) (s : Policy) : Call → Except TreeFault Policy
  | .instantiateEntry => .ok (TreePLRU.instantiateEntry numLeaves s)
  | .invalidate entry => s.climb id entry
  | .touch entry => s.climb (!·) entry
  | .getVictim first others =>
    (TreePLRU.getVictim numLeaves (others.length + 1) (s.trees.getD (s.entries.getD first default).1 [])).map fun _ => s

inductive Reachable (numLeaves : ℕ) : Policy → Prop where
  | init : Reachable numLeaves {}
  | step {s s' : Policy} {c : Call} (h : Reachable numLeaves s) (hc : c.Valid s) (hrun : c.run numLeaves s = .ok s') :
      Reachable numLeaves s'

/-- The trees have their size, and the replacement data is for leaves of them. -/
structure Policy.Fits (numLeaves : ℕ) (s : Policy) : Prop where
  tree : ∀ t ∈ s.trees, t.length = numLeaves - 1
  entry : ∀ e ∈ s.entries, e.1 < s.trees.length ∧ ∃ x < numLeaves, e.2 = leafIndex numLeaves x
  started : s.count ≠ 0 → s.trees ≠ []

section Fits

variable {s s' : Policy} {entry : ℕ}

section

variable (hs : s.Fits numLeaves)
include hs

lemma Policy.Fits.lookup (he : entry < s.entries.length) : (s.entries.getD entry default).1 < s.trees.length ∧
      (s.trees.getD (s.entries.getD entry default).1 []).length = numLeaves - 1 ∧
      ∃ x < numLeaves, (s.entries.getD entry default).2 = leafIndex numLeaves x := by
  obtain ⟨hlt, hx⟩ := hs.entry (s.entries.getD entry default) (by simp [getD_eq_getElem?_getD, he])
  refine ⟨hlt, hs.tree _ ?_, hx⟩
  rw [getD_eq_getElem?_getD, getElem?_eq_getElem hlt]
  exact getElem_mem hlt

lemma Policy.Fits.climb (hn : 2 ≤ numLeaves) (he : entry < s.entries.length) (point : Bool → Bool) :
    ∃ s', s.climb point entry = .ok s' ∧ s'.Fits numLeaves := by
  obtain ⟨-, hlen, x, hx, hindex⟩ := hs.lookup he
  obtain ⟨t, ht, hc⟩ := climb_leaf point hlen hn hx
  refine ⟨_, by rw [Policy.climb, hindex, ht]; rfl, fun t' ht' => ?_, fun e he => ?_, fun h => ?_⟩
  · rcases mem_or_eq_of_mem_set ht' with h | rfl
    · exact hs.tree t' h
    · exact hc.length.trans hlen
  · simpa using hs.entry e he
  · simpa using hs.started h

lemma Policy.Fits.instantiateEntry (hn : 1 ≤ numLeaves) : (instantiateEntry numLeaves s).Fits numLeaves := by
  have hmod := mod_lt s.count hn
  by_cases h0 : s.count % numLeaves = 0
  · refine ⟨fun t ht => ?_, fun e he => ?_, fun _ => ?_⟩ <;> simp only [TreePLRU.instantiateEntry, h0, if_true] at *
    · rcases mem_append.mp ht with h | h
      · exact hs.tree t h
      · rw [mem_singleton.mp h, length_replicate]
    · rcases mem_append.mp he with h | h
      · obtain ⟨hlt, hx⟩ := hs.entry e h
        exact ⟨by simp; omega, hx⟩
      · rw [mem_singleton.mp h]
        exact ⟨by simp, 0, hn, by rw [leafIndex]; omega⟩
    · simp
  · have hne : s.trees ≠ [] := hs.started fun h => h0 (by rw [h, zero_mod])
    refine ⟨fun t ht => ?_, fun e he => ?_, fun _ => ?_⟩ <;> simp only [TreePLRU.instantiateEntry, h0, if_false] at *
    · exact hs.tree t ht
    · rcases mem_append.mp he with h | h
      · exact hs.entry e h
      · rw [mem_singleton.mp h]
        have := length_pos_iff.mpr hne
        exact ⟨by simp; omega, _, hmod, by rw [leafIndex]; omega⟩
    · exact hne

lemma Policy.Fits.run (hn : 2 ≤ numLeaves) {c : Call} (hc : c.Valid s) :
    (∃ s', c.run numLeaves s = .ok s' ∧ s'.Fits numLeaves) ∨ ∃ first others, c = .getVictim first others ∧
      others.length + 1 < numLeaves ∧ c.run numLeaves s = .error .noCandidate := by
  cases c with
  | instantiateEntry => exact .inl ⟨_, rfl, hs.instantiateEntry (by omega)⟩
  | invalidate entry => exact .inl (hs.climb hn hc id)
  | touch entry => exact .inl (hs.climb hn hc (!·))
  | getVictim first others =>
    obtain ⟨-, hlen, -⟩ := hs.lookup hc
    obtain ⟨v, hv, -, hget⟩ := getVictim_spec hlen (by omega)
    by_cases h : v < others.length + 1
    · exact .inl ⟨s, by rw [Call.run, hget, if_pos h]; rfl, hs⟩
    · exact .inr ⟨first, others, rfl, by omega, by rw [Call.run, hget, if_neg h]; rfl⟩

end

end Fits

/-- From two leaves on, no call leaves a tree or does not return. A victim is only missing among fewer candidates than
leaves. -/
theorem stays_inside {s : Policy} (hn : 2 ≤ numLeaves) (h : Reachable numLeaves s) {c : Call} (hc : c.Valid s) :
    (∃ s', c.run numLeaves s = .ok s') ∨ ∃ first others, c = .getVictim first others ∧
      others.length + 1 < numLeaves ∧ c.run numLeaves s = .error .noCandidate := by
  have hs : s.Fits numLeaves := by
    clear hc
    induction h with
    | init => exact ⟨nofun, nofun, fun h => absurd rfl h⟩
    | @step s s' c _ hc hrun ih =>
      rcases ih.run hn hc with ⟨s'', hs'', hfits⟩ | ⟨_, _, _, _, herr⟩
      · rw [hrun] at hs''
        cases hs''
        exact hfits
      · rw [hrun] at herr
        cases herr
  exact (hs.run hn hc).imp_left fun ⟨s', hs', _⟩ => ⟨s', hs'⟩

/-- Of three entries that have all been made, a victim is found. -/
theorem stays_inside_three : ∃ s, Reachable 3 s ∧ ∃ s', (Call.getVictim 0 [1, 2]).run 3 s = .ok s' := by
  have h1 : Reachable 3 (instantiateEntry 3 {}) := .step (c := .instantiateEntry) .init trivial rfl
  have h2 : Reachable 3 (instantiateEntry 3 (instantiateEntry 3 {})) := .step (c := .instantiateEntry) h1 trivial rfl
  have h3 : Reachable 3 (instantiateEntry 3 (instantiateEntry 3 (instantiateEntry 3 {}))) :=
    .step (c := .instantiateEntry) h2 trivial rfl
  refine ⟨_, h3, (stays_inside (by decide) h3 (c := .getVictim 0 [1, 2]) (show 0 < 3 by decide)).resolve_right ?_⟩
  rintro ⟨first, others, hcall, hlen, -⟩
  cases hcall
  exact absurd hlen (by decide)

/-- A policy for a single leaf is accepted, and its entry can neither be touched nor invalidated: the leaf has index `0`, and
the index of its parent wraps around. -/
theorem single_leaf_fails : ∃ s, Reachable 1 s ∧ (Call.touch 0).Valid s ∧ (Call.invalidate 0).Valid s ∧
    (Call.touch 0).run 1 s = .error .outOfRange ∧ (Call.invalidate 0).run 1 s = .error .outOfRange :=
  ⟨instantiateEntry 1 {}, .step (c := .instantiateEntry) .init trivial rfl, Nat.one_pos, Nat.one_pos, rfl, rfl⟩

end TreePLRU

end Gem5.Mem
