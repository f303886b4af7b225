import Gem5.Base.Trie

/-!
# The shape of a trie

What the keys, the masks and the parents of the nodes of a trie have to do with each other (`Shape`): a kid has a longer
prefix, which begins with the one of its parent, and two kids differ in the first bit after it. `Full` is about the nodes
without a value, which have two kids; inside `remove` it holds of all nodes but one.

A change inside the tree is made in a `Context`, the tree around the node that changes: it keeps the shape if it keeps
the key, the mask and the pointers of that node.
-/

namespace Gem5.Base

open Lib List

variable {w : ℕ} {V : Type}

/-! ### Nodes -/

namespace TrieNode

/-- The length of the prefix: the number of bits of the mask. -/
def width (n : TrieNode w V) : ℕ := (range w).countP fun i => n.mask.getMsbD i

variable {n : TrieNode w V} {m : ℕ}

lemma width_eq (h : n.mask = prefixMask w m) (hm : m ≤ w) : n.width = m := by
  have hcount : ∀ k, m ≤ k → (range k).countP (fun i => decide (i < m)) = m := by
    intro k hk
    induction k, hk using Nat.le_induction with
    | base => rw [countP_eq_length.mpr fun i hi => by simpa using hi, length_range]
    | succ k hk ih =>
      rw [range_succ, countP_append, ih, countP_singleton, if_neg (by simpa using hk), Nat.add_zero]
  simp_all [width, getMsbD_prefixMask]

/-- The mask is a prefix, and the key has nothing below it. -/
structure Ok (n : TrieNode w V) : Prop where
  mask : n.mask = prefixMask w n.width
  le : n.width ≤ w
  masked : Masked n.width n.key

lemma ok_of_mask (hm : m ≤ w) (h : n.mask = prefixMask w m) (hk : Masked m n.key) : n.Ok ∧ n.width = m := by
  have hwidth := width_eq h hm
  exact ⟨⟨by rw [hwidth, h], by rw [hwidth]; exact hm, by rw [hwidth]; exact hk⟩, hwidth⟩

lemma Ok.matches_iff (h : n.Ok) {key : BitVec w} : n.matches key = true ↔ Agree n.width key n.key := by
  rw [TrieNode.matches, beq_iff_eq, h.mask, h.masked.eq_iff h.le]

lemma Ok.goesAfter_iff (h : n.Ok) {key : BitVec w} (hm : m ≤ w) :
    goesAfter key (prefixMask w m) n = true ↔ Agree n.width key n.key ∧ n.width ≤ m := by
  rw [goesAfter, Bool.and_eq_true, h.matches_iff, beq_iff_eq, h.mask, prefixMask_and_eq_iff h.le hm]

/-- Nodes that differ in their value only. -/
def Same (n n' : TrieNode w V) : Prop :=
  n'.addr = n.addr ∧ n'.key = n.key ∧ n'.mask = n.mask ∧ n'.parent = n.parent

lemma Same.width {n' : TrieNode w V} (h : Same n n') : n'.width = n.width := by
  rw [TrieNode.width, TrieNode.width, h.2.2.1]

end TrieNode

/-- What a user of a trie stored: the key, cut to the width, and the value; and the handle to it. -/
structure TrieEntry (w : ℕ) (V : Type) where
  handle : ℕ
  key : BitVec w
  width : ℕ
  val : V
  deriving DecidableEq

/-- The entry of a node that has a value. -/
def TrieNode.entryOf (n : TrieNode w V) : Option (TrieEntry w V) :=
  n.value.map fun val => { handle := n.addr, key := n.key, width := n.width, val }

lemma TrieNode.entryOf_eq_some {n : TrieNode w V} {e : TrieEntry w V} :
    n.entryOf = some e ↔ e.handle = n.addr ∧ e.key = n.key ∧ e.width = n.width ∧ n.value = some e.val := by
  rw [entryOf, Option.map_eq_some_iff]
  constructor
  · grind
  · rintro ⟨hh, hk, hw, hv⟩
    exact ⟨e.val, hv, by rw [← hh, ← hk, ← hw]⟩

/-! ### Trees -/

namespace TrieTree

open TrieNode

/-- The nodes of a tree, a node before those below it. -/
def nodes : TrieTree w V → List (TrieNode w V)
  | null => []
  | node n k0 k1 => n :: (k0.nodes ++ k1.nodes)

def addrs (t : TrieTree w V) : List ℕ := t.nodes.map (·.addr)

@[simp] lemma addrs_null : (null : TrieTree w V).addrs = [] := rfl

@[simp] lemma addrs_node (n : TrieNode w V) (k0 k1 : TrieTree w V) :
    (node n k0 k1).addrs = n.addr :: (k0.addrs ++ k1.addrs) := by
  simp [addrs, nodes]

def entries (t : TrieTree w V) : List (TrieEntry w V) := t.nodes.filterMap entryOf

@[simp] lemma entries_null : (null : TrieTree w V).entries = [] := rfl

@[simp] lemma entries_node (n : TrieNode w V) (k0 k1 : TrieTree w V) :
    (node n k0 k1).entries = n.entryOf.toList ++ (k0.entries ++ k1.entries) := by grind [entries, nodes]

@[simp] lemma addrs_setParent (a : ℕ) (t : TrieTree w V) : (t.setParent a).addrs = t.addrs := by
  cases t <;> simp [setParent]

@[simp] lemma entries_setParent (a : ℕ) (t : TrieTree w V) : (t.setParent a).entries = t.entries := by
  cases t with
  | null => rfl
  | node n k0 k1 =>
    rw [setParent, entries_node, entries_node]
    rfl

/-- `n` can be the parent of the tree. -/
def Below (n : TrieNode w V) : TrieTree w V → Prop
  | null => True
  | node kn _ _ => kn.parent = some n.addr ∧ n.width < kn.width ∧ Agree n.width kn.key n.key

/-- The two trees can be kids of a node with a prefix of length `b`, in this order. -/
def Kids (b : ℕ) : TrieTree w V → TrieTree w V → Prop
  | _, null => True
  | null, node _ _ _ => False
  | node m _ _, node n _ _ => m.key.getMsbD b ≠ n.key.getMsbD b

/-- How the nodes of a tree hang together. -/
def Shape : TrieTree w V → Prop
  | null => True
  | node n k0 k1 => n.Ok ∧ Below n k0 ∧ Below n k1 ∧ Kids n.width k0 k1 ∧ k0.Shape ∧ k1.Shape

/-- Nodes without a value have two kids, except for those with `x`. -/
def Full (x : ℕ → Prop) : TrieTree w V → Prop
  | null => True
  | node n k0 k1 => (¬ x n.addr → n.value = none → k1 ≠ null) ∧ k0.Full x ∧ k1.Full x

variable {t s s' k0 k1 : TrieTree w V} {n m : TrieNode w V}

lemma Shape.setParent (h : t.Shape) (a : ℕ) : (t.setParent a).Shape := by
  cases t with
  | null => trivial
  | node n k0 k1 =>
    obtain ⟨hok, hrest⟩ := h
    exact ⟨⟨hok.mask, hok.le, hok.masked⟩, hrest⟩

variable {x : ℕ → Prop} {key : BitVec w}

lemma Full.setParent (h : t.Full x) (a : ℕ) : (t.setParent a).Full x := by
  cases t with
  | null => trivial
  | node n k0 k1 => exact h

lemma Shape.agree_of_mem (h : t.Shape) (hb : Below n t) (hm : m ∈ t.nodes) :
    n.width < m.width ∧ Agree n.width m.key n.key := by
  induction t generalizing n with
  | null => cases hm
  | node kn c0 c1 ih0 ih1 =>
    obtain ⟨-, hb0, hb1, -, h0, h1⟩ := h
    obtain ⟨-, hlt, hag⟩ := hb
    have hbelow : m = kn ∨ kn.width < m.width ∧ Agree kn.width m.key kn.key := by
      rcases mem_cons.mp hm with rfl | hm
      · exact .inl rfl
      grind
    rcases hbelow with rfl | ⟨hlt', hag'⟩
    · exact ⟨hlt, hag⟩
    · exact ⟨by omega, (hag'.mono hlt.le).trans hag⟩

/-! ### Lookup -/

lemma Shape.test_matches (h : t.Shape) :
    t.test (·.matches key) = true ↔ ∃ kn c0 c1, t = node kn c0 c1 ∧ Agree kn.width key kn.key := by
  cases t with
  | null => simp [test]
  | node kn c0 c1 =>
    rw [test, h.1.matches_iff]
    simp_all

lemma Shape.test_of_mem (h : t.Shape) (hm : m ∈ t.nodes) (hag : Agree m.width key m.key) :
    t.test (·.matches key) = true := by
  rw [h.test_matches]
  cases t with
  | null => cases hm
  | node kn c0 c1 =>
    refine ⟨kn, c0, c1, rfl, ?_⟩
    obtain ⟨-, hb0, hb1, -, h0, h1⟩ := h
    rcases mem_cons.mp hm with rfl | hm
    · exact hag
    · obtain ⟨hlt, hag'⟩ : kn.width < m.width ∧ Agree kn.width m.key kn.key := by
        rcases mem_append.mp hm with hm | hm
        · exact h0.agree_of_mem hb0 hm
        · exact h1.agree_of_mem hb1 hm
      exact (hag.mono hlt.le).trans hag'

lemma Shape.not_both (h : (node n k0 k1).Shape) (h0 : k0.test (·.matches key) = true) :
    k1.test (·.matches key) = false := by
  obtain ⟨-, hb0, hb1, hkids, hs0, hs1⟩ := h
  by_contra htrue
  rw [Bool.not_eq_false] at htrue
  obtain ⟨m0, _, _, rfl, hag0⟩ := hs0.test_matches.mp h0
  obtain ⟨m1, _, _, rfl, hag1⟩ := hs1.test_matches.mp htrue
  exact hkids ((hag0 _ hb0.2.1).symm.trans (hag1 _ hb1.2.1))

/-- `lookupHandle` finds the node with a value and the shortest prefix that matches, if there is one. -/
lemma Shape.lookupHandle_spec (h : t.Shape) (ht : t.test (·.matches key) = true) :
    (∀ m, t.lookupHandle key = some m → m ∈ t.nodes ∧ m.value ≠ none ∧ Agree m.width key m.key ∧
      ∀ m' ∈ t.nodes, m'.value ≠ none → Agree m'.width key m'.key → m.width ≤ m'.width) ∧
    (t.lookupHandle key = none → ∀ m ∈ t.nodes, m.value ≠ none → ¬ Agree m.width key m.key) := by
  induction t with
  | null => cases ht
  | node n k0 k1 ih0 ih1 =>
    have hshape := h
    obtain ⟨hok, hb0, hb1, -, h0, h1⟩ := h
    rw [test, hok.matches_iff] at ht
    unfold lookupHandle
    cases hv : n.value with
    | some v =>
      -- everything below has a longer prefix
      rw [if_pos (by simp)]
      refine ⟨?_, fun hnone => by cases hnone⟩
      rintro _ ⟨⟩
      refine ⟨mem_cons_self .., by simp [hv], ht, ?_⟩
      intro m' hm' _ _
      rcases mem_cons.mp hm' with rfl | hm'
      · exact le_rfl
      · rcases mem_append.mp hm' with hm' | hm'
        · exact (h0.agree_of_mem hb0 hm').1.le
        · exact (h1.agree_of_mem hb1 hm').1.le
    | none =>
      rw [if_neg (by simp)]
      -- a node that counts is below a kid that matches
      have hcount : ∀ m' ∈ (node n k0 k1).nodes, m'.value ≠ none → Agree m'.width key m'.key →
          m' ∈ k0.nodes ∧ k0.test (·.matches key) = true ∨ m' ∈ k1.nodes ∧ k1.test (·.matches key) = true := by
        intro m' hm' hv' hag
        rcases mem_cons.mp hm' with rfl | hm'
        · exact absurd hv hv'
        grind [Shape.test_of_mem]
      by_cases ht0 : k0.test (·.matches key) = true
      · rw [if_pos ht0]
        have ht1 := hshape.not_both ht0
        have honly : ∀ m' ∈ (node n k0 k1).nodes, m'.value ≠ none → Agree m'.width key m'.key → m' ∈ k0.nodes := by
          grind
        obtain ⟨hsome, hnone⟩ := ih0 h0 ht0
        refine ⟨fun m hm => ?_, fun hn m hm hv' hag => hnone hn m (honly m hm hv' hag) hv' hag⟩
        obtain ⟨hmem, hmv, hag, hmin⟩ := hsome m hm
        exact ⟨mem_cons_of_mem _ (mem_append_left _ hmem), hmv, hag,
          fun m' hm' hv' hag' => hmin m' (honly m' hm' hv' hag') hv' hag'⟩
      · rw [if_neg ht0]
        have honly : ∀ m' ∈ (node n k0 k1).nodes, m'.value ≠ none → Agree m'.width key m'.key →
            m' ∈ k1.nodes ∧ k1.test (·.matches key) = true := by grind
        by_cases ht1 : k1.test (·.matches key) = true
        · rw [if_pos ht1]
          obtain ⟨hsome, hnone⟩ := ih1 h1 ht1
          refine ⟨fun m hm => ?_, fun hn m hm hv' hag => hnone hn m (honly m hm hv' hag).1 hv' hag⟩
          obtain ⟨hmem, hmv, hag, hmin⟩ := hsome m hm
          exact ⟨mem_cons_of_mem _ (mem_append_right _ hmem), hmv, hag,
            fun m' hm' hv' hag' => hmin m' (honly m' hm' hv' hag').1 hv' hag'⟩
        grind

/-! ### Contexts -/

/-- The first nodes differ in their values only. -/
def SameRoot : TrieTree w V → TrieTree w V → Prop
  | node n _ _, node n' _ _ => Same n n'
  | _, _ => False

inductive Context : (TrieTree w V → TrieTree w V) → Prop where
  | hole : Context fun s => s
  | left {C : TrieTree w V → TrieTree w V} (n : TrieNode w V) (k1 : TrieTree w V) :
      Context C → Context fun s => node n (C s) k1
  | right {C : TrieTree w V → TrieTree w V} (n : TrieNode w V) (k0 : TrieTree w V) :
      Context C → Context fun s => node n k0 (C s)

variable {C : TrieTree w V → TrieTree w V}

lemma Context.inLeft (hC : Context C) (n : TrieNode w V) (k1 : TrieTree w V) : Context fun s => C (node n s k1) := by
  induction hC with
  | hole => exact .left n k1 .hole
  | left m c1 _ ih => exact .left m c1 ih
  | right m c0 _ ih => exact .right m c0 ih

lemma Context.inRight (hC : Context C) (n : TrieNode w V) (k0 : TrieTree w V) : Context fun s => C (node n k0 s) := by
  induction hC with
  | hole => exact .right n k0 .hole
  | left m c1 _ ih => exact .left m c1 ih
  | right m c0 _ ih => exact .right m c0 ih

lemma Context.sameRoot (hC : Context C) (h : SameRoot s s') : SameRoot (C s) (C s') := by
  cases hC with
  | hole => exact h
  | left n k1 _ => exact ⟨rfl, rfl, rfl, rfl⟩
  | right n k0 _ => exact ⟨rfl, rfl, rfl, rfl⟩

lemma SameRoot.below (h : SameRoot s s') (hb : Below n s) : Below n s' := by
  cases s with
  | null => cases h
  | node m _ _ =>
    cases s' with
    | null => cases h
    | node m' _ _ =>
      obtain ⟨hpar, hlt, hag⟩ := hb
      exact ⟨by rw [h.2.2.2, hpar], by rwa [Same.width h], by rwa [h.2.1]⟩

lemma SameRoot.kids_left {b : ℕ} (h : SameRoot s s') (hk : Kids b s t) : Kids b s' t := by
  cases s with
  | null => cases h
  | node m _ _ =>
    cases s' with
    | null => cases h
    | node m' _ _ =>
      cases t with
      | null => trivial
      | node n _ _ =>
        change m'.key.getMsbD b ≠ n.key.getMsbD b
        rw [h.2.1]
        exact hk

lemma SameRoot.kids_right {b : ℕ} (h : SameRoot s s') (hk : Kids b t s) : Kids b t s' := by
  cases s with
  | null => cases h
  | node m _ _ =>
    cases s' with
    | null => cases h
    | node m' _ _ =>
      cases t with
      | null => exact hk.elim
      | node n _ _ =>
        change n.key.getMsbD b ≠ m'.key.getMsbD b
        rw [h.2.1]
        exact hk

lemma Context.shape (hC : Context C) (h : (C s).Shape) : s.Shape ∧ ∀ s', s'.Shape → SameRoot s s' → (C s').Shape := by
  induction hC with
  | hole => exact ⟨h, fun s' hs' _ => hs'⟩
  | left n k1 hC ih =>
    obtain ⟨hok, hb0, hb1, hkids, h0, h1⟩ := h
    obtain ⟨hs, hall⟩ := ih h0
    refine ⟨hs, fun s' hs' hsame => ?_⟩
    have hroot := hC.sameRoot hsame
    exact ⟨hok, hroot.below hb0, hb1, hroot.kids_left hkids, hall s' hs' hsame, h1⟩
  | right n k0 hC ih =>
    obtain ⟨hok, hb0, hb1, hkids, h0, h1⟩ := h
    obtain ⟨hs, hall⟩ := ih h1
    refine ⟨hs, fun s' hs' hsame => ?_⟩
    have hroot := hC.sameRoot hsame
    exact ⟨hok, hb0, hroot.below hb1, hroot.kids_right hkids, h0, hall s' hs' hsame⟩

lemma Context.full (hC : Context C) (h : (C s).Full x) :
    s.Full x ∧ ∀ s', s'.Full x → SameRoot s s' → (C s').Full x := by
  induction hC with
  | hole => exact ⟨h, fun s' hs' _ => hs'⟩
  | left n k1 hC ih =>
    obtain ⟨hn, h0, h1⟩ := h
    obtain ⟨hs, hall⟩ := ih h0
    exact ⟨hs, fun s' hs' hsame => ⟨hn, hall s' hs' hsame, h1⟩⟩
  | right n k0 hC ih =>
    obtain ⟨hn, h0, h1⟩ := h
    obtain ⟨hs, hall⟩ := ih h1
    refine ⟨hs, fun s' hs' hsame => ⟨fun hx hv => ?_, h0, hall s' hs' hsame⟩⟩
    have hroot := hC.sameRoot hsame
    intro hnull
    rw [hnull] at hroot
    unfold SameRoot at hroot
    split at hroot <;> simp_all

lemma Full.imp {y : ℕ → Prop} (h : t.Full x) (hxy : ∀ C n k0 k1, Context C → t = C (node n k0 k1) →
    x n.addr → ¬ y n.addr → n.value = none → k1 ≠ null) : t.Full y := by
  induction t with
  | null => trivial
  | node n k0 k1 ih0 ih1 =>
    obtain ⟨hn, h0, h1⟩ := h
    refine ⟨fun hy hv => ?_, ih0 h0 fun C m c0 c1 hC ht => ?_, ih1 h1 fun C m c0 c1 hC ht => ?_⟩
    · by_cases hx : x n.addr
      · exact hxy _ n k0 k1 .hole rfl hx hy hv
      · exact hn hx hv
    · exact hxy _ m c0 c1 (.left n k1 hC) (congrArg (node n · k1) ht)
    · exact hxy _ m c0 c1 (.right n k0 hC) (congrArg (node n k0) ht)

section

variable (hC : Context C)
include hC

lemma Context.nodes_perm : ∃ rest, ∀ s, (C s).nodes.Perm (s.nodes ++ rest) := by
  induction hC with
  | hole => exact ⟨[], fun s => by rw [append_nil]⟩
  | left n k1 _ ih =>
    obtain ⟨rest, hrest⟩ := ih
    refine ⟨n :: (rest ++ k1.nodes), fun s => ?_⟩
    refine List.Perm.trans (.cons n ((hrest s).append_right k1.nodes)) ?_
    rw [append_assoc]
    exact perm_middle.symm
  | right n k0 _ ih =>
    obtain ⟨rest, hrest⟩ := ih
    refine ⟨n :: (k0.nodes ++ rest), fun s => ?_⟩
    refine List.Perm.trans (.cons n ((hrest s).append_left k0.nodes)) ?_
    refine List.Perm.trans (.cons n ?_) perm_middle.symm
    rw [← append_assoc, ← append_assoc]
    exact perm_append_comm.append_right rest

lemma Context.addrs_perm : ∃ rest, ∀ s, (C s).addrs.Perm (s.addrs ++ rest) := by
  obtain ⟨rest, hrest⟩ := hC.nodes_perm
  refine ⟨rest.map (·.addr), fun s => ?_⟩
  grind [addrs]

lemma Context.entries_perm : ∃ rest, ∀ s, (C s).entries.Perm (s.entries ++ rest) := by
  obtain ⟨rest, hrest⟩ := hC.nodes_perm
  refine ⟨rest.filterMap entryOf, fun s => ?_⟩
  grind [entries]

lemma Context.nodup (h : (C s).addrs.Nodup) : s.addrs.Nodup := by
  grind [Context.addrs_perm]

lemma Context.mem_addrs (n : TrieNode w V) (k0 k1 : TrieTree w V) : n.addr ∈ (C (node n k0 k1)).addrs := by
  grind [Context.addrs_perm, addrs_node]

end

lemma handles_sublist (t : TrieTree w V) : (t.entries.map (·.handle)).Sublist t.addrs := by
  rw [entries, addrs]
  induction t.nodes with
  | nil => exact .slnil
  | cons n ns ih =>
    cases hv : n.value with
    | none => simp_all [entryOf]
    | some v => simp_all [entryOf]

lemma find_eq_null {a : ℕ} (h : a ∉ t.addrs) : t.find a = null := by
  induction t with
  | null => rfl
  | node n k0 k1 ih0 ih1 => grind [addrs_node, find]

lemma replace_eq_self {a : ℕ} (h : a ∉ t.addrs) (s : TrieTree w V) : t.replace a s = t := by
  induction t with
  | null => rfl
  | node n k0 k1 ih0 ih1 => grind [addrs_node, replace]

lemma Context.find_replace (hC : Context C) (hnodup : (C (node n k0 k1)).addrs.Nodup) :
    (C (node n k0 k1)).find n.addr = node n k0 k1 ∧ ∀ s, (C (node n k0 k1)).replace n.addr s = C s := by
  induction hC with
  | hole => exact ⟨by rw [find, if_pos rfl], fun s => by rw [replace, if_pos rfl]⟩
  | left m c1 hC ih =>
    rw [addrs_node, nodup_cons, nodup_append] at hnodup
    obtain ⟨hm, h0, -, hdisj⟩ := hnodup
    obtain ⟨hfind, hrep⟩ := ih h0
    have hmem := hC.mem_addrs n k0 k1
    have hne : m.addr ≠ n.addr := fun h => hm (mem_append_left _ (h ▸ hmem))
    have hnot : n.addr ∉ c1.addrs := fun h => hdisj _ hmem _ h rfl
    refine ⟨by rw [find, if_neg hne, hfind], fun s => ?_⟩
    rw [replace, if_neg hne, hrep, replace_eq_self hnot]
  | right m c0 hC ih =>
    rw [addrs_node, nodup_cons, nodup_append] at hnodup
    obtain ⟨hm, -, h1, hdisj⟩ := hnodup
    obtain ⟨hfind, hrep⟩ := ih h1
    have hmem := hC.mem_addrs n k0 k1
    have hne : m.addr ≠ n.addr := fun h => hm (mem_append_right _ (h ▸ hmem))
    have hnot : n.addr ∉ c0.addrs := fun h => hdisj _ h _ hmem rfl
    refine ⟨by rw [find, if_neg hne, find_eq_null hnot, hfind], fun s => ?_⟩
    rw [replace, if_neg hne, hrep, replace_eq_self hnot]

lemma exists_context (hm : m ∈ t.nodes) : ∃ C c0 c1, Context C ∧ t = C (node m c0 c1) := by
  induction t with
  | null => cases hm
  | node n k0 k1 ih0 ih1 =>
    rcases mem_cons.mp hm with rfl | hm
    · exact ⟨_, k0, k1, .hole, rfl⟩
    · rcases mem_append.mp hm with hm | hm
      · obtain ⟨C, c0, c1, hC, h⟩ := ih0 hm
        exact ⟨_, c0, c1, .left n k1 hC, congrArg (node n · k1) h⟩
      · obtain ⟨C, c0, c1, hC, h⟩ := ih1 hm
        exact ⟨_, c0, c1, .right n k0 hC, congrArg (node n k0) h⟩

/-- `s` is one of the kids of `p`, and `k` is the other one. -/
def IsKid (C : TrieTree w V → TrieTree w V) (p : TrieNode w V) (s k t : TrieTree w V) : Prop :=
  t = C (node p s k) ∨ t = C (node p k s)

lemma Context.parent (hC : Context C) (s : TrieTree w V) : C s = s ∨ ∃ D p k, Context D ∧ IsKid D p s k (C s) := by
  induction hC with
  | hole => exact .inl rfl
  | left n k1 hC ih =>
    right
    rcases ih with h | ⟨D, p, k, hD, h⟩
    · exact ⟨_, n, k1, .hole, .inl (congrArg (node n · k1) h)⟩
    · exact ⟨_, p, k, .left n k1 hD, h.imp (congrArg (node n · k1)) (congrArg (node n · k1))⟩
  | right n k0 hC ih =>
    right
    rcases ih with h | ⟨D, p, k, hD, h⟩
    · exact ⟨_, n, k0, .hole, .inr (congrArg (node n k0) h)⟩
    · exact ⟨_, p, k, .right n k0 hD, h.imp (congrArg (node n k0)) (congrArg (node n k0))⟩

lemma IsKid.parent_eq (hC : Context C) (h : IsKid C n (node m k0 k1) s t) (hshape : t.Shape) : m.parent = some n.addr := by
  rcases h with rfl | rfl
  · exact (hC.shape hshape).1.2.1.1
  · exact (hC.shape hshape).1.2.2.1.1

/-- A tree from the head on: only the head, which has address 0 and an empty prefix, has no parent. -/
structure Rooted (t : TrieTree w V) : Prop where
  shape : t.Shape
  nodup : t.addrs.Nodup
  root : ∃ r k0 k1, t = node r k0 k1 ∧ r.addr = 0 ∧ r.parent = none ∧ r.width = 0

lemma SameRoot.rooted (h : SameRoot t s') (ht : t.Rooted) (hshape : s'.Shape) (hnodup : s'.addrs.Nodup) :
    s'.Rooted := by
  obtain ⟨r, a, b, rfl, haddr, hpar, hwidth⟩ := ht.root
  cases s' with
  | null => cases h
  | node r' a' b' => exact ⟨hshape, hnodup, r', a', b', rfl, by rw [h.1, haddr], by rw [h.2.2.2, hpar], by rw [Same.width h, hwidth]⟩

lemma Rooted.head_or_kid (h : t.Rooted) (hC : Context C) (ht : t = C (node m k0 k1)) :
    (m.addr = 0 ∧ m.parent = none ∧ m.width = 0) ∨
      (m.addr ≠ 0 ∧ m.parent ≠ none ∧ ∃ D p k, Context D ∧ IsKid D p (node m k0 k1) k t) := by
  obtain ⟨r, c0, c1, hr, haddr, hpar, hwidth⟩ := h.root
  rcases hC.parent (node m k0 k1) with hw | ⟨D, p, k, hD, hk⟩
  · simp_all
  · rw [← ht] at hk
    have hm := hk.parent_eq hD h.shape
    refine .inr ⟨fun hzero => ?_, by simp [hm], D, p, k, hD, hk⟩
    -- the head is the only node with its address
    grind [Context.find_replace, Rooted.nodup, find]

end TrieTree

end Gem5.Base
