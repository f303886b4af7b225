import Gem5.Base.TrieInsert
import Gem5.Base.TrieRemove

/-!
# A trie over a run

What a user of a trie relies on, for any sequence of calls of `insert` and `remove`. The user knows which prefixes are
stored and the handles to them (`stored`); the tree has to hold just these, `lookup` has to find the shortest of those
that match, and no call may stop the simulator.
-/

namespace Gem5.Base

open Lib TrieNode List

variable {w : ℕ} {V : Type}

namespace Trie

open TrieTree

/-- The prefix is not one of those that are stored. -/
def Fresh (stored : List (TrieEntry w V)) (key : BitVec w) (width : ℕ) : Prop :=
  ∀ e ∈ stored, ¬ (e.width = width ∧ Agree width e.key key)

/-- What a run leads to: the trie, and what is stored in it. -/
inductive Reachable : Trie w V → List (TrieEntry w V) → Prop where
  | init : Reachable init []
  /-- `insert` of a prefix that is not stored. -/
  | insert {t t' : Trie w V} {stored : List (TrieEntry w V)} {key : BitVec w} {width handle : ℕ} {val : V} :
      Reachable t stored → 1 ≤ width → width ≤ w → Fresh stored key width → t.insert key width val = .ok (handle, t') →
      Reachable t' ({ handle, key := key &&& prefixMask w width, width, val } :: stored)
  /-- `remove` of something stored. -/
  | remove {t t' : Trie w V} {stored : List (TrieEntry w V)} {e : TrieEntry w V} {val : Option V} :
      Reachable t stored → e ∈ stored → t.remove e.handle = .ok (val, t') →
      Reachable t' (stored.filter fun e' => e'.handle ≠ e.handle)

/-! ### The invariant -/

structure Holds (t : Trie w V) (stored : List (TrieEntry w V)) : Prop where
  rooted : t.head.Rooted
  full : t.head.Full (· = 0)
  entries : t.head.entries.Perm stored
  below_next : ∀ a ∈ t.head.addrs, a < t.next
  width_pos : ∀ e ∈ stored, 1 ≤ e.width
  fresh : stored.Pairwise fun e e' => ¬ (e.width = e'.width ∧ e.key = e'.key)

variable {t : Trie w V} {stored : List (TrieEntry w V)}

lemma holds_init : (init : Trie w V).Holds [] := by
  obtain ⟨hok, hwidth⟩ := ok_of_mask (n := ({ addr := 0, key := 0, mask := 0, value := none, parent := none } : TrieNode w V))
    (Nat.zero_le w) (prefixMask_zero w).symm (by simp [Masked])
  refine ⟨⟨⟨hok, trivial, trivial, trivial, trivial, trivial⟩, ?_, _, _, _, rfl, rfl, rfl, hwidth⟩, ?_, ?_, ?_, ?_, .nil⟩
  · simp [init]
  · exact ⟨fun h => absurd rfl h, trivial, trivial⟩
  · exact .refl _
  · simp [init]
  · exact fun e he => by cases he

variable {e : TrieEntry w V}

lemma Holds.exists_node (h : t.Holds stored) (he : e ∈ stored) : ∃ n ∈ t.head.nodes, n.entryOf = some e := by
  have hmem := h.entries.mem_iff.mpr he
  rw [TrieTree.entries, mem_filterMap] at hmem
  exact hmem

lemma Holds.handles_nodup (h : t.Holds stored) : (stored.map (·.handle)).Nodup :=
  (h.entries.map _).nodup_iff.mp (h.rooted.nodup.sublist t.head.handles_sublist)

/-- `insert` succeeds, and one more entry is stored. -/
lemma Holds.insert (h : t.Holds stored) (key : BitVec w) (width : ℕ) (val : V) (hpos : 1 ≤ width) (hw : width ≤ w)
    (hfresh : Fresh stored key width) :
    ∃ handle t', t.insert key width val = .ok (handle, t') ∧
      t'.Holds ({ handle, key := key &&& prefixMask w width, width, val } :: stored) := by
  have hmask : (if width < w then BitVec.allOnes w <<< (w - width) else BitVec.allOnes w) = prefixMask w width := by
    by_cases hlt : width < w
    · rw [if_pos hlt]
      rfl
    · rw [if_neg hlt, show width = w by omega, prefixMask_self]
  let e : NewEntry w V := { key := key &&& prefixMask w width, newMask := prefixMask w width, val, next := t.next }
  have hok : e.Ok width := ⟨hw, rfl, masked_and width key⟩
  obtain ⟨r, k0, k1, hhead, -, -, hr⟩ := h.rooted.root
  have hroot : t.head.test (goesAfter e.key e.newMask) = true := by
    have hshape := h.rooted.shape
    rw [hhead] at hshape ⊢
    refine (hshape.1.goesAfter_iff hw).mpr ?_
    rw [hr]
    exact ⟨agree_zero _ _, Nat.zero_le _⟩
  have hnew : ∀ old ∈ stored, ¬ (old.key = key &&& prefixMask w width ∧ old.width = width) := by
    rintro old hold ⟨hkey, hwidth⟩
    refine hfresh old hold ⟨hwidth, ?_⟩
    rw [hkey]
    exact agree_and hw key
  obtain ⟨hd, head, next, hrun, hsame, hi⟩ := hok.insertInto_spec h.rooted.shape hroot
    fun old hold => hnew old (h.entries.mem_iff.mp hold)
  obtain ⟨new, hperm, hnodup, hrange⟩ := hi.addrs
  refine ⟨hd, { head, next }, ?_, ?_, hi.full _ h.full, ?_, ?_, ?_, ?_⟩
  · rw [Trie.insert, hmask]
    change (e.insertInto t.head >>= _) = _
    rw [hrun]
    rfl
  · refine hsame.rooted h.rooted hi.shape (hperm.nodup_iff.mpr (nodup_append.mpr ⟨h.rooted.nodup, hnodup, ?_⟩))
    rintro a ha _ hb rfl
    exact absurd (hrange a hb).1 (Nat.not_le_of_lt (h.below_next a ha))
  · exact hi.entries.trans (h.entries.cons _)
  · intro a ha
    rcases mem_append.mp (hperm.mem_iff.mp ha) with ha | ha
    · exact Nat.lt_of_lt_of_le (h.below_next a ha) hi.next_le
    · exact (hrange a ha).2
  · intro old hold
    rcases mem_cons.mp hold with rfl | hold
    · exact hpos
    · exact h.width_pos old hold
  · refine pairwise_cons.mpr ⟨fun old hold heq => ?_, h.fresh⟩
    exact hnew old hold ⟨heq.2.symm, heq.1.symm⟩

lemma filter_handles_perm {rest : List (TrieEntry w V)} (h : stored.Perm (e :: rest))
    (hnodup : (stored.map (·.handle)).Nodup) : (stored.filter fun e' => e'.handle ≠ e.handle).Perm rest := by
  have hdup := (h.map (·.handle)).nodup_iff.mp hnodup
  rw [map_cons, nodup_cons, mem_map, not_exists] at hdup
  refine (h.filter _).trans ?_
  rw [filter_cons_of_neg (by simp), filter_eq_self.mpr]
  intro e' he'
  exact decide_eq_true fun heq => hdup.1 e' ⟨he', heq⟩

/-- `remove` succeeds with the value, and one entry less is stored. -/
lemma Holds.remove (h : t.Holds stored) (he : e ∈ stored) :
    ∃ t', t.remove e.handle = .ok (some e.val, t') ∧ t'.Holds (stored.filter fun e' => e'.handle ≠ e.handle) := by
  obtain ⟨n, hn, hentry⟩ := h.exists_node he
  obtain ⟨haddr, -, hwidth, hv⟩ := entryOf_eq_some.mp hentry
  obtain ⟨C, k0, k1, hC, hhead⟩ := exists_context hn
  have hpos := h.width_pos e he
  have hzero : n.addr ≠ 0 := by
    obtain ⟨-, -, hr⟩ | ⟨hne, -⟩ := h.rooted.head_or_kid hC hhead
    · omega
    · exact hne
  -- there is a key of at least one bit, so the fuel is enough
  have hw : w = w - 1 + 1 := by
    obtain ⟨hok, -⟩ := (hC.shape (hhead ▸ h.rooted.shape)).1
    have := hok.le
    omega
  obtain ⟨head, hrun, hrem⟩ := remove_spec (w - 1) h.rooted h.full hC hhead hzero hv
  obtain ⟨gone, hgone⟩ := hrem.addrs
  have hperm : stored.Perm (e :: head.entries) := by
    have := hrem.entries
    rw [hentry] at this
    exact h.entries.symm.trans this
  refine ⟨{ t with head }, ?_, hrem.rooted, hrem.full, (filter_handles_perm hperm h.handles_nodup).symm, ?_, ?_, ?_⟩
  · rw [Trie.remove, haddr, show w + 1 = w - 1 + 2 by omega, hrun]
    rfl
  · intro a ha
    exact h.below_next a (hgone.mem_iff.mpr (mem_append_right _ ha))
  · intro e' he'
    exact h.width_pos e' (mem_of_mem_filter he')
  · exact h.fresh.filter _

lemma Reachable.holds (h : Reachable t stored) : t.Holds stored := by
  induction h with
  | init => exact holds_init
  | insert _ hpos hw hfresh hrun ih =>
    obtain ⟨_, _, hrun', ht'⟩ := ih.insert _ _ _ hpos hw hfresh
    rw [hrun] at hrun'
    cases hrun'
    exact ht'
  | remove _ he hrun ih =>
    obtain ⟨_, hrun', ht'⟩ := ih.remove he
    rw [hrun] at hrun'
    cases hrun'
    exact ht'

/-! ### What the user relies on -/

/-- `e` is the shortest of the stored prefixes that match. -/
def Shortest (stored : List (TrieEntry w V)) (key : BitVec w) (e : TrieEntry w V) : Prop :=
  e ∈ stored ∧ Agree e.width key e.key ∧ ∀ e' ∈ stored, Agree e'.width key e'.key → e.width ≤ e'.width

lemma Holds.masked (h : t.Holds stored) (he : e ∈ stored) : e.width ≤ w ∧ Masked e.width e.key := by
  obtain ⟨n, hn, hentry⟩ := h.exists_node he
  obtain ⟨-, hkey, hwidth, -⟩ := entryOf_eq_some.mp hentry
  obtain ⟨C, k0, k1, hC, hhead⟩ := exists_context hn
  obtain ⟨hok, -⟩ := (hC.shape (hhead ▸ h.rooted.shape)).1
  rw [hkey, hwidth]
  exact ⟨hok.le, hok.masked⟩

lemma Holds.eq_of_agree (h : t.Holds stored) {e' : TrieEntry w V} (he : e ∈ stored) (he' : e' ∈ stored)
    (hwidth : e.width = e'.width) (hag : Agree e.width e.key e'.key) : e = e' := by
  obtain ⟨hle, hm⟩ := h.masked he
  have hkey : e.key = e'.key := Masked.ext hle hm (hwidth ▸ (h.masked he').2) hag
  have hsymm : Std.Symm fun e e' : TrieEntry w V => ¬ (e.width = e'.width ∧ e.key = e'.key) :=
    ⟨fun _ _ hab hba => hab ⟨hba.1.symm, hba.2.symm⟩⟩
  by_contra hne
  exact h.fresh.forall he he' hne ⟨hwidth, hkey⟩

lemma Holds.test_head (h : t.Holds stored) (key : BitVec w) : t.head.test (·.matches key) = true := by
  obtain ⟨r, k0, k1, hhead, -, -, hr⟩ := h.rooted.root
  refine h.rooted.shape.test_matches.mpr ⟨r, k0, k1, hhead, ?_⟩
  rw [hr]
  exact agree_zero _ _

lemma mem_entries_of_node {n : TrieNode w V} {v : V} (hn : n ∈ t.head.nodes) (hv : n.value = some v) :
    { handle := n.addr, key := n.key, width := n.width, val := v } ∈ t.head.entries :=
  mem_filterMap.mpr ⟨n, hn, entryOf_eq_some.mpr ⟨rfl, rfl, rfl, hv⟩⟩

section

variable (h : t.Holds stored)
include h

lemma Holds.lookup_eq_some {key : BitVec w} (he : Shortest stored key e) : t.lookup key = some e.val := by
  obtain ⟨hmem, hag, hmin⟩ := he
  obtain ⟨n, hn, hentry⟩ := h.exists_node hmem
  obtain ⟨-, hkey, hwidth, hv⟩ := entryOf_eq_some.mp hentry
  have hnag : Agree n.width key n.key := by
    rw [← hwidth, ← hkey]
    exact hag
  obtain ⟨hsome, hnone⟩ := h.rooted.shape.lookupHandle_spec (h.test_head key)
  rw [lookup]
  cases hl : t.head.lookupHandle key with
  | none => exact absurd hnag (hnone hl n hn (by simp [hv]))
  | some m =>
    obtain ⟨hm, hmv, hmag, hmmin⟩ := hsome m hl
    obtain ⟨v, hv'⟩ := Option.ne_none_iff_exists'.mp hmv
    have hstored := h.entries.mem_iff.mp (mem_entries_of_node hm hv')
    have hle := hmin _ hstored hmag
    have hge := hmmin n hn (by simp [hv]) hnag
    have hweq : e.width = m.width := by
      simp only at hle
      omega
    have heq := h.eq_of_agree hmem hstored hweq (hag.symm.trans (hweq ▸ hmag))
    rw [heq]
    exact hv'

lemma Holds.lookup_eq_none {key : BitVec w} (hno : ∀ e ∈ stored, ¬ Agree e.width key e.key) :
    t.lookup key = none := by
  rw [lookup]
  cases hl : t.head.lookupHandle key with
  | none => rfl
  | some m =>
    obtain ⟨hm, hmv, hmag, -⟩ := (h.rooted.shape.lookupHandle_spec (h.test_head key)).1 m hl
    obtain ⟨v, hv⟩ := Option.ne_none_iff_exists'.mp hmv
    exact absurd hmag (hno _ (h.entries.mem_iff.mp (mem_entries_of_node hm hv)))

lemma Holds.find_handle (he : e ∈ stored) :
    ∃ n k0 k1, t.head.find e.handle = .node n k0 k1 ∧ n.key = e.key ∧ n.mask = prefixMask w e.width ∧ n.value = some e.val := by
  obtain ⟨n, hn, hentry⟩ := h.exists_node he
  obtain ⟨haddr, hkey, hwidth, hv⟩ := entryOf_eq_some.mp hentry
  obtain ⟨C, k0, k1, hC, hhead⟩ := exists_context hn
  obtain ⟨hok, -⟩ := (hC.shape (hhead ▸ h.rooted.shape)).1
  have hfind := (hC.find_replace (hhead ▸ h.rooted.nodup)).1
  refine ⟨n, k0, k1, ?_, hkey.symm, ?_, hv⟩
  · rw [hhead, haddr, hfind]
  · rw [hwidth]
    exact hok.mask

/-- A node without a value that is not the head has two kids, which part right after its prefix. -/
lemma Holds.two_kids {C : TrieTree w V → TrieTree w V} {n : TrieNode w V} {k0 k1 : TrieTree w V} (hC : Context C)
    (hhead : t.head = C (.node n k0 k1)) (hv : n.value = none) (hpar : n.parent ≠ none) :
    ∃ m0 c0 c1 m1 d0 d1 b, k0 = .node m0 c0 c1 ∧ k1 = .node m1 d0 d1 ∧ n.mask = prefixMask w b ∧ b < w ∧
      m0.key.getMsbD b ≠ m1.key.getMsbD b := by
  obtain ⟨hok, hb0, -, hkids, h0, -⟩ := (hC.shape (hhead ▸ h.rooted.shape)).1
  obtain ⟨hfull, -⟩ := (hC.full (hhead ▸ h.full)).1
  have hzero : n.addr ≠ 0 := by
    obtain ⟨-, hnone, -⟩ | ⟨hne, -⟩ := h.rooted.head_or_kid hC hhead
    · exact absurd hnone hpar
    · exact hne
  cases k1 with
  | null => exact absurd rfl (hfull hzero hv)
  | node m1 d0 d1 =>
    cases k0 with
    | null => exact hkids.elim
    | node m0 c0 c1 =>
      exact ⟨m0, c0, c1, m1, d0, d1, n.width, rfl, rfl, hok.mask, Nat.lt_of_lt_of_le hb0.2.1 h0.1.le, hkids⟩

end

/-- **A trie is what its user thinks it is.** After any run `lookup` returns the value of the shortest stored prefix that
matches, and nothing if none does; `insert` and `remove` do not stop the simulator, and `remove` returns the value that
was stored; every handle points to its node, and no two are the same; and a node without a value below the head has two
kids that differ in the first bit after its mask. -/
theorem lookup_shortest (h : Reachable t stored) : (∀ key e, Shortest stored key e → t.lookup key = some e.val) ∧
    (∀ key, (∀ e ∈ stored, ¬ Agree e.width key e.key) → t.lookup key = none) ∧
    (∀ key width val, 1 ≤ width → width ≤ w → Fresh stored key width →
      ∃ handle t', t.insert key width val = .ok (handle, t')) ∧
    (∀ e ∈ stored, ∃ t', t.remove e.handle = .ok (some e.val, t')) ∧
    (∀ e ∈ stored, ∃ n k0 k1, t.head.find e.handle = .node n k0 k1 ∧ n.key = e.key ∧ n.mask = prefixMask w e.width ∧
      n.value = some e.val) ∧
    (stored.map (·.handle)).Nodup ∧
    ∀ C n k0 k1, Context C → t.head = C (.node n k0 k1) → n.value = none → n.parent ≠ none →
      ∃ m0 c0 c1 m1 d0 d1 b, k0 = .node m0 c0 c1 ∧ k1 = .node m1 d0 d1 ∧ n.mask = prefixMask w b ∧ b < w ∧
        m0.key.getMsbD b ≠ m1.key.getMsbD b := by
  have hh := h.holds
  refine ⟨fun _ _ => hh.lookup_eq_some, fun _ => hh.lookup_eq_none, fun key width val hpos hw hfresh => ?_,
    fun e he => ?_, fun e he => hh.find_handle he, hh.handles_nodup, fun _ _ _ _ => hh.two_kids⟩
  · obtain ⟨handle, t', hrun, -⟩ := hh.insert key width val hpos hw hfresh
    exact ⟨handle, t', hrun⟩
  · obtain ⟨t', hrun, -⟩ := hh.remove he
    exact ⟨t', hrun⟩

/-- Two prefixes, one the beginning of the other: the longer one is not found. -/
theorem lookup_shortest_two : ∃ (t : Trie 4 ℕ) (e e' : TrieEntry 4 ℕ), Reachable t [e, e'] ∧ e'.width = 2 ∧
    Agree e'.width 0b1101 e'.key ∧ t.lookup 0b1101 = some e.val := by
  have h0 : Reachable (w := 4) (V := ℕ) init [] := .init
  obtain ⟨h, t, hrun, -⟩ := h0.holds.insert 0b1100 2 8 (by decide) (by decide) nofun
  have h1 := h0.insert (by decide) (by decide) nofun hrun
  have hfresh : Fresh [{ handle := h, key := 0b1100 &&& prefixMask 4 2, width := 2, val := 8 }] (0b1000 : BitVec 4) 1 := by
    simp [Fresh]
  obtain ⟨h', t', hrun', -⟩ := h1.holds.insert _ _ 7 (by decide) (by decide) hfresh
  have h2 := h1.insert (by decide) (by decide) hfresh hrun'
  have hag1 : Agree 1 (0b1101 : BitVec 4) (0b1000 &&& prefixMask 4 1) := by
    unfold Agree
    decide
  have hag2 : Agree 2 (0b1101 : BitVec 4) (0b1100 &&& prefixMask 4 2) := by
    unfold Agree
    decide
  exact ⟨t', _, _, h2, rfl, hag2, (lookup_shortest h2).1 _ _ ⟨by simp, hag1, by simp⟩⟩

end Trie

end Gem5.Base
