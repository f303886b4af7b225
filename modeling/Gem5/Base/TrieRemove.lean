import Gem5.Base.TrieShape

/-!
# Removal from a trie

A node with two kids only loses its value. Any other node is unlinked: its kid, if it has one, takes its place. The
parent can be left without a value and with one kid; it is then unlinked too, which puts a kid in the place of the parent
and so leaves the node above with as many kids as it had. `remove` calls itself no more than once.
-/

namespace Gem5.Base

open Lib TrieNode List

variable {w : ℕ} {V : Type}

namespace TrieTree

variable {C : TrieTree w V → TrieTree w V} {t k k0 : TrieTree w V} {p m : TrieNode w V}

lemma get_isNone : t.get.isNone ↔ t = null := by
  cases t <;> simp [get]

lemma get_isSome : t.get.isSome ↔ t ≠ null := by
  cases t <;> simp [get]

lemma get_mem_addrs {a : ℕ} (h : t.get = some a) : a ∈ t.addrs := by
  cases t with
  | null => cases h
  | node n k0 k1 =>
    cases h
    rw [addrs_node]
    exact mem_cons_self ..

lemma setParent_eq_null {a : ℕ} : t.setParent a = null ↔ t = null := by
  cases t <;> simp [setParent]

/-- What takes the place of `p` when its kid `m` is unlinked. -/
structure Unlinked (p m : TrieNode w V) (k0 k c0 c1 : TrieTree w V) : Prop where
  shape : (node p c0 c1).Shape
  full : ∀ x, k0.Full x → k.Full x → c0.Full x ∧ c1.Full x
  entries : (c0.entries ++ c1.entries).Perm (k0.entries ++ k.entries)
  addrs : (c0.addrs ++ c1.addrs).Perm (k0.addrs ++ k.addrs)
  some_kid : k ≠ null → c0 ≠ null
  two_kids : k ≠ null → k0 ≠ null → c1 ≠ null

lemma Below.setParent (hb : Below p (node m k0 null)) (h : Below m k0) : Below p (k0.setParent p.addr) := by
  cases k0 with
  | null => trivial
  | node n _ _ =>
    obtain ⟨-, hlt, hag⟩ := hb
    obtain ⟨-, hlt', hag'⟩ := h
    exact ⟨rfl, hlt.trans hlt', (hag'.mono hlt.le).trans hag⟩

lemma Kids.setParent_left (hk : Kids p.width (node m k0 null) k) (hlt : p.width < m.width) (h : Below m k0)
    (hnull : ¬ (k ≠ null ∧ k0 = null)) : Kids p.width (k0.setParent p.addr) k := by
  cases k with
  | null => trivial
  | node n _ _ =>
    cases k0 with
    | null => exact absurd ⟨nofun, rfl⟩ hnull
    | node kn _ _ =>
      have hbit := h.2.2 _ hlt
      exact fun heq => hk (hbit.symm.trans heq)

lemma Kids.setParent_right (hk : Kids p.width k (node m k0 null)) (hlt : p.width < m.width) (h : Below m k0) :
    Kids p.width k (k0.setParent p.addr) := by
  cases k0 with
  | null => trivial
  | node kn _ _ =>
    cases k with
    | null => exact hk.elim
    | node n _ _ =>
      have hbit := h.2.2 _ hlt
      exact fun heq => hk (heq.trans hbit)

lemma replaceKid_left (hshape : (node p (node m k0 null) k).Shape) :
    ∃ c0 c1, replaceKid m.addr (k0.setParent p.addr) (node m k0 null) k = .ok (c0, c1) ∧ Unlinked p m k0 k c0 c1 := by
  obtain ⟨hok, hb, hb1, hkids, ⟨-, hb0, -, -, h0, -⟩, h1⟩ := hshape
  have hrun : replaceKid m.addr (k0.setParent p.addr) (node m k0 null) k =
      .ok (if k.get.isSome ∧ (k0.setParent p.addr).get.isNone then (k, null) else (k0.setParent p.addr, k)) := by
    rw [replaceKid, if_pos (show (node m k0 null).get = some m.addr from rfl)]
    rfl
  have hiff : (k.get.isSome ∧ (k0.setParent p.addr).get.isNone) ↔ k ≠ null ∧ k0 = null := by
    rw [get_isSome, get_isNone, setParent_eq_null]
  by_cases hmove : k ≠ null ∧ k0 = null
  · obtain ⟨hk, rfl⟩ := hmove
    rw [if_pos (hiff.mpr ⟨hk, rfl⟩)] at hrun
    refine ⟨k, null, hrun, ⟨hok, hb1, trivial, trivial, h1, trivial⟩, fun x _ hx => ⟨hx, trivial⟩, ?_, ?_, fun _ => hk,
      fun _ hne => absurd rfl hne⟩
    · rw [entries_null, append_nil, nil_append]
    · rw [addrs_null, append_nil, nil_append]
  · rw [if_neg (mt hiff.mp hmove)] at hrun
    refine ⟨_, _, hrun, ⟨hok, hb.setParent hb0, hb1, hkids.setParent_left hb.2.1 hb0 hmove, h0.setParent _, h1⟩,
      fun x hx0 hx => ⟨hx0.setParent _, hx⟩, ?_, ?_, ?_, fun hk _ => hk⟩
    · rw [entries_setParent]
    · rw [addrs_setParent]
    · intro hk
      rw [ne_eq, setParent_eq_null]
      exact fun h0 => hmove ⟨hk, h0⟩

lemma replaceKid_right (hshape : (node p k (node m k0 null)).Shape) (hne : k.get ≠ some m.addr) :
    ∃ c0 c1, replaceKid m.addr (k0.setParent p.addr) k (node m k0 null) = .ok (c0, c1) ∧ Unlinked p m k0 k c0 c1 := by
  obtain ⟨hok, hb1, hb, hkids, h1, -, hb0, -, -, h0, -⟩ := hshape
  have hk : k ≠ null := by
    rintro rfl
    exact hkids
  refine ⟨k, k0.setParent p.addr, ?_, ⟨hok, hb1, hb.setParent hb0, hkids.setParent_right hb.2.1 hb0, h1, h0.setParent _⟩,
    fun x hx0 hx => ⟨hx, hx0.setParent _⟩, ?_, ?_, fun _ => hk, fun _ hne => ?_⟩
  · rw [replaceKid, if_neg hne, if_pos (show (node m k0 null).get = some m.addr from rfl)]
    exact congrArg Except.ok (if_neg fun h => hk (get_isNone.mp h.2))
  · rw [entries_setParent]
    exact perm_append_comm
  · rw [addrs_setParent]
    exact perm_append_comm
  · rwa [ne_eq, setParent_eq_null]

lemma perm_unlink {α : Type} {p m k0 k c : List α} (h : c.Perm (k0 ++ k)) :
    (p ++ ((m ++ k0) ++ k)).Perm (m ++ (p ++ c)) ∧ (p ++ (k ++ (m ++ k0))).Perm (m ++ (p ++ c)) := by
  have hleft : (p ++ ((m ++ k0) ++ k)).Perm (m ++ (p ++ c)) := by
    rw [append_assoc]
    exact (perm_append_comm_assoc p m _).trans ((h.symm.append_left p).append_left m)
  exact ⟨hleft, (perm_append_comm.append_left p).trans hleft⟩

variable {c0 c1 : TrieTree w V} {x : ℕ → Prop}

section

variable (hC : Context C)
include hC

lemma IsKid.perm (ht : IsKid C p (node m k0 null) k t) (h : Unlinked p m k0 k c0 c1) :
    t.entries.Perm (m.entryOf.toList ++ (C (node p c0 c1)).entries) ∧ t.addrs.Perm (m.addr :: (C (node p c0 c1)).addrs) := by
  obtain ⟨rest, hrest⟩ := hC.entries_perm
  obtain ⟨rest', hrest'⟩ := hC.addrs_perm
  have hentries := perm_unlink (p := p.entryOf.toList) (m := m.entryOf.toList) h.entries
  have haddrs := perm_unlink (p := [p.addr]) (m := [m.addr]) h.addrs
  have hm : (node m k0 null).entries = m.entryOf.toList ++ k0.entries := by
    rw [entries_node, entries_null, append_nil]
  have hma : (node m k0 null).addrs = [m.addr] ++ k0.addrs := by
    rw [addrs_node, addrs_null, append_nil, singleton_append]
  constructor
  · refine List.Perm.trans ?_ ((hrest _).symm.append_left m.entryOf.toList)
    rw [entries_node, ← append_assoc]
    rcases ht with rfl | rfl
    · refine (hrest _).trans (List.Perm.append_right rest ?_)
      rw [entries_node, hm]
      exact hentries.1
    · refine (hrest _).trans (List.Perm.append_right rest ?_)
      rw [entries_node, hm]
      exact hentries.2
  · refine List.Perm.trans ?_ ((hrest' _).symm.cons m.addr)
    rw [addrs_node, ← cons_append]
    rcases ht with rfl | rfl
    · refine (hrest' _).trans (List.Perm.append_right rest' ?_)
      rw [addrs_node, hma]
      exact haddrs.1
    · refine (hrest' _).trans (List.Perm.append_right rest' ?_)
      rw [addrs_node, hma]
      exact haddrs.2

/-- What `remove` does with a node that has no second kid. -/
lemma IsKid.remove_eq (ht : IsKid C p (node m k0 null) k t) (hshape : t.Shape) (hnodup : t.addrs.Nodup) :
    ∃ c0 c1, Unlinked p m k0 k c0 c1 ∧ ∀ fuel, remove (fuel + 1) m.addr t =
        if c1.get.isNone ∧ p.value.isNone ∧ p.parent.isSome then do
          let (_, t) ← remove fuel p.addr (C (node p c0 c1))
          .ok (m.value, t)
        else .ok (m.value, C (node p c0 c1)) := by
  -- the parent, the pointer to it, and how the kids of it change
  obtain ⟨a, b, rfl, hfind, hpar, c0, c1, hkids, hun⟩ : ∃ a b, t = C (node p a b) ∧ t.find m.addr = node m k0 null ∧
      m.parent = some p.addr ∧
      ∃ c0 c1, replaceKid m.addr (k0.setParent p.addr) a b = .ok (c0, c1) ∧ Unlinked p m k0 k c0 c1 := by
    rcases ht with rfl | rfl
    · have hs := (hC.shape hshape).1
      exact ⟨_, _, rfl, ((hC.inLeft p k).find_replace hnodup).1, hs.2.1.1, replaceKid_left hs⟩
    · have hs := (hC.shape hshape).1
      refine ⟨_, _, rfl, ((hC.inRight p k).find_replace hnodup).1, hs.2.2.1.1, replaceKid_right hs ?_⟩
      have hdup := hC.nodup hnodup
      rw [addrs_node, nodup_cons, nodup_append] at hdup
      intro hget
      exact hdup.2.2.2 _ (get_mem_addrs hget) _ (by simp) rfl
  obtain ⟨hfindp, hrep⟩ := hC.find_replace hnodup
  refine ⟨c0, c1, hun, fun fuel => ?_⟩
  rw [remove, hfind]
  simp only [get, Option.isSome_none, hpar, hfindp, hkids, hrep]
  rfl

lemma IsKid.ne_null {s : TrieTree w V} (ht : IsKid C p s k t) (hs : s ≠ null) (hshape : t.Shape) (hfull : t.Full x)
    (hx : ¬ x p.addr) (hv : p.value = none) : k ≠ null := by
  rcases ht with rfl | rfl
  · exact (hC.full hfull).1.1 hx hv
  · rintro rfl
    have hkids := (hC.shape hshape).1.2.2.2.1
    cases s with
    | null => exact hs rfl
    | node _ _ _ => exact hkids

lemma IsKid.full (ht : IsKid C p (node m k0 null) k t) (h : Unlinked p m k0 k c0 c1) (hfull : t.Full x) :
    (C (node p c0 c1)).Full fun a => x a ∨ a = p.addr := by
  have hweak : t.Full fun a => x a ∨ a = p.addr := hfull.imp fun _ _ _ _ _ _ hx hy => absurd (.inl hx) hy
  rcases ht with rfl | rfl
  · obtain ⟨hold, hnew⟩ := hC.full hweak
    obtain ⟨hc0, hc1⟩ := h.full _ hold.2.1.2.1 hold.2.2
    exact hnew _ ⟨fun hx => absurd (.inr rfl) hx, hc0, hc1⟩ ⟨rfl, rfl, rfl, rfl⟩
  · obtain ⟨hold, hnew⟩ := hC.full hweak
    obtain ⟨hc0, hc1⟩ := h.full _ hold.2.2.2.1 hold.2.1
    exact hnew _ ⟨fun hx => absurd (.inr rfl) hx, hc0, hc1⟩ ⟨rfl, rfl, rfl, rfl⟩

lemma IsKid.shape (ht : IsKid C p (node m k0 null) k t) (h : Unlinked p m k0 k c0 c1) (hshape : t.Shape) :
    (C (node p c0 c1)).Shape ∧ SameRoot t (C (node p c0 c1)) := by
  rcases ht with rfl | rfl
  · exact ⟨(hC.shape hshape).2 _ h.shape ⟨rfl, rfl, rfl, rfl⟩, hC.sameRoot ⟨rfl, rfl, rfl, rfl⟩⟩
  · exact ⟨(hC.shape hshape).2 _ h.shape ⟨rfl, rfl, rfl, rfl⟩, hC.sameRoot ⟨rfl, rfl, rfl, rfl⟩⟩

lemma Full.drop {a b : TrieTree w V} (hnodup : (C (node p a b)).addrs.Nodup)
    (h : (C (node p a b)).Full fun a => x a ∨ a = p.addr) (hp : ¬ x p.addr → p.value = none → b ≠ null) :
    (C (node p a b)).Full x := by
  refine h.imp fun C' n a' b' hC' heq hn hy hv => ?_
  have haddr : n.addr = p.addr := hn.resolve_left hy
  have hfind := (hC'.find_replace (heq ▸ hnodup)).1
  rw [← heq, haddr, (hC.find_replace hnodup).1] at hfind
  cases hfind
  exact hp hy hv

end

/-- What `remove` leaves: the tree without the entry, and no node that was not there. -/
structure Removed (t : TrieTree w V) (m : TrieNode w V) (t' : TrieTree w V) : Prop where
  rooted : t'.Rooted
  full : t'.Full (· = 0)
  entries : t.entries.Perm (m.entryOf.toList ++ t'.entries)
  addrs : ∃ gone, t.addrs.Perm (gone ++ t'.addrs)

lemma IsKid.rooted (hC : Context C) (ht : IsKid C p (node m k0 null) k t)
    (h : Unlinked p m k0 k c0 c1) (hr : t.Rooted) :
    (C (node p c0 c1)).Rooted ∧ m.addr ∉ (C (node p c0 c1)).addrs := by
  obtain ⟨hs, hsame⟩ := ht.shape hC h hr.shape
  have hdup := (ht.perm hC h).2.nodup_iff.mp hr.nodup
  rw [nodup_cons] at hdup
  exact ⟨hsame.rooted hr hs hdup.2, hdup.1⟩

/-- A node without a value and with one kid is unlinked, and the node above has as many kids as before. -/
lemma remove_valueless (fuel : ℕ) {s : TrieTree w V} (hr : t.Rooted) (hC : Context C) (ht : t = C (node p s null))
    (hs : s ≠ null) (hv : p.value = none) (hpar : p.parent ≠ none) (hfull : t.Full fun a => a = 0 ∨ a = p.addr) :
    ∃ t', remove (fuel + 1) p.addr t = .ok (none, t') ∧ Removed t p t' := by
  obtain ⟨-, hnone, -⟩ | ⟨-, -, D, g, k, hD, hk⟩ := hr.head_or_kid hC ht
  · exact absurd hnone hpar
  obtain ⟨c0, c1, hun, hrun⟩ := hk.remove_eq hD hr.shape hr.nodup
  obtain ⟨hr', hgone⟩ := hk.rooted hD hun hr
  obtain ⟨hentries, haddrs⟩ := hk.perm hD hun
  have hg : ¬ (g.addr = 0 ∨ g.addr = p.addr) → g.value = none → c1 ≠ null :=
    fun hx hgv => hun.two_kids (hk.ne_null hD nofun hr.shape hfull hx hgv) hs
  have hmem : g.addr ∈ (D (node g c0 c1)).addrs := hD.mem_addrs g c0 c1
  have hstop : ¬ (c1.get.isNone ∧ g.value.isNone ∧ g.parent.isSome) := by
    rintro ⟨hc1, hgv, hgp⟩
    obtain ⟨-, hnone, -⟩ | ⟨hzero, -⟩ := hr'.head_or_kid hD rfl
    · rw [hnone] at hgp
      cases hgp
    · refine hg ?_ (Option.isNone_iff_eq_none.mp hgv) (get_isNone.mp hc1)
      rintro (h | h)
      · exact hzero h
      · exact hgone (h ▸ hmem)
  refine ⟨D (node g c0 c1), ?_, hr', ?_, hentries, [p.addr], haddrs⟩
  · rw [hrun, if_neg hstop, hv]
  · refine ((hk.full hD hun hfull).drop hD hr'.nodup hg).imp fun E n a b hE heq hn hzero _ => ?_
    have hp : n.addr = p.addr := hn.resolve_left hzero
    refine absurd ?_ hgone
    rw [heq, ← hp]
    exact hE.mem_addrs n a b

/-- `remove` takes out the entry of a node below the head. -/
lemma remove_spec (fuel : ℕ) {k1 : TrieTree w V} (hr : t.Rooted) (hfull : t.Full (· = 0)) (hC : Context C)
    (ht : t = C (node m k0 k1)) (hm : m.addr ≠ 0) {v : V} (hv : m.value = some v) :
    ∃ t', remove (fuel + 2) m.addr t = .ok (some v, t') ∧ Removed t m t' := by
  by_cases hk1 : k1 = null
  · subst hk1
    obtain ⟨hzero, -⟩ | ⟨-, -, D, p, k, hD, hk⟩ := hr.head_or_kid hC ht
    · exact absurd hzero hm
    obtain ⟨c0, c1, hun, hrun⟩ := hk.remove_eq hD hr.shape hr.nodup
    obtain ⟨hr', -⟩ := hk.rooted hD hun hr
    obtain ⟨hentries, haddrs⟩ := hk.perm hD hun
    have hfull' := hk.full hD hun hfull
    rw [hv] at hrun
    by_cases hcond : c1.get.isNone ∧ p.value.isNone ∧ p.parent.isSome
    · obtain ⟨hc1, hpv, hpp⟩ := hcond
      have hp : p.addr ≠ 0 := by
        obtain ⟨-, hnone, -⟩ | ⟨hzero, -⟩ := hr'.head_or_kid hD rfl
        · rw [hnone] at hpp
          cases hpp
        · exact hzero
      have hpnone := Option.isNone_iff_eq_none.mp hpv
      have hkne := hk.ne_null hD nofun hr.shape hfull hp hpnone
      have hnull := get_isNone.mp hc1
      subst hnull
      obtain ⟨t', hrun', hrem⟩ := remove_valueless fuel hr' hD rfl (hun.some_kid hkne) hpnone
        (Option.isSome_iff_ne_none.mp hpp) hfull'
      obtain ⟨gone, hgone⟩ := hrem.addrs
      refine ⟨t', ?_, hrem.rooted, hrem.full, ?_, m.addr :: gone, haddrs.trans (hgone.cons _)⟩
      · rw [hrun, if_pos ⟨hc1, hpv, hpp⟩, hrun']
        rfl
      · refine hentries.trans (List.Perm.append_left _ (hrem.entries.trans ?_))
        rw [entryOf, hpnone]
        rfl
    · refine ⟨_, ?_, hr', hfull'.drop hD hr'.nodup ?_, hentries, [m.addr], haddrs⟩
      · rw [hrun, if_neg hcond]
      · intro hp hpnone hnull
        subst hnull
        obtain ⟨hzero, -⟩ | ⟨-, hpar, -⟩ := hr'.head_or_kid hD rfl
        · exact hp hzero
        · exact hcond ⟨rfl, by rw [hpnone]; rfl, Option.isSome_iff_ne_none.mpr hpar⟩
  · -- the node stays
    obtain ⟨hfind, hrep⟩ := hC.find_replace (ht ▸ hr.nodup)
    subst ht
    have hsame : SameRoot (node m k0 k1) (node { m with value := none } k0 k1) := ⟨rfl, rfl, rfl, rfl⟩
    obtain ⟨hs, hshape⟩ := hC.shape hr.shape
    obtain ⟨hf, hkeep⟩ := hC.full hfull
    obtain ⟨rest, hrest⟩ := hC.entries_perm
    obtain ⟨rest', hrest'⟩ := hC.addrs_perm
    have haddrs : (C (node m k0 k1)).addrs.Perm (C (node { m with value := none } k0 k1)).addrs := by
      refine (hrest' _).trans (List.Perm.trans ?_ (hrest' _).symm)
      rw [addrs_node, addrs_node]
    refine ⟨C (node { m with value := none } k0 k1), ?_, (hC.sameRoot hsame).rooted hr (hshape _ ?_ hsame) ?_, ?_, ?_,
      [], haddrs⟩
    · rw [remove, hfind]
      simp only [hrep, hv]
      rw [if_pos (get_isSome.mpr hk1)]
      rfl
    · obtain ⟨hok, hshapes⟩ := hs
      exact ⟨⟨hok.mask, hok.le, hok.masked⟩, hshapes⟩
    · exact haddrs.nodup_iff.mp hr.nodup
    · exact hkeep _ ⟨fun _ _ => hk1, hf.2⟩ hsame
    · refine (hrest _).trans (List.Perm.trans ?_ ((hrest _).symm.append_left _))
      rw [entries_node, entries_node]
      have hnone : ({ m with value := none } : TrieNode w V).entryOf = none := rfl
      rw [hnone, Option.toList_none, nil_append, append_assoc]

end TrieTree

end Gem5.Base
