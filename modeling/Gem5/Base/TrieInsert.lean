import Gem5.Base.TrieShape

/-!
# Insertion into a trie

`insert` walks down to the last node whose prefix the new key begins with. The value goes into that node if the prefixes
are equal, and below it otherwise: where there is no kid yet, or on the leg to the kid that shares the next bit, which is
split where the keys part. Of two kids one shares the bit, so the end of `insert` is not reached.
-/

namespace Gem5.Base

open Lib TrieNode TrieTree List

variable {w : ℕ} {V : Type}

lemma extendMask_prefixMask {n : ℕ} (h : n < w) : extendMask (prefixMask w n) = prefixMask w (n + 1) := prefixMask_succ h

lemma walkLeg_spec (key kidKey : BitVec w) {nw : ℕ} (hnw : nw ≤ w) (fuel n : ℕ) (hfuel : nw < n + fuel) (hn : n ≤ nw)
    (hag : Agree n key kidKey) :
    ∃ c, walkLeg key kidKey (prefixMask w nw) fuel (prefixMask w n) = .ok (prefixMask w c) ∧ n ≤ c ∧ c ≤ nw ∧
      Agree c key kidKey ∧ (c = nw ∨ key.getMsbD c ≠ kidKey.getMsbD c) := by
  induction fuel generalizing n with
  | zero => omega
  | succ fuel ih =>
    rw [walkLeg]
    by_cases hend : n = nw
    · subst hend
      exact ⟨n, if_pos (.inr rfl), le_rfl, le_rfl, hag, .inl rfl⟩
    · have hlt : n < w := by omega
      have hdone : (key &&& extendMask (prefixMask w n) ≠ kidKey &&& extendMask (prefixMask w n) ∨
          prefixMask w n = prefixMask w nw) ↔ key.getMsbD n ≠ kidKey.getMsbD n := by
        rw [extendMask_prefixMask hlt, ne_eq, and_prefixMask_eq_iff hlt, agree_succ, prefixMask_inj hlt.le hnw]
        simp [hag, hend]
      by_cases hbit : key.getMsbD n = kidKey.getMsbD n
      · obtain ⟨c, hc, hle, hrest⟩ := ih (n + 1) (by omega) (by omega) (agree_succ.mpr ⟨hag, hbit⟩)
        refine ⟨c, ?_, by omega, hrest⟩
        simp only [hdone, hbit, ne_eq, not_true_eq_false, if_false]
        rw [extendMask_prefixMask hlt, hc]
      · exact ⟨n, if_pos (hdone.mpr hbit), le_rfl, hn, hag, .inr hbit⟩

namespace NewEntry

/-- What `insert` is called with. -/
structure Ok (e : NewEntry w V) (nw : ℕ) : Prop where
  le : nw ≤ w
  mask : e.newMask = prefixMask w nw
  masked : Masked nw e.key

variable {e : NewEntry w V} {nw : ℕ}

/-- The entry that is stored at `h`. -/
def entry (e : NewEntry w V) (nw h : ℕ) : TrieEntry w V := { handle := h, key := e.key, width := nw, val := e.val }

/-- The new tree, the handle and the next address are right, for `t` and `e`. -/
structure Inserted (e : NewEntry w V) (nw : ℕ) (t : TrieTree w V) (h : ℕ) (t' : TrieTree w V) (next : ℕ) : Prop where
  shape : t'.Shape
  full : ∀ x, t.Full x → t'.Full x
  entries : t'.entries.Perm (e.entry nw h :: t.entries)
  addrs : ∃ new, t'.addrs.Perm (t.addrs ++ new) ∧ new.Nodup ∧ ∀ a ∈ new, e.next ≤ a ∧ a < next
  next_le : e.next ≤ next

lemma Ok.leaf (h : e.Ok nw) (a p : ℕ) : (e.leaf a p).Ok ∧ (e.leaf a p).width = nw ∧ (e.leaf a p).key = e.key ∧
      (e.leaf a p).entryOf = some (e.entry nw a) := by
  have hkey : (e.leaf a p).key = e.key := by
    rw [NewEntry.leaf, h.mask]
    exact h.masked
  obtain ⟨hok, hwidth⟩ := ok_of_mask (n := e.leaf a p) h.le h.mask (by rw [hkey]; exact h.masked)
  refine ⟨hok, hwidth, hkey, ?_⟩
  rw [entryOf, hkey, hwidth]
  rfl

lemma Ok.insertLeg_null (h : e.Ok nw) {n : TrieNode w V} (hlt : n.width < nw) (hag : Agree n.width e.key n.key) :
    ∃ hd k next, e.insertLeg n .null = .ok (some (hd, k, next)) ∧ e.Inserted nw .null hd k next ∧ Below n k ∧
      k.test (fun m => m.key.getMsbD n.width == e.key.getMsbD n.width) := by
  obtain ⟨hok, hwidth, hkey, hentry⟩ := h.leaf e.next n.addr
  refine ⟨_, _, _, rfl, ⟨?_, ?_, ?_, ?_, Nat.le_succ _⟩, ?_, ?_⟩
  · exact ⟨hok, trivial, trivial, trivial, trivial, trivial⟩
  · intro x _
    exact ⟨fun _ hv => (nomatch hv), trivial, trivial⟩
  · simp [hentry]
  · refine ⟨[e.next], by simp [NewEntry.leaf], by simp, by simp⟩
  · exact ⟨rfl, by rwa [hwidth], by rwa [hkey]⟩
  · simp [test, hkey]

lemma Ok.insertLeg_node (h : e.Ok nw) {n kn : TrieNode w V} {c0 c1 : TrieTree w V} (hn : n.Ok) (hlt : n.width < nw)
    (hag : Agree n.width e.key n.key) (hb : Below n (node kn c0 c1)) (hshape : (node kn c0 c1).Shape)
    (hafter : goesAfter e.key e.newMask kn = false) :
    (e.key.getMsbD n.width ≠ kn.key.getMsbD n.width ∧ e.insertLeg n (node kn c0 c1) = .ok none) ∨
    (e.key.getMsbD n.width = kn.key.getMsbD n.width ∧
      ∃ hd k next, e.insertLeg n (node kn c0 c1) = .ok (some (hd, k, next)) ∧
        e.Inserted nw (node kn c0 c1) hd k next ∧ Below n k ∧
        k.test fun m => m.key.getMsbD n.width == e.key.getMsbD n.width) := by
  have hok := hshape.1
  obtain ⟨hpar, hwlt, hagk⟩ := hb
  obtain ⟨c, hwalk, hnc, hcnw, hagc, hend⟩ :=
    walkLeg_spec e.key kn.key h.le (w + 1) n.width (by have := h.le; omega) hlt.le (hag.trans hagk.symm)
  rw [← h.mask, ← hn.mask] at hwalk
  have hrun : e.insertLeg n (node kn c0 c1) = (walkLeg e.key kn.key e.newMask (w + 1) n.mask >>= fun curMask => _) := rfl
  rw [hwalk] at hrun
  have hle := h.le
  have hcw : c ≤ w := hcnw.trans hle
  by_cases hskip : c = n.width
  · subst hskip
    refine .inl ⟨hend.resolve_left (Nat.ne_of_lt hlt), ?_⟩
    rw [hrun]
    exact if_pos hn.mask.symm
  · refine .inr ⟨hagc _ (by omega), ?_⟩
    -- the kid is longer than the part it shares: otherwise the new key would go after it
    have hckn : c < kn.width := by
      rw [Bool.eq_false_iff, ne_eq, h.mask, hok.goesAfter_iff h.le] at hafter
      by_contra hge
      have hagkn : Agree kn.width e.key kn.key := hagc.mono (by omega)
      exact hafter ⟨hagkn, by omega⟩
    have hmne : prefixMask w c ≠ n.mask := by
      rw [hn.mask, ne_eq, prefixMask_inj hcw hn.le]
      exact hskip
    replace hrun := hrun.trans (if_neg hmne)
    -- the new inner node
    have hmkey : Masked c (e.key &&& prefixMask w c) := masked_and c e.key
    have hmag : Agree c (e.key &&& prefixMask w c) e.key := agree_and hcw e.key
    by_cases hbits : c = nw
    · subst hbits
      rw [if_pos h.mask.symm] at hrun
      obtain ⟨hmok, hmwidth⟩ := ok_of_mask
        (n := { addr := e.next, key := e.key &&& prefixMask w c, mask := prefixMask w c, value := some e.val, parent := some n.addr })
        hcw rfl hmkey
      have hkey : e.key &&& prefixMask w c = e.key := h.masked
      refine ⟨_, _, _, hrun, ⟨?_, ?_, ?_, ?_, Nat.le_succ _⟩, ?_, ?_⟩
      · refine ⟨hmok, ⟨rfl, ?_, ?_⟩, trivial, trivial, hshape.setParent _, trivial⟩
        · rw [hmwidth]; exact hckn
        · rw [hmwidth]; exact (hmag.trans hagc).symm
      · intro x hx
        exact ⟨fun _ hv => (by cases hv), hx.setParent _, trivial⟩
      · rw [entries_node, entries_setParent, entryOf, hmwidth, hkey]
        simp [entry]
      · refine ⟨[e.next], ?_, by simp, by simp⟩
        rw [addrs_node, addrs_setParent, addrs_null, append_nil]
        exact (perm_append_singleton _ _).symm
      · exact ⟨rfl, by rw [hmwidth]; exact hlt, by rw [hkey]; exact hag⟩
      · rw [test, hkey, beq_self_eq_true]
    · rw [if_neg (by rw [h.mask, prefixMask_inj hcw h.le]; exact hbits)] at hrun
      obtain ⟨hmok, hmwidth⟩ := ok_of_mask
        (n := { addr := e.next, key := e.key &&& prefixMask w c, mask := prefixMask w c, value := none, parent := some n.addr })
        hcw rfl hmkey
      obtain ⟨hlok, hlwidth, hlkey, hlentry⟩ := h.leaf (e.next + 1) e.next
      have hnew := hend.resolve_left hbits
      refine ⟨_, _, _, hrun, ⟨?_, ?_, ?_, ?_, by omega⟩, ?_, ?_⟩
      · refine ⟨hmok, ⟨rfl, ?_, ?_⟩, ⟨rfl, ?_, ?_⟩, ?_, hshape.setParent _, hlok, trivial, trivial, trivial, trivial, trivial⟩
        · rw [hmwidth]; exact hckn
        · rw [hmwidth]; exact (hmag.trans hagc).symm
        · rw [hmwidth, hlwidth]; omega
        · rw [hmwidth, hlkey]; exact hmag.symm
        · rw [hmwidth]
          change kn.key.getMsbD c ≠ (e.leaf (e.next + 1) e.next).key.getMsbD c
          rw [hlkey]
          exact hnew.symm
      · intro x hx
        exact ⟨fun _ _ hnull => (by cases hnull), hx.setParent _, fun _ hv => (by cases hv), trivial, trivial⟩
      · rw [entries_node, entries_setParent, entries_node _ .null, hlentry]
        simp only [entryOf, Option.map_none, Option.toList_none, nil_append, entries_null, append_nil,
          Option.toList_some]
        exact perm_append_singleton _ _
      · refine ⟨[e.next, e.next + 1], ?_, by simp, by simp⟩
        rw [addrs_node, addrs_setParent, addrs_node _ .null]
        simp only [addrs_null, append_nil]
        exact perm_middle.symm
      · exact ⟨rfl, by rw [hmwidth]; omega, (hmag.mono (by omega)).trans hag⟩
      · rw [test, hmag _ (by omega), beq_self_eq_true]

/-! ### The whole walk -/

section

variable {n : TrieNode w V} {k0 k1 k : TrieTree w V} {hd next : ℕ}

lemma Inserted.left (hi : e.Inserted nw k0 hd k next) (hshape : (node n k k1).Shape) :
    e.Inserted nw (node n k0 k1) hd (node n k k1) next := by
  obtain ⟨new, hperm, hnew⟩ := hi.addrs
  refine ⟨hshape, ?_, ?_, ⟨new, ?_, hnew⟩, hi.next_le⟩
  · rintro x ⟨hx, hx0, hx1⟩
    exact ⟨hx, hi.full x hx0, hx1⟩
  · rw [entries_node, entries_node]
    exact ((hi.entries.append_right _).append_left _).trans perm_middle
  · rw [addrs_node, addrs_node, cons_append, append_assoc]
    refine .cons _ ((hperm.append_right _).trans ?_)
    rw [append_assoc]
    exact perm_append_comm.append_left _

lemma Inserted.right (hi : e.Inserted nw k1 hd k next) (hshape : (node n k0 k).Shape) (hk : k ≠ null) :
    e.Inserted nw (node n k0 k1) hd (node n k0 k) next := by
  obtain ⟨new, hperm, hnew⟩ := hi.addrs
  refine ⟨hshape, ?_, ?_, ⟨new, ?_, hnew⟩, hi.next_le⟩
  · rintro x ⟨-, hx0, hx1⟩
    exact ⟨fun _ _ => hk, hx0, hi.full x hx1⟩
  · rw [entries_node, entries_node, ← append_assoc, ← append_assoc]
    exact (hi.entries.append_left _).trans perm_middle
  · rw [addrs_node, addrs_node, cons_append, append_assoc]
    exact .cons _ (hperm.append_left _)

lemma Ok.inserted_here (h : e.Ok nw) (hshape : (node n k0 k1).Shape) (hwidth : n.width = nw)
    (hag : Agree n.width e.key n.key) (hv : n.value = none) :
    e.Inserted nw (node n k0 k1) n.addr (node { n with value := some e.val } k0 k1) e.next := by
  have hkey : n.key = e.key := by
    refine Masked.ext h.le ?_ h.masked ?_
    · rw [← hwidth]
      exact hshape.1.masked
    · rw [← hwidth]
      exact hag.symm
  refine ⟨?_, ?_, ?_, ⟨[], ?_, .nil, fun _ h => by cases h⟩, le_rfl⟩
  · obtain ⟨hok, hrest⟩ := hshape
    exact ⟨⟨hok.mask, hok.le, hok.masked⟩, hrest⟩
  · rintro x ⟨-, hx⟩
    exact ⟨fun _ hv => (nomatch hv), hx⟩
  · rw [entries_node, entries_node]
    have hold : n.entryOf = none := by rw [entryOf, hv, Option.map_none]
    have hnew : ({ n with value := some e.val } : TrieNode w V).entryOf = some (e.entry nw n.addr) := by
      rw [entry, ← hkey, ← hwidth]
      rfl
    rw [hold, hnew]
    rfl
  · rw [append_nil, addrs_node, addrs_node]

end

lemma kids_of_bit {b : ℕ} {bit : Bool} {k k' : TrieTree w V} (hk : k.test fun m => m.key.getMsbD b == bit)
    (hk' : ∀ m c0 c1, k' = node m c0 c1 → bit ≠ m.key.getMsbD b) : Kids b k k' := by
  cases k with
  | null => cases hk
  | node m _ _ =>
    cases k' with
    | null => trivial
    | node m' _ _ =>
      rw [test, beq_iff_eq] at hk
      change m.key.getMsbD b ≠ m'.key.getMsbD b
      rw [hk]
      exact hk' m' _ _ rfl

/-- `insert` puts the new entry in, from a node whose prefix the key begins with. -/
lemma Ok.insertInto_spec (h : e.Ok nw) {t : TrieTree w V} (hshape : t.Shape)
    (hroot : t.test (goesAfter e.key e.newMask) = true)
    (hfresh : ∀ old ∈ t.entries, ¬ (old.key = e.key ∧ old.width = nw)) :
    ∃ hd t' next, e.insertInto t = .ok (hd, t', next) ∧ SameRoot t t' ∧ e.Inserted nw t hd t' next := by
  induction t with
  | null => cases hroot
  | node n k0 k1 ih0 ih1 =>
    have hsame : ∀ k0' k1', SameRoot (node n k0 k1) (node n k0' k1') := fun _ _ => ⟨rfl, rfl, rfl, rfl⟩
    have hnode := hshape
    obtain ⟨hok, hb0, hb1, hkids, h0, h1⟩ := hshape
    rw [test, h.mask, hok.goesAfter_iff h.le] at hroot
    obtain ⟨hag, hle⟩ := hroot
    simp only [entries_node, mem_append] at hfresh
    rw [insertInto]
    by_cases ht0 : k0.test (goesAfter e.key e.newMask) = true
    · obtain ⟨hd, k, next, hrun, hk, hi⟩ := ih0 h0 ht0 fun old hold => hfresh old (.inr (.inl hold))
      rw [if_pos ht0, hrun]
      exact ⟨hd, node n k k1, next, rfl, hsame _ _, hi.left ⟨hok, hk.below hb0, hb1, hk.kids_left hkids, hi.shape, h1⟩⟩
    rw [if_neg ht0]
    by_cases ht1 : k1.test (goesAfter e.key e.newMask) = true
    · obtain ⟨hd, k, next, hrun, hk, hi⟩ := ih1 h1 ht1 fun old hold => hfresh old (.inr (.inr hold))
      rw [if_pos ht1, hrun]
      refine ⟨hd, node n k0 k, next, rfl, hsame _ _,
        hi.right ⟨hok, hb0, hk.below hb1, hk.kids_right hkids, h0, hi.shape⟩ ?_⟩
      rintro rfl
      cases k1 <;> cases hk
    rw [if_neg ht1]
    by_cases hhere : n.mask = e.newMask
    · have hwidth : n.width = nw := by
        rw [hok.mask, h.mask, prefixMask_inj hok.le h.le] at hhere
        exact hhere
      -- a value here would be the one of the same prefix
      have hv : n.value = none := by
        cases hv : n.value with
        | none => rfl
        | some v =>
          have hkey : n.key = e.key :=
            Masked.ext h.le (by rw [← hwidth]; exact hok.masked) h.masked (by rw [← hwidth]; exact hag.symm)
          refine absurd ⟨hkey, hwidth⟩ (hfresh { handle := n.addr, key := n.key, width := n.width, val := v } (.inl ?_))
          rw [entryOf, hv]
          exact mem_singleton_self _
      rw [if_pos hhere, hv]
      exact ⟨_, _, _, rfl, ⟨rfl, rfl, rfl, rfl⟩, h.inserted_here hnode hwidth hag hv⟩
    rw [if_neg hhere]
    have hlt : n.width < nw := by
      refine lt_of_le_of_ne hle fun heq => hhere ?_
      rw [hok.mask, h.mask, heq]
    cases k0 with
    | null =>
      obtain ⟨hd, k, next, hrun, hi, hb, -⟩ := h.insertLeg_null hlt hag
      rw [hrun]
      cases k1 with
      | null => exact ⟨hd, node n k null, next, rfl, hsame _ _, hi.left ⟨hok, hb, trivial, trivial, hi.shape, trivial⟩⟩
      | node _ _ _ => exact hkids.elim
    | node m0 c0 c1 =>
      rcases h.insertLeg_node hok hlt hag hb0 h0 (Bool.eq_false_iff.mpr ht0) with ⟨hbit0, hrun⟩ | ⟨hbit0, hrun⟩
      · -- the first leg is skipped, and one of two kids has the bit
        obtain ⟨hd, k, next, hrun1, hi, hb, hk⟩ : ∃ hd k next, e.insertLeg n k1 = .ok (some (hd, k, next)) ∧
            e.Inserted nw k1 hd k next ∧ Below n k ∧ k.test fun m => m.key.getMsbD n.width == e.key.getMsbD n.width := by
          cases k1 with
          | null => exact h.insertLeg_null hlt hag
          | node m1 d0 d1 =>
            rcases h.insertLeg_node hok hlt hag hb1 h1 (Bool.eq_false_iff.mpr ht1) with ⟨hbit1, -⟩ | ⟨-, hleg⟩
            · have hdiff : m0.key.getMsbD n.width ≠ m1.key.getMsbD n.width := hkids
              cases hb : e.key.getMsbD n.width <;> simp_all
            · exact hleg
        have hkids' : Kids n.width (node m0 c0 c1) k := by
          cases k with
          | null => trivial
          | node m _ _ =>
            rw [test, beq_iff_eq] at hk
            exact fun heq => hbit0 (hk.symm.trans heq.symm)
        rw [hrun, hrun1]
        refine ⟨hd, node n (node m0 c0 c1) k, next, rfl, hsame _ _, hi.right ⟨hok, hb0, hb, hkids', h0, hi.shape⟩ ?_⟩
        rintro rfl
        cases hk
      · obtain ⟨hd, k, next, hrun, hi, hb, hk⟩ := hrun
        rw [hrun]
        refine ⟨hd, node n k k1, next, rfl, hsame _ _, hi.left ⟨hok, hb, hb1, kids_of_bit hk ?_, hi.shape, h1⟩⟩
        rintro m _ _ rfl
        rw [hbit0]
        exact hkids

end NewEntry

end Gem5.Base
