import Gem5.Base.AddrRangeMap

/-!
# What a map of address ranges answers

After any run of safe calls (`Safe`) a lookup finds the entry that contains an address or a range, if there is one, and
every iterator in the cache points to an entry. Two calls break this. `erase(p, q)` removes `p` from the cache as often as
there are entries to erase, and leaves iterators to the others behind. And `insert` of an interleaved range tests whether
it contains the start of a range of one address: where it does not, there can be two entries that neither are apart nor
merge, and a lookup stops at the wrong one.
-/

namespace Gem5.Base

open Lib List AddrRange

namespace AddrRangeMap

variable {V : Type} {maxCacheSize : ℤ} {m m' : AddrRangeMap V}

/-- The entries are in order, and apart or parts of one range; the iterators in the cache point to entries. -/
structure Tidy (m : AddrRangeMap V) : Prop where
  sorted : m.tree.Pairwise fun e e' => e.range.key < e'.range.key
  apart : m.tree.Pairwise fun e e' => e.range.Apart e'.range ∨ e.range.mergesWith e'.range = true
  plain : ∀ e ∈ m.tree, e.range.Plain
  fresh : ∀ e ∈ m.tree, e.id < m.next
  ids : (m.tree.map (·.id)).Nodup
  cached : ∀ it ∈ m.cache, ∃ e ∈ m.tree, e.id = it

/-! ### The entries before and after a range -/

lemma before_append_after (m : AddrRangeMap V) (r : AddrRange) : m.before r ++ m.after r = m.tree :=
  takeWhile_append_dropWhile

variable {r : AddrRange} {e e' : RangeEntry V}

lemma key_le_of_mem_before (h : e ∈ m.before r) : e.range.key ≤ r.key := by
  have hnot := mem_takeWhile_imp h
  grind [lt_iff]

lemma Tidy.lt_key_of_mem_after (ht : m.Tidy) (h : e ∈ m.after r) : r.key < e.range.key := by
  have hsorted := ht.sorted
  rw [← m.before_append_after r] at hsorted
  cases hafter : m.after r with
  | nil =>
    rw [hafter] at h
    cases h
  | cons next rest =>
    have hnext : r.key < next.range.key := by
      have hhead := head?_dropWhile_not (fun e : RangeEntry V => !r.lt e.range) m.tree
      rw [show m.tree.dropWhile (fun e => !r.lt e.range) = next :: rest from hafter] at hhead
      exact lt_iff.mp (by simpa using hhead)
    grind [LT.lt.trans, pairwise_cons]

lemma mem_tree_iff : e ∈ m.tree ↔ e ∈ m.before r ∨ e ∈ m.after r := by
  rw [← m.before_append_after r, mem_append]

lemma Tidy.mem_before_iff (ht : m.Tidy) : e ∈ m.before r ↔ e ∈ m.tree ∧ e.range.key ≤ r.key := by
  constructor
  · intro h
    exact ⟨mem_tree_iff.mpr (.inl h), key_le_of_mem_before h⟩
  · rintro ⟨h, hle⟩
    rcases mem_tree_iff.mp h with h | h
    · exact h
    · exact absurd hle (Nat.not_le_of_lt (ht.lt_key_of_mem_after h))

/-! ### Two entries -/

section

variable (ht : m.Tidy) (he : e ∈ m.tree) (he' : e' ∈ m.tree)
include ht he he'

lemma Tidy.eq_of_key (h : e.range.key = e'.range.key) : e = e' := by
  have hsymm : Std.Symm fun e e' : RangeEntry V => e.range.key ≠ e'.range.key := ⟨fun _ _ h => h.symm⟩
  by_contra hne
  exact (ht.sorted.imp fun hlt => Nat.ne_of_lt hlt).forall he he' hne h

lemma Tidy.apart_or_merges : e.range.Apart e'.range ∨ e.range.mergesWith e'.range = true := by
  have hsymm : Std.Symm fun e e' : RangeEntry V => e.range.Apart e'.range ∨ e.range.mergesWith e'.range = true :=
    ⟨fun e e' h => h.imp AddrRange.Apart.symm fun h => by rwa [mergesWith_comm]⟩
  exact ht.apart.forall_of_forall (fun e _ => .inr (mergesWith_iff.mpr ⟨rfl, rfl, rfl⟩)) he he'

lemma Tidy.eq_of_contains {a : Addr} (h : e.range.contains a = true) (h' : e'.range.contains a = true) : e = e' := by
  obtain ⟨hlo, hhi, -⟩ := contains_iff.mp h
  obtain ⟨hlo', hhi', -⟩ := contains_iff.mp h'
  have hm := (ht.apart_or_merges he he').resolve_left (not_apart ⟨hlo, hhi⟩ ⟨hlo', hhi'⟩)
  obtain ⟨hstart, -, hmasks⟩ := mergesWith_iff.mp hm
  refine ht.eq_of_key he he' (AddrRange.key_eq_iff.mpr ⟨hstart.symm, ?_, fun _ => AddrRange.eq_of_contains h h' hm⟩)
  rw [interleaved, interleaved, hmasks]

lemma Tidy.mergesWith_of_start (h : e.range._start ≤ e'.range._start ∧ e'.range._start < e.range._end) :
    e.range.mergesWith e'.range = true :=
  (ht.apart_or_merges he he').resolve_left (not_apart h ⟨BitVec.le_refl _, (ht.plain e' he').start_lt⟩)

end

/-! ### Lookups -/

/-- `it` is an iterator to the entry with `b`, or there is none. -/
def Exact (m : AddrRangeMap V) (b : AddrRange → Bool) (it : Option ℕ) : Prop :=
  (∀ e ∈ m.tree, it = some e.id ↔ b e.range = true) ∧ (it = none ∨ ∃ e ∈ m.tree, it = some e.id)

section

variable {cond : AddrRange → Except RangeFault Bool} {b : AddrRange → Bool} {a : Addr}

lemma Tidy.eq_of_id (ht : m.Tidy) (he : e ∈ m.tree) (he' : e' ∈ m.tree) (h : e.id = e'.id) : e = e' :=
  inj_on_of_nodup_map ht.ids he he' h

lemma Tidy.deref_eq (ht : m.Tidy) (he : e ∈ m.tree) : m.deref e.id = .ok e := by
  rw [deref]
  cases hfind : m.tree.find? fun e' => e'.id = e.id with
  | none => exact absurd (find?_eq_none.mp hfind e he) (by simp)
  | some e' =>
    have hid := find?_some hfind
    rw [ht.eq_of_id (mem_of_find?_eq_some hfind) he (by simpa using hid)]

section

variable (ht : m.Tidy) (hcond : ∀ e ∈ m.tree, cond e.range = .ok (b e.range))
include ht hcond

lemma Tidy.findCached_spec {cache : List ℕ} (hcache : ∀ it ∈ cache, ∃ e ∈ m.tree, e.id = it) :
    ∃ it, m.findCached cond cache = .ok it ∧ ∀ i, it = some i → ∃ e ∈ m.tree, e.id = i ∧ b e.range = true := by
  induction cache with
  | nil => exact ⟨none, rfl, nofun⟩
  | cons i cache ih =>
    obtain ⟨e, he, rfl⟩ := hcache i (mem_cons_self ..)
    rw [findCached, ht.deref_eq he]
    change ∃ it, (cond e.range >>= fun x => if x then _ else _) = _ ∧ _
    rw [hcond e he]
    cases hb : b e.range with
    | true => exact ⟨some e.id, rfl, fun i hi => ⟨e, he, Option.some.inj hi, hb⟩⟩
    | false => exact ih fun it hit => hcache it (mem_cons_of_mem _ hit)

section

variable (hb : ∀ e ∈ m.tree, b e.range = true → e.range.contains a = true)
include hb

/-- Going back from the last entry that starts at or before an address, the loop does not miss the one that contains it. -/
lemma Tidy.findBack_spec {l : List (RangeEntry V)} (hmem : ∀ e ∈ l, e ∈ m.tree)
    (hsorted : l.Pairwise fun e e' => e'.range.key < e.range.key) (hle : ∀ e ∈ l, e.range._start ≤ a) :
    ∃ it, findBack cond l = .ok it ∧ (∀ i, it = some i → ∃ e ∈ m.tree, e.id = i ∧ b e.range = true) ∧
      ∀ e ∈ l, b e.range = true → it = some e.id := by
  induction l with
  | nil => exact ⟨none, rfl, nofun, nofun⟩
  | cons i l ih =>
    have hi := hmem i (mem_cons_self ..)
    rw [findBack, hcond i hi]
    cases hbi : b i.range with
    | true =>
      refine ⟨some i.id, rfl, fun _ h => ⟨i, hi, Option.some.inj h, hbi⟩, fun e he hbe => ?_⟩
      rw [ht.eq_of_contains (hmem e he) hi (hb e (hmem e he) hbe) (hb i hi hbi)]
    | false =>
      have hrest : ∀ e ∈ i :: l, b e.range = true → e ∈ l := by simp_all
      obtain ⟨hlt, hsorted⟩ := pairwise_cons.mp hsorted
      obtain ⟨it, hit, hsome, hfound⟩ := ih (fun e he => hmem e (mem_cons_of_mem _ he)) hsorted
        fun e he => hle e (mem_cons_of_mem _ he)
      by_cases hm : l.head?.any (fun next => next.range.mergesWith i.range) = true
      · refine ⟨it, ?_, hsome, fun e he hbe => hfound e (hrest e he hbe) hbe⟩
        rw [← hit]
        exact if_pos hm
      · -- the entry would contain the starts of both, and they would merge with it
        refine ⟨none, if_neg hm, nofun, fun e he hbe => absurd ?_ hm⟩
        have he := hrest e he hbe
        have hetree := hmem e (mem_cons_of_mem _ he)
        obtain ⟨-, hhi, -⟩ := contains_iff.mp (hb e hetree hbe)
        have hmerge : ∀ e' ∈ i :: l, e.range.key ≤ e'.range.key → e.range.mergesWith e'.range = true := by
          grind [Tidy.mergesWith_of_start, start_le_of_key]
        cases l with
        | nil => cases he
        | cons next rest =>
          have hei := hmerge i (mem_cons_self ..) (hlt e he).le
          have hen := hmerge next (by simp) (by
            grind [LT.lt.le, pairwise_cons])
          rw [mergesWith_iff] at hei hen
          exact mergesWith_iff.mpr
            ⟨hei.1.trans hen.1.symm, hei.2.1.trans hen.2.1.symm, hei.2.2.trans hen.2.2.symm⟩

/-- What `find` gives, for a condition that only the entry with an address can have. -/
lemma Tidy.find_exact (hstart : r._start = a) (hint : r.interleaved = false) :
    ∃ it m', m.find maxCacheSize cond r = .ok (it, m') ∧ m.Exact b it := by
  -- an iterator to an entry with `b` is the answer
  have hexact : ∀ e ∈ m.tree, b e.range = true → m.Exact b (some e.id) := by
    intro e he hbe
    refine ⟨fun e' he' => ⟨fun hid => ?_, fun hbe' => ?_⟩, .inr ⟨e, he, rfl⟩⟩
    · rw [← ht.eq_of_id he he' (Option.some.inj hid)]
      exact hbe
    · rw [ht.eq_of_contains he he' (hb e he hbe) (hb e' he' hbe')]
  obtain ⟨it, hcached, hit⟩ := ht.findCached_spec hcond ht.cached
  rw [find, hcached]
  cases it with
  | some i =>
    obtain ⟨e, he, rfl, hbe⟩ := hit i rfl
    exact ⟨_, _, rfl, hexact e he hbe⟩
  | none =>
    have hback : ∃ it, findBack cond (m.before r).reverse = .ok it ∧ m.Exact b it := by
      have hbefore : ∀ e ∈ (m.before r).reverse, e ∈ m.tree ∧ e.range._start ≤ a := by
        grind [Tidy.mem_before_iff, start_le_of_key]
      have hsorted : (m.before r).reverse.Pairwise fun e e' => e'.range.key < e.range.key :=
        pairwise_reverse.mpr (ht.sorted.sublist (takeWhile_sublist _))
      obtain ⟨it, hrun, hsome, hfound⟩ := ht.findBack_spec hcond hb (fun e he => (hbefore e he).1) hsorted
        fun e he => (hbefore e he).2
      refine ⟨it, hrun, ?_⟩
      cases it with
      | some i => grind
      | none =>
        refine ⟨fun e he => ⟨nofun, fun hbe => ?_⟩, .inl rfl⟩
        grind [Tidy.mem_before_iff, AddrRange.contains_iff, AddrRange.key_le_of_start]
    have htree : ∃ it, m.findTree cond r = .ok it ∧ m.Exact b it := by
      rw [findTree]
      cases hafter : m.after r with
      | nil => exact hback
      | cons next rest =>
        have hnext : next ∈ m.tree := mem_tree_iff.mpr (.inr (hafter ▸ mem_cons_self ..))
        change ∃ it, (cond next.range >>= fun x => if x then _ else _) = _ ∧ _
        rw [hcond next hnext]
        cases hbn : b next.range with
        | true => exact ⟨_, rfl, hexact next hnext hbn⟩
        | false => exact hback
    obtain ⟨it, hrun, hex⟩ := htree
    change ∃ it m', (m.findTree cond r >>= _) = _ ∧ _
    rw [hrun]
    cases it with
    | some i => exact ⟨_, _, rfl, hex⟩
    | none => exact ⟨_, _, rfl, hex⟩

end

end

end

lemma Tidy.containsAddr_exact (ht : m.Tidy) (maxCacheSize : ℤ) (a : Addr) :
    ∃ it m', m.containsAddr maxCacheSize a = .ok (it, m') ∧ m.Exact (·.contains a) it :=
  ht.find_exact (a := a) (fun e he => isSubset_rangeSize a (ht.plain e he)) (fun _ _ h => h) rfl rfl

lemma Tidy.contains_exact (ht : m.Tidy) (maxCacheSize : ℤ) (hr : r._start < r._end) (hint : r.interleaved = false) :
    ∃ it m', m.contains maxCacheSize r = .ok (it, m') ∧ m.Exact (fun s => r.isSubset s = .ok true) it := by
  refine ht.find_exact (a := r._start) (fun e he => ?_) (fun e he h => ?_) rfl hint
  · obtain ⟨b, hb⟩ := exists_isSubset hint (ht.plain e he)
    rw [hb]
    cases b <;> rfl
  · exact contains_of_isSubset (of_decide_eq_true h) hr (ht.plain e he)

lemma Tidy.contains_interleaved (ht : m.Tidy) (maxCacheSize : ℤ) (hint : r.interleaved = true) :
    m.contains maxCacheSize r = if m.tree.isEmpty then .ok (none, m) else .error .subset := by
  have hcond : ∀ s, r.isSubset s = .error .subset := fun s => by rw [isSubset, if_pos hint]
  have hback : ∀ i l, findBack (V := V) r.isSubset (i :: l) = .error .subset := by
    intro i l
    rw [findBack, hcond]
    rfl
  rw [contains, find]
  cases hcache : m.cache with
  | cons it cache =>
    obtain ⟨e, he, rfl⟩ := ht.cached it (hcache ▸ mem_cons_self ..)
    rw [findCached, ht.deref_eq he, if_neg (by simpa using ne_nil_of_mem he)]
    change (r.isSubset e.range >>= _) >>= _ = _
    rw [hcond]
    rfl
  | nil =>
    change (m.findTree r.isSubset r >>= _) = _
    rw [findTree]
    cases hafter : m.after r with
    | cons next rest =>
      have hne : m.tree ≠ [] := by
        rw [← m.before_append_after r, hafter]
        simp
      rw [if_neg (by simpa using hne)]
      change (r.isSubset next.range >>= _) >>= _ = _
      rw [hcond]
      rfl
    | nil =>
      have htree : m.tree = m.before r := by
        rw [← m.before_append_after r, hafter, append_nil]
      rw [htree]
      cases hbefore : (m.before r).reverse with
      | nil =>
        rw [reverse_eq_nil_iff.mp hbefore]
        rfl
      | cons i l =>
        have hne : m.before r ≠ [] := fun h => by simp [h] at hbefore
        rw [if_neg (by simpa using hne)]
        change (findBack r.isSubset (i :: l) >>= _) = _
        rw [hback]
        rfl

/-! ### Every call leaves the map tidy -/

variable {i : ℕ} {p q : Option ℕ}

lemma mem_addNewEntryToCache {it : ℕ} (h : i ∈ (m.addNewEntryToCache maxCacheSize it).cache) : i = it ∨ i ∈ m.cache := by
  unfold addNewEntryToCache at h
  grind [dropLast_subset, mem_singleton]

lemma addNewEntryToCache_tree (m : AddrRangeMap V) (maxCacheSize : ℤ) (it : ℕ) :
    (m.addNewEntryToCache maxCacheSize it).tree = m.tree ∧ (m.addNewEntryToCache maxCacheSize it).next = m.next := by
  unfold addNewEntryToCache
  grind

section

variable {cond : AddrRange → Except RangeFault Bool} {it : Option ℕ}

lemma mem_of_findCached {cache : List ℕ} {i : ℕ} (h : m.findCached cond cache = .ok (some i)) : i ∈ cache := by
  induction cache with
  | nil => cases h
  | cons j cache ih => grind [findCached, bind_eq_ok]

lemma findBack_some {l : List (RangeEntry V)} {i : ℕ} (h : findBack cond l = .ok (some i)) : ∃ e ∈ l, e.id = i := by
  induction l with
  | nil => cases h
  | cons e l ih => grind [findBack, bind_eq_ok]

lemma findBack_none {l : List (RangeEntry V)} (h : findBack cond (e :: l) = .ok none) : cond e.range = .ok false := by
  simp_all [findBack, bind_eq_ok]

/-- `find` looks at the entries next to the range. -/
lemma findTree_cases (h : m.findTree cond r = .ok it) : (∀ i, it = some i → ∃ e ∈ m.tree, e.id = i) ∧
    (it = none → (∀ e l, m.after r = e :: l → cond e.range = .ok false) ∧
      ∀ e l, (m.before r).reverse = e :: l → cond e.range = .ok false) := by
  have hback : ∀ it, findBack cond (m.before r).reverse = .ok it → (∀ i, it = some i → ∃ e ∈ m.tree, e.id = i) ∧
      (it = none → ∀ e l, (m.before r).reverse = e :: l → cond e.range = .ok false) := by
    grind [findBack_some, mem_tree_iff, findBack_none]
  rw [findTree] at h
  cases hafter : m.after r with
  | nil => simp_all
  | cons next rest =>
    rw [hafter] at h
    grind [bind_eq_ok, mem_tree_iff]

lemma find_cases (h : m.find maxCacheSize cond r = .ok (it, m')) :
    (m'.tree = m.tree ∧ m'.next = m.next ∧ ∀ i ∈ m'.cache, i ∈ m.cache ∨ ∃ e ∈ m.tree, e.id = i) ∧
    (it = none → m' = m ∧ (∀ e l, m.after r = e :: l → cond e.range = .ok false) ∧
      ∀ e l, (m.before r).reverse = e :: l → cond e.range = .ok false) := by
  rw [find, bind_eq_ok] at h
  obtain ⟨it', hcached, h⟩ := h
  cases it' with
  | some i => grind [mem_of_findCached]
  | none =>
    change (m.findTree cond r >>= _) = _ at h
    rw [bind_eq_ok] at h
    obtain ⟨it', htree, h⟩ := h
    obtain ⟨hsome, hnone⟩ := findTree_cases htree
    cases it' with
    | some i => grind [addNewEntryToCache_tree, mem_addNewEntryToCache]
    | none => simp_all

lemma Tidy.of_find (ht : m.Tidy) (h : m.find maxCacheSize cond r = .ok (it, m')) : m'.Tidy := by
  obtain ⟨⟨htree, hnext, hcache⟩, -⟩ := find_cases h
  refine ⟨by rw [htree]; exact ht.sorted, by rw [htree]; exact ht.apart, by rw [htree]; exact ht.plain,
    by rw [htree, hnext]; exact ht.fresh, by rw [htree]; exact ht.ids, fun i hi => ?_⟩
  grind [Tidy.cached]

end

lemma Tidy.apart_of_intersects (ht : m.Tidy) (htrust : m.Trusted r)
    (hafter : ∀ e l, m.after r = e :: l → r.intersects e.range = .ok false)
    (hbefore : ∀ e l, (m.before r).reverse = e :: l → r.intersects e.range = .ok false) (he : e ∈ m.tree) :
    r.Apart e.range ∨ r.mergesWith e.range = true := by
  by_contra hnot
  rw [not_or] at hnot
  obtain ⟨hov, hno⟩ := hnot
  -- the neighbour on the side of the entry overlaps, so it merges; but the entry overlaps the neighbour
  obtain ⟨q, hq, htest, hqov⟩ : ∃ q ∈ m.tree, r.intersects q.range = .ok false ∧ ¬ r.Apart q.range := by
    simp only [AddrRange.Apart, BitVec.le_def, not_or, Nat.not_le] at hov
    simp only [AddrRange.Apart, BitVec.le_def, not_or, Nat.not_le]
    rcases mem_tree_iff.mp he with hin | hin
    · cases hl : (m.before r).reverse with
      | nil =>
        rw [reverse_eq_nil_iff.mp hl] at hin
        cases hin
      | cons q l =>
        have hqmem : q ∈ m.before r := mem_reverse.mp (hl ▸ mem_cons_self ..)
        obtain ⟨hq, hqr⟩ := ht.mem_before_iff.mp hqmem
        have heq : e.range.key ≤ q.range.key := by
          have hsorted : (m.before r).reverse.Pairwise fun e e' => e'.range.key < e.range.key :=
            pairwise_reverse.mpr (ht.sorted.sublist (takeWhile_sublist _))
          rw [hl] at hsorted
          rcases mem_cons.mp (hl ▸ mem_reverse.mpr hin) with rfl | hmem
          · exact le_rfl
          · exact ((pairwise_cons.mp hsorted).1 e hmem).le
        have hqs := start_le_of_key hqr
        have hes := start_le_of_key heq
        have hm := ht.mergesWith_of_start he hq ⟨hes, by rw [BitVec.lt_def]; rw [BitVec.le_def] at hqs; omega⟩
        grind [mergesWith_iff]
    · cases hl : m.after r with
      | nil =>
        rw [hl] at hin
        cases hin
      | cons q l =>
        have hq : q ∈ m.after r := hl ▸ mem_cons_self ..
        have hqt := mem_tree_iff.mpr (.inr hq)
        have heq : q.range.key ≤ e.range.key := by
          have hsorted := ht.sorted.sublist (dropWhile_sublist fun e => !r.lt e.range)
          rw [show m.tree.dropWhile (fun e => !r.lt e.range) = q :: l from hl] at hsorted
          grind [LT.lt.le, pairwise_cons]
        have hrs := start_le_of_key (ht.lt_key_of_mem_after hq).le
        have hqs := start_le_of_key heq
        grind [AddrRange.Plain.start_lt, Tidy.plain, BitVec.le_def, BitVec.lt_def]
  have hmerge := mergesWith_of_intersects htest hqov (htrust q hq)
  obtain ⟨hs, hen, hmasks⟩ := mergesWith_iff.mp hmerge
  have hqe : ¬ q.range.Apart e.range := by
    unfold AddrRange.Apart at hov ⊢
    rwa [hs, hen]
  grind [mergesWith_iff, Tidy.apart_or_merges]

lemma pairwise_insert {α : Type} {R : α → α → Prop} {l l' : List α} {x : α} (h : (l ++ l').Pairwise R)
    (hl : ∀ y ∈ l, R y x) (hl' : ∀ y ∈ l', R x y) : (l ++ x :: l').Pairwise R := by
  simp_all [pairwise_append, pairwise_cons, mem_cons]

lemma Tidy.of_new (ht : m.Tidy) {d : V} (hr : r.Plain) (hkey : ∀ e ∈ m.tree, e.range.key ≠ r.key)
    (hapart : ∀ e ∈ m.tree, r.Apart e.range ∨ r.mergesWith e.range = true) :
    Tidy { m with
      tree := m.before r ++ { id := m.next, range := r, value := d } :: m.after r
      next := m.next + 1 } := by
  have hperm : (m.before r ++ ({ id := m.next, range := r, value := d } : RangeEntry V) :: m.after r).Perm
      ({ id := m.next, range := r, value := d } :: m.tree) := by
    rw [← m.before_append_after r]
    exact perm_middle
  have hmem : ∀ {e}, e ∈ m.before r ++ ({ id := m.next, range := r, value := d } : RangeEntry V) :: m.after r →
      e = { id := m.next, range := r, value := d } ∨ e ∈ m.tree :=
    fun he => mem_cons.mp (hperm.mem_iff.mp he)
  constructor
  · refine pairwise_insert (by rw [before_append_after]; exact ht.sorted) (fun e he => ?_)
      fun e he => ht.lt_key_of_mem_after he
    exact lt_of_le_of_ne (key_le_of_mem_before he) (hkey e (mem_tree_iff.mpr (.inl he)))
  · refine pairwise_insert (by rw [before_append_after]; exact ht.apart) (fun e he => ?_)
      fun e he => hapart e (mem_tree_iff.mpr (.inr he))
    grind [mem_tree_iff, AddrRange.Apart.symm, mergesWith_comm]
  · grind [Tidy.plain]
  · intro e he
    rcases hmem he with rfl | he
    · exact Nat.lt_succ_self _
    · exact Nat.lt_succ_of_lt (ht.fresh e he)
  · refine (hperm.map _).nodup_iff.mpr (nodup_cons.mpr ⟨fun h => ?_, ht.ids⟩)
    obtain ⟨e, he, hid⟩ := mem_map.mp h
    exact absurd (ht.fresh e he) (by rw [hid]; exact Nat.lt_irrefl _)
  · intro it hit
    obtain ⟨e, he, hid⟩ := ht.cached it hit
    exact ⟨e, hperm.mem_iff.mpr (mem_cons_of_mem _ he), hid⟩

lemma Tidy.of_insert (ht : m.Tidy) {d : V} {it : Option ℕ} (hr : r.Plain) (htrust : m.Trusted r)
    (h : m.insert maxCacheSize r d = .ok (it, m')) : m'.Tidy := by
  rw [insert, bind_eq_ok] at h
  obtain ⟨⟨it', m1⟩, hfind, h⟩ := h
  have ht1 := ht.of_find hfind
  cases it' with
  | some i =>
    cases h
    exact ht1
  | none =>
    obtain ⟨rfl, hafter, hbefore⟩ := (find_cases hfind).2 rfl
    dsimp only at h
    cases hkey : m1.tree.find? fun e => !e.range.lt r && !r.lt e.range with
    | some e =>
      rw [hkey] at h
      cases h
      exact ht
    | none =>
      rw [hkey] at h
      cases h
      refine ht.of_new hr ?_ fun e he => ht.apart_of_intersects htrust hafter hbefore he
      grind [lt_iff]

lemma Tidy.sublist (ht : m.Tidy) {tree : List (RangeEntry V)} {cache : List ℕ} (hsub : tree.Sublist m.tree)
    (hcache : ∀ it ∈ cache, ∃ e ∈ tree, e.id = it) : Tidy { m with tree, cache } where
  sorted := ht.sorted.sublist hsub
  apart := ht.apart.sublist hsub
  plain := fun e he => ht.plain e (hsub.subset he)
  fresh := fun e he => ht.fresh e (hsub.subset he)
  ids := ht.ids.sublist (hsub.map _)
  cached := hcache

lemma Tidy.of_erase (ht : m.Tidy) {p : ℕ} (h : m.erase p = .ok m') : m'.Tidy := by
  rw [erase, bind_eq_ok] at h
  obtain ⟨_, -, h⟩ := h
  cases h
  refine ht.sublist filter_sublist fun it hit => ?_
  rw [mem_filter, decide_eq_true_eq] at hit
  obtain ⟨e, he, rfl⟩ := ht.cached it hit.1
  exact ⟨e, mem_filter.mpr ⟨he, decide_eq_true hit.2⟩, rfl⟩

lemma position_le (h : m.position p = some i) : i ≤ m.tree.length := by
  cases p with
  | none =>
    cases h
    exact le_rfl
  | some it => exact (findIdx?_eq_some_iff_findIdx_eq.mp h).1.le

lemma position_lt (h : m.position p = some i) (hi : i < m.tree.length) :
    ∃ e, p = some e.id ∧ m.tree[i]? = some e := by
  cases p with
  | none =>
    cases h
    exact absurd hi (Nat.lt_irrefl _)
  | some it =>
    obtain ⟨hlt, hid, -⟩ := findIdx?_eq_some_iff_getElem.mp h
    exact ⟨m.tree[i], by rw [of_decide_eq_true hid], getElem?_eq_getElem hlt⟩

lemma eraseRange_cases (h : m.eraseRange p q = .ok m') :
    ∃ i j, m.position p = some i ∧ m.position q = some j ∧ m'.tree = m.tree.take i ++ m.tree.drop j ∧ m'.next = m.next ∧
      ((i = j ∧ m'.cache = m.cache) ∨ ∃ e, i < j ∧ p = some e.id ∧ m'.cache = m.cache.filter (some · ≠ p) ∧
        m.tree = m.tree.take i ++ e :: ((m.tree.take j).drop (i + 1) ++ m.tree.drop j)) := by
  unfold eraseRange at h
  cases hi : m.position p with
  | none =>
    rw [hi] at h
    cases h
  | some i =>
    cases hj : m.position q with
    | none =>
      rw [hi, hj] at h
      cases h
    | some j =>
      rw [hi, hj] at h
      change (if i ≤ j then _ else _) = _ at h
      split at h
      · rename_i hij
        cases h
        refine ⟨i, j, rfl, rfl, rfl, rfl, ?_⟩
        rcases Nat.eq_or_lt_of_le hij with rfl | hlt
        · exact .inl ⟨rfl, if_neg (Nat.lt_irrefl _)⟩
        · have hjle := position_le hj
          obtain ⟨e, rfl, hget⟩ := position_lt hi (by omega)
          refine .inr ⟨e, hlt, rfl, if_pos hlt, ?_⟩
          have hdrop : m.tree.drop i = e :: m.tree.drop (i + 1) := drop_eq_getElem?_toList_append.trans (by rw [hget]; rfl)
          grind [length_take, take_append_drop]
      · cases h

/-- Erasing a range of entries leaves no iterator to one of them exactly if only the first was in the cache. -/
lemma Tidy.eraseRange_cached_iff (ht : m.Tidy) (h : m.eraseRange p q = .ok m') :
    (∀ it ∈ m'.cache, ∃ e ∈ m'.tree, e.id = it) ↔ m.Uncached p q := by
  obtain ⟨i, j, hi, hj, htree, -, ⟨rfl, hcache⟩ | ⟨e, hij, rfl, hcache, hsplit⟩⟩ := eraseRange_cases h
  · rw [htree, hcache, take_append_drop]
    refine ⟨fun _ i' j' hi' hj' e he => ?_, fun _ => ht.cached⟩
    grind [drop_eq_nil_of_le, length_take]
  · have hnodup : m.tree.Nodup := ht.ids.of_map
    have hparts := hnodup
    rw [hsplit, nodup_append, nodup_cons, nodup_append] at hparts
    obtain ⟨-, ⟨he, -, -, hmid⟩, hfront⟩ := hparts
    have htail : ∀ e' ∈ (m.tree.take j).drop (i + 1), e' ∈ m.tree ∧ e' ≠ e ∧ e' ∉ m.tree.take i ++ m.tree.drop j := by
      intro e' he'
      refine ⟨mem_of_mem_take (mem_of_mem_drop he'), ?_, ?_⟩
      · grind
      · grind
    constructor
    · intro hall i' j' hi' hj' e' he' hcached
      rw [hi] at hi'
      rw [hj] at hj'
      cases hi'
      cases hj'
      obtain ⟨hmem, hne, hout⟩ := htail e' he'
      obtain ⟨e'', he'', hid⟩ := hall e'.id (by
        rw [hcache, mem_filter]
        refine ⟨hcached, decide_eq_true fun hid => hne ?_⟩
        exact ht.eq_of_id hmem (hsplit ▸ mem_append_right _ (mem_cons_self ..)) (Option.some.inj hid))
      rw [htree] at he''
      have hin : e'' ∈ m.tree := by grind
      rw [ht.eq_of_id hin hmem hid] at he''
      exact hout he''
    · intro hun it hit
      rw [hcache, mem_filter, decide_eq_true_eq] at hit
      obtain ⟨e', he', rfl⟩ := ht.cached it hit.1
      refine ⟨e', ?_, rfl⟩
      rw [htree]
      rw [hsplit, mem_append, mem_cons, mem_append] at he'
      rcases he' with h | rfl | h | h
      · exact mem_append_left _ h
      · exact absurd rfl hit.2
      · exact absurd hit.1 (hun i j hi hj e' h)
      · exact mem_append_right _ h

lemma Tidy.of_eraseRange (ht : m.Tidy) (hun : m.Uncached p q) (h : m.eraseRange p q = .ok m') : m'.Tidy := by
  have hcached := (ht.eraseRange_cached_iff h).mpr hun
  obtain ⟨i, j, -, -, htree, hnext, hcase⟩ := eraseRange_cases h
  have hsub : (m.tree.take i ++ m.tree.drop j).Sublist m.tree := by
    grind [take_append_drop, List.Sublist.append_left, sublist_append_right]
  obtain ⟨tree, cache, next⟩ := m'
  simp_all [Tidy.sublist]

lemma Tidy.of_call (ht : m.Tidy) {c : RangeCall V} (hsafe : m.Safe c) (h : m.call maxCacheSize c = .ok m') : m'.Tidy := by
  cases c with
  | insert r d =>
    obtain ⟨⟨it, m1⟩, hrun, h⟩ := bind_eq_ok.mp h
    cases h
    exact ht.of_insert hsafe.1 hsafe.2 hrun
  | erase p => exact ht.of_erase h
  | eraseRange p q => exact ht.of_eraseRange hsafe h
  | clear =>
    cases h
    exact ht.sublist (nil_sublist _) nofun
  | containsAddr a =>
    obtain ⟨⟨it, m1⟩, hrun, h⟩ := bind_eq_ok.mp h
    cases h
    exact ht.of_find hrun
  | contains r =>
    obtain ⟨⟨it, m1⟩, hrun, h⟩ := bind_eq_ok.mp h
    cases h
    exact ht.of_find hrun
  | intersects r =>
    obtain ⟨⟨it, m1⟩, hrun, h⟩ := bind_eq_ok.mp h
    cases h
    exact ht.of_find hrun

lemma tidy_init : (init : AddrRangeMap V).Tidy :=
  ⟨.nil, .nil, nofun, nofun, .nil, nofun⟩

lemma Reachable.tidy (h : Reachable maxCacheSize Safe m) : m.Tidy := by
  induction h with
  | init => exact tidy_init
  | call _ _ hsafe hrun ih => exact ih.of_call hsafe hrun

/-- **A map of address ranges answers exactly, after any run of safe calls.** A lookup of an address finds the entry whose
range contains it, and a lookup of a range finds the one it is a subset of, if there is one; a range that is interleaved
cannot be looked up. Every iterator in the cache points to an entry; after `erase(p, q)` too exactly if that call was
safe. -/
theorem answers_exactly (h : Reachable maxCacheSize Safe m) :
    (∀ a, ∃ it m', m.containsAddr maxCacheSize a = .ok (it, m') ∧ m.Exact (·.contains a) it) ∧
    (∀ r, r._start < r._end → r.interleaved = false →
      ∃ it m', m.contains maxCacheSize r = .ok (it, m') ∧ m.Exact (fun s => r.isSubset s = .ok true) it) ∧
    (∀ r, r.interleaved = true → m.contains maxCacheSize r = if m.tree.isEmpty then .ok (none, m) else .error .subset) ∧
    (∀ it ∈ m.cache, ∃ e ∈ m.tree, e.id = it) ∧
    ∀ p q m', m.eraseRange p q = .ok m' → ((∀ it ∈ m'.cache, ∃ e ∈ m'.tree, e.id = it) ↔ m.Uncached p q) := by
  have ht := h.tidy
  exact ⟨ht.containsAddr_exact maxCacheSize, fun r => ht.contains_exact maxCacheSize,
    fun r => ht.contains_interleaved maxCacheSize, ht.cached, fun p q m' => ht.eraseRange_cached_iff⟩

lemma Reachable.of_calls {P : AddrRangeMap V → RangeCall V → Prop} (cs : List (RangeCall V)) (h : Reachable maxCacheSize P m)
    (hcs : ∀ c ∈ cs, Allowed c ∧ ∀ m, P m c) (hrun : cs.foldlM (fun m c => m.call maxCacheSize c) m = .ok m') :
    Reachable maxCacheSize P m' := by
  induction cs generalizing m with
  | nil =>
    cases hrun
    exact h
  | cons c cs ih =>
    rw [foldlM_cons] at hrun
    obtain ⟨m1, hcall, hrun⟩ := bind_eq_ok.mp hrun
    obtain ⟨hallowed, hP⟩ := hcs c (mem_cons_self ..)
    exact ih (.call h hallowed (hP m) hcall) (fun c hc => hcs c (mem_cons_of_mem _ hc)) hrun

/-- Both parts of an interleaved range, and a lookup in the second. -/
theorem answers_exactly_two : ∃ m : AddrRangeMap ℕ, Reachable 1 Safe m ∧ m.tree.length = 2 ∧
    ∃ it m', m.containsAddr 1 7 = .ok (it, m') ∧ m.Exact (·.contains 7) it := by
  let part (i : BitVec 8) : AddrRange := { _start := 0, _end := 16, masks := [1], intlvMatch := i }
  have hlt : (0 : Addr) < 16 := by decide
  have hplain : ∀ i, (part i).Plain := fun i => ⟨hlt, nofun, fun _ => ⟨1, by simp [part], by decide⟩⟩
  have h1 : Reachable 1 Safe ({ tree := [⟨0, part 0, 5⟩], cache := [], next := 1 } : AddrRangeMap ℕ) :=
    .call (c := .insert (part 0) 5) .init hlt ⟨hplain 0, nofun⟩ rfl
  have h2 : Reachable 1 Safe ({ tree := [⟨0, part 0, 5⟩, ⟨1, part 1, 6⟩], cache := [], next := 2 } : AddrRangeMap ℕ) := by
    refine .call (c := .insert (part 1) 6) h1 hlt ⟨hplain 1, ?_⟩ (by decide)
    intro e he _ _
    rw [mem_singleton.mp he]
    exact .inr (by decide)
  exact ⟨_, h2, rfl, (answers_exactly h2).1 7⟩

/-- Two entries that were looked up and are erased together: the second iterator stays in the cache. And an interleaved
range around a range of one address: a lookup stops at the latter. -/
theorem answers_wrongly :
    (∃ m : AddrRangeMap ℕ, Reachable 2 (fun _ _ => True) m ∧ ∃ it ∈ m.cache, ∀ e ∈ m.tree, e.id ≠ it) ∧
    ∃ m : AddrRangeMap ℕ, Reachable 0 (fun _ _ => True) m ∧
      (∃ e ∈ m.tree, e.range.contains 8 = true) ∧ m.containsAddr 0 8 = .ok (none, m) := by
  constructor
  · refine ⟨{ tree := [], cache := [1], next := 2 }, .of_calls [.insert (rangeSize 0 1) 5, .insert (rangeSize 1 1) 6,
      .containsAddr 0, .containsAddr 1, .eraseRange (some 0) none] .init ?_ (by decide), 1, by simp, nofun⟩
    simp [Allowed, rangeSize]
  · refine ⟨{ tree := [⟨1, ⟨0, 16, [1], 0⟩, 6⟩, ⟨0, rangeSize 5 1, 5⟩], cache := [], next := 2 },
      .of_calls [.insert (rangeSize 5 1) 5, .insert ⟨0, 16, [1], 0⟩ 6] .init ?_ (by decide),
      ⟨_, mem_cons_self .., by decide⟩, by decide⟩
    simp [Allowed, rangeSize]

end AddrRangeMap

end Gem5.Base
