import Gem5.Base.AddrRange

/-!
# Address ranges as sets of addresses

`isSubset` tests the first and the last address of a range, and that the range is no longer than a stripe of the other
one. With a mask of several bits two stripes next to each other can both belong to a range, and a subset that reaches
over both is refused; nor is the test right for a range that is empty, or whose masks are all above the bits of an
`int` (`isSubset_wrong`). **`answersSubset_iff`** says exactly when the answer is right.

`exclude` sorts the ranges that it takes away and sweeps over them with the start of what is left. Its result is the
difference of the sets (**`exclude_spec`**), in ascending order and without empty ranges.
-/

namespace Gem5.Base

open Lib List

namespace AddrRange

variable {r x : AddrRange} {a b : Addr} {masks : List Addr}

/-! ### Stripes -/

lemma getLsbD_of_lt_ctz64 {value : Addr} {i : ℕ} (hi : i < ctz64 value) : value.getLsbD i = false := by
  by_cases h64 : i < 64
  · unfold ctz64 at hi
    cases hf : (range 64).find? fun i => value.getLsbD i with
    | none => simpa using find?_eq_none.mp hf i (mem_range.mpr h64)
    | some k =>
      rw [hf] at hi
      simpa using (find?_range_eq_some.mp hf).2.2 i hi
  · exact BitVec.getLsbD_of_ge _ _ (Nat.not_lt.mp h64)

lemma getLsbD_ctz64 {value : Addr} (h : ctz64 value < 64) : value.getLsbD (ctz64 value) = true := by
  unfold ctz64 at h ⊢
  cases hf : (range 64).find? fun i => value.getLsbD i with
  | none => simp [hf] at h
  | some k => exact (find?_range_eq_some.mp hf).1

lemma getLsbD_combinedMask {mask : Addr} (hmask : mask ∈ masks) {i : ℕ} (hi : i < 32)
    (h : (combinedMask masks).getLsbD i = false) : mask.getLsbD i = false := by
  suffices hfold : ∀ (ms : List Addr) (c : BitVec 32),
      (ms.foldl (fun combined mask => (combined.signExtend 64 ||| mask).truncate 32) c).getLsbD i =
        (c.getLsbD i || ms.any (·.getLsbD i)) by
    rw [combinedMask, hfold, Bool.or_eq_false_iff, any_eq_false] at h
    simpa using h.2 mask hmask
  intro ms
  induction ms with
  | nil => simp
  | cons mask ms ih =>
    intro c
    rw [foldl_cons, combine_eq, ih]
    simp [hi, Bool.or_assoc]

lemma getLsbD_mask_eq_false {i : ℕ} (hl : ctz64 ((combinedMask masks).signExtend 64) < 64)
    (hi : i < ctz64 ((combinedMask masks).signExtend 64)) {mask : Addr} (hmask : mask ∈ masks) :
    mask.getLsbD i = false := by
  have hlow : ctz64 ((combinedMask masks).signExtend 64) < 32 := by
    by_contra hge
    -- the sign is copied to the bits above
    have hset := getLsbD_ctz64 hl
    have hclear : ((combinedMask masks).signExtend 64).getLsbD 31 = false := getLsbD_of_lt_ctz64 (by omega)
    rw [BitVec.getLsbD_signExtend, if_neg hge] at hset
    rw [BitVec.getLsbD_signExtend, if_pos (by decide)] at hclear
    rw [BitVec.msb_eq_getLsbD_last] at hset
    simp_all
  have hbit := getLsbD_of_lt_ctz64 hi
  rw [BitVec.getLsbD_signExtend, if_pos (by omega)] at hbit
  exact getLsbD_combinedMask hmask (by omega) (by simpa [show i < 64 by omega] using hbit)

lemma sel_congr (h : ∀ mask ∈ masks, a &&& mask = b &&& mask) : sel masks a = sel masks b := by
  refine foldl_ext _ _ _ fun sel ⟨mask, i⟩ hmem => ?_
  dsimp only
  rw [h mask (fst_mem_of_mem_zipIdx hmem)]

lemma sel_eq_of_div {l : ℕ} (hl : ∀ mask ∈ masks, ∀ i < l, mask.getLsbD i = false)
    (h : a.toNat / 2 ^ l = b.toNat / 2 ^ l) : sel masks a = sel masks b := by
  refine sel_congr fun mask hmask => BitVec.eq_of_getLsbD_eq fun i _ => ?_
  rw [BitVec.getLsbD_and, BitVec.getLsbD_and]
  by_cases hi : i < l
  · simp [hl mask hmask i hi]
  · have hbit := congrArg (·.testBit (i - l)) h
    simp only [Nat.testBit_div_two_pow, show i - l + l = i by omega] at hbit
    rw [show a.getLsbD i = b.getLsbD i from hbit]

lemma div_eq_or {s t e g : ℕ} (hs : s ≤ t) (he : t ≤ e) (hg : e < s + g) : t / g = s / g ∨ t / g = e / g := by
  have h1 := Nat.div_le_div_right (c := g) hs
  have h2 := Nat.div_le_div_right (c := g) he
  have h3 : e / g ≤ s / g + 1 := by
    rw [← Nat.add_div_right s (by omega)]
    exact Nat.div_le_div_right (by omega)
  omega

/-! ### Subsets -/

lemma toNat_size (hx : x._start < x._end) (hint : x.interleaved = false) :
    x.size.toNat = x._end.toNat - x._start.toNat := by
  have hm : x.masks.length = 0 := by simpa [interleaved] using hint
  rw [size, hm, BitVec.ushiftRight_zero]
  bv_omega

lemma contains_of_plain (hx : x.Plain) (hint : x.interleaved = false) :
    x.contains a = true ↔ x._start ≤ a ∧ a < x._end := by
  have hm : x.masks = [] := by simpa [interleaved] using hint
  rw [contains_iff, hm, hx.intlvMatch hint]
  simp [sel]

lemma contains_of_ends {g : Addr} (hr : r.interleaved = true) (hg : r.granularity = .ok g)
    (hx : x._start < x._end) (hint : x.interleaved = false) (hsize : x.size ≤ g) (hs : r.contains x._start = true)
    (he : r.contains (x._end - 1) = true) (ha : x._start ≤ a) (ha' : a < x._end) : r.contains a = true := by
  rw [granularity, if_pos hr] at hg
  dsimp only at hg
  split_ifs at hg with hl
  cases hg
  have hpow : ((1 : Addr) <<< ctz64 ((combinedMask r.masks).signExtend 64)).toNat =
      2 ^ ctz64 ((combinedMask r.masks).signExtend 64) := by
    have := Nat.pow_lt_pow_right (show 1 < 2 by decide) hl
    simp [Nat.shiftLeft_eq, Nat.mod_eq_of_lt this]
  rw [BitVec.le_def, hpow, toNat_size hx hint] at hsize
  rw [contains_iff] at hs he ⊢
  have hlow : ∀ mask ∈ r.masks, ∀ i < ctz64 ((combinedMask r.masks).signExtend 64), mask.getLsbD i = false :=
    fun mask hmask i hi => getLsbD_mask_eq_false hl hi hmask
  have hend : (x._end - 1).toNat = x._end.toNat - 1 := by bv_omega
  rw [BitVec.lt_def] at hx ha'
  rw [BitVec.le_def] at ha
  refine ⟨by bv_omega, by bv_omega, ?_⟩
  rcases div_eq_or (e := (x._end - 1).toNat) ha (by omega)
    (show _ < _ + 2 ^ ctz64 ((combinedMask r.masks).signExtend 64) by omega) with h | h
  · rw [sel_eq_of_div hlow h, hs.2.2]
  · rw [sel_eq_of_div hlow h, he.2.2]

/-- Every address of `x` is one of `r`. -/
def Subset (x r : AddrRange) : Prop := ∀ a, x.contains a = true → r.contains a = true

/-- `isSubset` answers, and rightly. -/
def AnswersSubset (x r : AddrRange) : Prop := ∃ b, x.isSubset r = .ok b ∧ (b = true ↔ x.Subset r)

section Answers

variable (hx : x.Plain) (hint : x.interleaved = false)

include hx hint

lemma contains_start : x.contains x._start = true :=
  (contains_of_plain hx hint).mpr ⟨BitVec.le_refl _, hx.start_lt⟩

lemma contains_last : x.contains (x._end - 1) = true := by
  have hlt := hx.start_lt
  rw [contains_of_plain hx hint]
  constructor <;> bv_omega

/-- A range that is not interleaved is a subset of one with stripes if it is no longer than a stripe and both ends are
in it. -/
lemma answersSubset_interleaved (hri : r.interleaved = true) : x.AnswersSubset r ↔
    r.contains x._start = false ∨ ∃ g, r.granularity = .ok g ∧ (x.size ≤ g ∨ ¬ x.Subset r) := by
  unfold AnswersSubset isSubset
  rw [if_neg (by simp [hint]), if_pos hri]
  cases hs : r.contains x._start with
  | false =>
    refine iff_of_true ⟨false, rfl, nofun, fun hsub => ?_⟩ (Or.inl rfl)
    exact absurd (hsub _ (contains_start hx hint)) (by simp [hs])
  | true =>
    rw [if_pos rfl]
    cases hg : r.granularity with
    | error e =>
      constructor
      · rintro ⟨b, hb, -⟩
        cases hb
      · rintro (h | ⟨g, h, -⟩)
        · cases h
        · cases h
    | ok g =>
      change (∃ b, (if x.size ≤ g then _ else _) = _ ∧ _) ↔ _
      by_cases hsize : x.size ≤ g
      · rw [if_pos hsize]
        refine iff_of_true ?_ (Or.inr ⟨g, rfl, Or.inl hsize⟩)
        have hsub : x.Subset r ↔ r.contains (x._end - 1) = true := by
          refine ⟨fun h => h _ (contains_last hx hint), fun he a ha => ?_⟩
          rw [contains_of_plain hx hint] at ha
          exact contains_of_ends hri hg hx.start_lt hint hsize hs he ha.1 ha.2
        split_ifs with hone
        · exact ⟨true, rfl, iff_of_true rfl (hsub.mpr (hone ▸ hs))⟩
        · exact ⟨_, rfl, hsub.symm⟩
      · rw [if_neg hsize]
        constructor
        · rintro ⟨b, hb, h⟩
          cases hb
          exact Or.inr ⟨g, rfl, Or.inr fun hsub => absurd (h.mpr hsub) (by decide)⟩
        · rintro (h | ⟨g', hg', h⟩)
          · cases h
          · cases hg'
            exact ⟨false, rfl, iff_of_false (by decide) (h.resolve_left hsize)⟩

lemma answersSubset_plain (hri : r.interleaved = false) (hmatch : r.intlvMatch = 0) (hvalid : r._start ≤ r._end) :
    x.AnswersSubset r ↔ r._start < r._end ∨ x._start < r._start := by
  have hlt := hx.start_lt
  unfold AnswersSubset isSubset
  rw [if_neg (by simp [hint]), if_neg (by simp [hri]), if_neg (by simpa [BitVec.not_le] using hlt)]
  have hm : r.masks = [] := by simpa [interleaved] using hri
  have hmem (a : Addr) : r.contains a = true ↔ r._start ≤ a ∧ a < r._end := by
    rw [contains_iff, hm, hmatch]
    simp [sel]
  split_ifs with hle
  · -- the range is empty
    have hsub : ¬ x.Subset r := by
      intro h
      have := (hmem _).mp (h _ (contains_start hx hint))
      bv_omega
    constructor
    · rintro ⟨b, hb, h⟩
      cases hb
      refine Or.inr (BitVec.not_le.mp fun hge => hsub (h.mp ?_))
      simpa using hge
    · rintro (h | h)
      · exact absurd hle (BitVec.not_le.mpr h)
      · exact ⟨_, rfl, iff_of_false (by simpa [BitVec.not_le] using h) hsub⟩
  · refine iff_of_true ⟨_, rfl, ?_⟩ (Or.inl (BitVec.not_le.mp hle))
    rw [decide_eq_true_eq]
    constructor
    · rintro ⟨h1, h2⟩ a ha
      rw [contains_of_plain hx hint] at ha
      rw [hmem]
      constructor <;> bv_omega
    · intro hsub
      have h1 := (hmem _).mp (hsub _ (contains_start hx hint))
      have h2 := (hmem _).mp (hsub _ (contains_last hx hint))
      exact ⟨h1.1, by bv_omega⟩

end Answers

/-- **When `isSubset` answers rightly**, for a range `x` that is not interleaved and has an address, and a valid `r`: if
`r` has stripes, the start of `x` is not in `r`, or `x` is no longer than a stripe, or it is not a subset; if `r` has
none, it is not empty, or starts after `x`. -/
theorem answersSubset_iff (hx : x.Plain) (hint : x.interleaved = false) (hvalid : r._start ≤ r._end)
    (hmatch : r.interleaved = false → r.intlvMatch = 0) : x.AnswersSubset r ↔ if r.interleaved then
      r.contains x._start = false ∨ ∃ g, r.granularity = .ok g ∧ (x.size ≤ g ∨ ¬ x.Subset r)
    else r._start < r._end ∨ x._start < r._start := by
  cases hri : r.interleaved with
  | true => exact answersSubset_interleaved hx hint hri
  | false => exact answersSubset_plain hx hint hri (hmatch hri) hvalid

lemma plain_rangeSize {a n : Addr} (h : a < a + n) : (rangeSize a n).Plain :=
  ⟨h, fun _ => rfl, fun h => absurd h (by simp [rangeSize, interleaved])⟩

/-- Of four addresses with a mask for the two lowest bits, those with an odd number of them are `1` and `2`: the answer is
right for the first, and for the first three, which are more than a stripe and no subset. -/
theorem answersSubset_iff_odd :
    (rangeSize 1 1).AnswersSubset ⟨0, 4, [3], 1⟩ ∧ (rangeSize 0 3).AnswersSubset ⟨0, 4, [3], 1⟩ :=
  ⟨(answersSubset_iff (plain_rangeSize (by decide)) rfl (by decide) fun h => absurd h (by decide)).mpr
      (Or.inr ⟨1, by decide, Or.inl (by decide)⟩),
    (answersSubset_iff (plain_rangeSize (by decide)) rfl (by decide) fun h => absurd h (by decide)).mpr
      (Or.inl (by decide))⟩

/-- **`isSubset` is wrong**: a range over two stripes that belong to the same range is not found to be a subset, a range is
found to be a subset of one that is empty, and there is no answer if all masks are above the bits of an `int`. -/
theorem isSubset_wrong : ((∀ a, (rangeSize 1 2).contains a = true → (⟨0, 4, [3], 1⟩ : AddrRange).contains a = true) ∧
      (rangeSize 1 2).isSubset ⟨0, 4, [3], 1⟩ = .ok false) ∧
    ((∀ a, (⟨5, 5, [], 0⟩ : AddrRange).contains a = false) ∧ (rangeSize 6 1).isSubset ⟨5, 5, [], 0⟩ = .ok true) ∧
    (rangeSize 0 1).isSubset ⟨0, BitVec.allOnes 64, [1 <<< 32], 0⟩ = .error .shift := by
  refine ⟨⟨fun a ha => ?_, by decide⟩, ⟨fun a => ?_, by decide⟩, by decide⟩
  · have hlt : 1 ≤ a.toNat ∧ a.toNat < 3 := by
      rw [contains_of_plain (plain_rangeSize (by decide)) rfl] at ha
      exact ha
    obtain h | h : a.toNat = 1 ∨ a.toNat = 2 := by omega
    · obtain rfl : a = 1 := BitVec.eq_of_toNat_eq h
      decide
    · obtain rfl : a = 2 := BitVec.eq_of_toNat_eq h
      decide
  · rw [Bool.eq_false_iff, Ne, contains_iff]
    rintro ⟨h1, h2, -⟩
    bv_omega

/-! ### Differences -/

/-- `AddrRange(_start, _end)`. -/
def between (s e : Addr) : AddrRange := { _start := s, _end := e, masks := [], intlvMatch := 0 }

def valid (r : AddrRange) : Bool := r._start ≤ r._end

/-- `sort()` of a list of ranges. -/
def sort (ranges : List AddrRange) : List AddrRange := ranges.mergeSort fun r s => !s.lt r

/-- The loop of `exclude`, where what is left starts at `nextStart`. There is no result if an `assert` fails. -/
def excludeLoop (r : AddrRange) : Addr → List AddrRange → Option (List AddrRange)
  | nextStart, [] => some (if nextStart < r._end then [between nextStart r._end] else [])
  | nextStart, e :: es => do
    guard (!e.interleaved)
    if !(← (r.intersects e).toOption) then r.excludeLoop nextStart es
    else if e._start ≤ nextStart then
      if e._end < r._end then r.excludeLoop (if nextStart < e._end then e._end else nextStart) es else some []
    else (if e._end < r._end then r.excludeLoop e._end es else some []).map (between nextStart e._start :: ·)

/-- `exclude(exclude_ranges)`. -/
def exclude (r : AddrRange) (excludeRanges : List AddrRange) : Option (List AddrRange) := do
  guard (!r.interleaved)
  r.excludeLoop r._start (sort excludeRanges)

/-- `exclude(base, to_exclude)`. -/
def excludeAll (base toExclude : List AddrRange) : Option (List AddrRange) := do
  let parts ← base.mapM (·.exclude (sort toExclude))
  some parts.flatten

/-- The addresses of a range that is not interleaved. -/
def Covers (r : AddrRange) (a : Addr) : Prop := r._start ≤ a ∧ a < r._end

/-- The ranges `out` are what is left of `r` without `ranges`. -/
structure Difference (r : AddrRange) (ranges out : List AddrRange) : Prop where
  plain : ∀ o ∈ out, o._start < o._end ∧ o.masks = [] ∧ o.intlvMatch = 0
  ascending : out.Pairwise fun o o' => o._end ≤ o'._start
  covers : ∀ a, (∃ o ∈ out, o.Covers a) ↔ r.Covers a ∧ ∀ e ∈ ranges, ¬ e.Covers a

lemma intersects_of_plain (hr : r.interleaved = false) {e : AddrRange} (he : e.interleaved = false) :
    r.intersects e = .ok (decide (¬ r.Apart e)) := by
  unfold intersects
  by_cases h : r.Apart e <;> simp [h, hr, he]

/-- What the loop leaves from `nextStart` on. -/
lemma excludeLoop_spec (hr : r.interleaved = false) {es : List AddrRange}
    (hes : ∀ e ∈ es, e.interleaved = false ∧ e._start ≤ e._end) (hsorted : es.Pairwise fun e e' => e._start ≤ e'._start)
    {next : Addr} (hnext : r._start ≤ next) (hlt : next < r._end) :
    ∃ out, r.excludeLoop next es = some out ∧ Difference (between next r._end) es out ∧ ∀ o ∈ out, next ≤ o._start := by
  induction es generalizing next with
  | nil =>
    refine ⟨[between next r._end], by rw [excludeLoop, if_pos hlt], ⟨?_, pairwise_singleton .., ?_⟩, ?_⟩
    · simpa [between] using hlt
    · simp
    · simp [between]
  | cons e es ih =>
    obtain ⟨hfirst, hsorted⟩ := pairwise_cons.mp hsorted
    obtain ⟨he, hvalid⟩ := hes e (mem_cons_self ..)
    have hih := fun {n : Addr} => @ih (fun e he => hes e (mem_cons_of_mem _ he)) hsorted n
    rw [excludeLoop, intersects_of_plain hr he, he]
    change ∃ out, (if (!decide (¬ r.Apart e)) = true then _ else _) = some out ∧ _
    by_cases hap : r.Apart e
    · -- the range has nothing of what is left
      obtain ⟨out, hout, hdiff, hge⟩ := hih hnext hlt
      refine ⟨out, by rw [if_pos (by simp [hap])]; exact hout, ⟨hdiff.plain, hdiff.ascending, fun a => ?_⟩, hge⟩
      rw [hdiff.covers, forall_mem_cons]
      refine and_congr_right fun ha => (and_iff_right ?_).symm
      simp only [Apart, Covers, between, BitVec.le_def, BitVec.lt_def] at hap ha hnext ⊢
      omega
    rw [if_neg (by simp [hap])]
    simp only [Apart, not_or, BitVec.not_le] at hap
    -- what is left behind the range
    have hbehind {n : Addr} (hn : e._end ≤ n) (hstart : r._start ≤ n) (hlt : e._end < r._end → n < r._end) :
        ∃ rest, (if e._end < r._end then r.excludeLoop n es else some []) = some rest ∧
          Difference (between n r._end) es rest ∧ ∀ o ∈ rest, n ≤ o._start := by
      by_cases hend : e._end < r._end
      · rw [if_pos hend]
        exact hih hstart (hlt hend)
      · refine ⟨[], if_neg hend, ⟨nofun, .nil, fun a => ?_⟩, nofun⟩
        simp only [Covers, between, BitVec.le_def, BitVec.lt_def] at hend hn ⊢
        simp only [not_mem_nil, false_and, exists_false, false_iff]
        omega
    by_cases hle : e._start ≤ next
    · obtain ⟨out, hout, hdiff, hge⟩ := hbehind (n := if next < e._end then e._end else next)
        (by split_ifs <;> bv_omega) (by split_ifs <;> bv_omega) (fun h => by split_ifs <;> assumption)
      refine ⟨out, by rw [if_pos hle]; exact hout, ⟨hdiff.plain, hdiff.ascending, fun a => ?_⟩, fun o ho => ?_⟩
      · rw [hdiff.covers, forall_mem_cons, ← and_assoc]
        refine and_congr_left fun _ => ?_
        simp only [Covers, between, BitVec.le_def, BitVec.lt_def] at hle ⊢
        split_ifs <;> omega
      · have := hge o ho
        split_ifs at this <;> bv_omega
    · rw [if_neg hle]
      obtain ⟨rest, hrest, hdiff, hge⟩ := hbehind (BitVec.le_refl _) (by bv_omega) id
      refine ⟨between next e._start :: rest, by rw [hrest]; rfl, ⟨?_, ?_, fun a => ?_⟩, ?_⟩
      · exact forall_mem_cons.mpr ⟨⟨by simpa [between, BitVec.not_le] using hle, rfl, rfl⟩, hdiff.plain⟩
      · exact pairwise_cons.mpr ⟨fun o ho => BitVec.le_trans hvalid (hge o ho), hdiff.ascending⟩
      · -- the ranges that come later start later
        have hlater : ∀ e' ∈ es, a < e._start → ¬ e'.Covers a := fun e' he' ha hc => by
          have := hfirst e' he'
          simp only [Covers] at hc
          bv_omega
        rw [exists_mem_cons_iff, hdiff.covers, forall_mem_cons]
        simp only [Covers, between, BitVec.le_def, BitVec.lt_def] at hlater hle hap hvalid ⊢
        constructor
        · rintro (ha | ⟨ha, hrest⟩)
          · exact ⟨by omega, by omega, fun e' he' => hlater e' he' ha.2⟩
          · exact ⟨by omega, by omega, hrest⟩
        · rintro ⟨ha, hna, hrest⟩
          by_cases hlt' : a.toNat < e._start.toNat
          · exact .inl ⟨ha.1, hlt'⟩
          · exact .inr ⟨by omega, hrest⟩
      · refine forall_mem_cons.mpr ⟨BitVec.le_refl _, fun o ho => ?_⟩
        have := hge o ho
        bv_omega

lemma mem_sort {ranges : List AddrRange} {e : AddrRange} : e ∈ sort ranges ↔ e ∈ ranges :=
  (mergeSort_perm ..).mem_iff

lemma sorted_sort (ranges : List AddrRange) : (sort ranges).Pairwise fun e e' => e._start ≤ e'._start := by
  have hle : ∀ r s : AddrRange, (!s.lt r) = true ↔ r.key ≤ s.key := fun r s => by
    rw [Bool.not_eq_true', ← Nat.not_lt, ← lt_iff, Bool.not_eq_true]
  refine (pairwise_mergeSort (fun a b c => ?_) (fun a b => ?_) ranges).imp fun h => start_le_of_key ((hle _ _).mp h)
  · simp only [hle]
    omega
  · simp only [Bool.or_eq_true, hle]
    omega

/-- **`exclude` computes the difference**, for ranges in any order, and so does the version for lists, for each of its
first ranges. -/
theorem exclude_spec {base ranges : List AddrRange} (hbase : ∀ r ∈ base, r.interleaved = false ∧ r._start < r._end)
    (hranges : ∀ e ∈ ranges, e.interleaved = false ∧ e.valid = true) :
    (∀ r ∈ base, ∃ out, r.exclude ranges = some out ∧ Difference r ranges out) ∧
      ∃ parts, excludeAll base ranges = some parts.flatten ∧ List.Forall₂ (Difference · ranges) base parts := by
  have hone : ∀ r ∈ base, ∀ es, (∀ e, e ∈ es ↔ e ∈ ranges) → ∃ out, r.exclude es = some out ∧ Difference r ranges out := by
    intro r hr es hes
    obtain ⟨hint, hlt⟩ := hbase r hr
    obtain ⟨out, hout, hdiff, -⟩ := @excludeLoop_spec r hint (sort es) (fun e he => by
      simpa [valid] using hranges e ((hes e).mp (mem_sort.mp he))) (sorted_sort es) _ (BitVec.le_refl r._start) hlt
    refine ⟨out, by rw [exclude, hint]; exact hout, ⟨hdiff.plain, hdiff.ascending, fun a => ?_⟩⟩
    rw [hdiff.covers]
    exact and_congr_right fun _ => forall_congr' fun e => by rw [mem_sort, hes]
  refine ⟨fun r hr => hone r hr ranges fun _ => Iff.rfl, ?_⟩
  unfold excludeAll
  suffices h : ∃ parts, base.mapM (·.exclude (sort ranges)) = some parts ∧
      List.Forall₂ (Difference · ranges) base parts by
    obtain ⟨parts, hparts, hall⟩ := h
    exact ⟨parts, by rw [hparts]; rfl, hall⟩
  clear hbase
  induction base with
  | nil => exact ⟨[], rfl, .nil⟩
  | cons r base ih =>
    obtain ⟨out, hout, hdiff⟩ := hone r (mem_cons_self ..) (sort ranges) fun _ => mem_sort
    obtain ⟨parts, hparts, hall⟩ := ih fun r hr => hone r (mem_cons_of_mem _ hr)
    exact ⟨out :: parts, by rw [mapM_cons, hout, hparts]; rfl, .cons hdiff hall⟩

/-- Two ranges in the middle of ten addresses that overlap are taken away. -/
theorem exclude_spec_ten : ∃ out, (between 0 10).exclude [between 4 6, between 2 5] = some out ∧
    Difference (between 0 10) [between 4 6, between 2 5] out := by
  refine (@exclude_spec [between 0 10] _ ?_ ?_).1 _ (mem_singleton_self _)
  · simp [between, interleaved]
  · simp [between, interleaved, valid]

end AddrRange

end Gem5.Base
