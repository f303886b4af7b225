import Gem5.Lib.Except

/-!
# Address ranges

`AddrRange` of `base/addr_range.hh`: an interval of addresses, of which an interleaved range has those whose selected bits
match `intlvMatch`. Two ranges can be tested for intersection, and one can be tested for being a subset of the other, but
not in all cases: otherwise the simulator panics.

`operator<` compares the starts first, and puts ranges that are interleaved before one that is not. It is the order of
one number (`key`), so ranges with equal keys are the same to a `std::map`.
-/

namespace Gem5.Base

open Lib BitVec

/-- `Addr`. -/
abbrev Addr := BitVec 64

/-- `popCount(val)`. -/
def popCount (val : Addr) : ℕ := (List.range 64).countP fun i => val.getLsbD i

/-- `ctz64(value)`. -/
def ctz64 (value : Addr) : ℕ := ((List.range 64).find? fun i => value.getLsbD i).getD 64

/-- `AddrRange`. -/
structure AddrRange where
  _start : Addr
  _end : Addr
  masks : List Addr
  intlvMatch : BitVec 8
  deriving DecidableEq, Repr

/-- The ways ranges and maps of them can stop the simulator. -/
inductive RangeFault where
  /-- `panic("Cannot test intersection of %s and %s")`. -/
  | intersection
  /-- `panic("Cannot test subset of interleaved range %s")`. -/
  | subset
  /-- A shift by the width of the type, which is undefined. -/
  | shift
  /-- An iterator to an entry that was erased. -/
  | stale
  /-- An iterator that the caller may not use. -/
  | iterator
  deriving DecidableEq, Repr

/-- `RangeSize(start, size)`. -/
def rangeSize (start size : Addr) : AddrRange := { _start := start, _end := start + size, masks := [], intlvMatch := 0 }

namespace AddrRange

variable (r s : AddrRange) (a : Addr)

def interleaved : Bool := r.masks.length > 0

def size : Addr := (r._end - r._start) >>> r.masks.length

/-- `combined_mask` of `granularity()`, an `int`. -/
def combinedMask (masks : List Addr) : BitVec 32 :=
  masks.foldl (fun combined mask => (combined.signExtend 64 ||| mask).truncate 32) 0

/-- `granularity()`. -/
def granularity : Except RangeFault Addr :=
  if r.interleaved then
    let lowestBit := ctz64 ((combinedMask r.masks).signExtend 64)
    if lowestBit < 64 then .ok ((1 : Addr) <<< lowestBit) else .error .shift
  else .ok r.size

def mergesWith : Bool := s._start = r._start ∧ s._end = r._end ∧ s.masks = r.masks

/-- The bits of an address that are compared with `intlvMatch`. -/
def sel (masks : List Addr) (a : Addr) : ℕ :=
  masks.zipIdx.foldl (fun sel (mask, i) => sel ||| (popCount (a &&& mask) % 2) <<< i) 0

def contains : Bool := r._start ≤ a ∧ a < r._end ∧ sel r.masks a = r.intlvMatch.toNat

def Apart : Prop := s._end ≤ r._start ∨ r._end ≤ s._start

instance : Decidable (Apart r s) := inferInstanceAs (Decidable (_ ∨ _))

/-- `intersects(r)`. -/
def intersects : Except RangeFault Bool :=
  if r.Apart s then .ok false
  else if !r.interleaved && !s.interleaved then .ok true
  else if s.size = 1 then .ok (r.contains s._start)
  else if r.mergesWith s then .ok (r.intlvMatch = s.intlvMatch)
  else .error .intersection

/-- `isSubset(r)`. -/
def isSubset : Except RangeFault Bool :=
  if r.interleaved then .error .subset
  else if s.interleaved then
    if s.contains r._start then do
      if r.size ≤ (← s.granularity) then
        if r._start = r._end - 1 then .ok true else .ok (s.contains (r._end - 1))
      else .ok false
    else .ok false
  else if r._end ≤ r._start then .ok (s._start ≤ r._start ∧ s._end = 0)
  else if s._end ≤ s._start then .ok (s._start ≤ r._start)
  else .ok (s._start ≤ r._start ∧ r._end ≤ s._end)

/-- `operator<(r)`. -/
def lt : Bool :=
  if r._start ≠ s._start then r._start < s._start
  else if r.interleaved && s.interleaved then r.intlvMatch < s.intlvMatch
  else r.interleaved

/-! ### The order -/

/-- What `operator<` compares. -/
def key : ℕ := r._start.toNat * 512 + if r.interleaved then r.intlvMatch.toNat else 256

variable {r s a}

lemma lt_iff : r.lt s = true ↔ r.key < s.key := by
  have hr := r.intlvMatch.isLt
  have hs := s.intlvMatch.isLt
  unfold lt key
  by_cases hstart : r._start = s._start
  · rw [if_neg (by simpa using hstart), hstart]
    cases r.interleaved <;> cases s.interleaved <;> simp [lt_def] <;> omega
  · have hne : r._start.toNat ≠ s._start.toNat := fun h => hstart (eq_of_toNat_eq h)
    rw [if_pos hstart, decide_eq_true_eq, lt_def]
    split <;> split <;> omega

lemma start_le_of_key (h : r.key ≤ s.key) : r._start ≤ s._start := by
  have hr := r.intlvMatch.isLt
  have hs := s.intlvMatch.isLt
  unfold key at h
  rw [le_def]
  split at h <;> split at h <;> omega

lemma key_le_of_start (hs : s.interleaved = false) (h : r._start ≤ s._start) : r.key ≤ s.key := by
  have hr := r.intlvMatch.isLt
  rw [le_def] at h
  unfold key
  rw [hs]
  split <;> simp <;> omega

lemma key_eq_iff : r.key = s.key ↔
    r._start = s._start ∧ r.interleaved = s.interleaved ∧ (r.interleaved = true → r.intlvMatch = s.intlvMatch) := by
  have hr := r.intlvMatch.isLt
  have hs := s.intlvMatch.isLt
  unfold key
  constructor
  · intro h
    have hstart : r._start.toNat = s._start.toNat := by
      split at h <;> split at h <;> omega
    refine ⟨eq_of_toNat_eq hstart, ?_⟩
    rw [hstart] at h
    cases hri : r.interleaved with
    | false =>
      rw [if_neg (by simp [hri])] at h
      refine ⟨?_, nofun⟩
      by_contra hsi
      rw [if_pos (by simpa using Ne.symm hsi)] at h
      omega
    | true =>
      rw [if_pos hri] at h
      have hsi : s.interleaved = true := by
        by_contra hsi
        rw [if_neg hsi] at h
        omega
      rw [if_pos hsi] at h
      exact ⟨hsi.symm, fun _ => eq_of_toNat_eq (by omega)⟩
  · rintro ⟨hstart, hint, hmatch⟩
    rw [hstart, ← hint]
    cases hri : r.interleaved with
    | false => rfl
    | true => rw [hmatch hri]

/-! ### Overlap -/

lemma mergesWith_iff : r.mergesWith s = true ↔ s._start = r._start ∧ s._end = r._end ∧ s.masks = r.masks := by
  simp [mergesWith]

lemma mergesWith_comm : r.mergesWith s = s.mergesWith r := by
  rw [Bool.eq_iff_iff, mergesWith_iff, mergesWith_iff]
  constructor <;> rintro ⟨h, h', h''⟩ <;> exact ⟨h.symm, h'.symm, h''.symm⟩

lemma Apart.symm (h : r.Apart s) : s.Apart r := Or.symm h

lemma contains_iff : r.contains a = true ↔ r._start ≤ a ∧ a < r._end ∧ sel r.masks a = r.intlvMatch.toNat := by
  simp [contains]

lemma eq_of_contains (h : r.contains a = true) (h' : s.contains a = true) (hm : r.mergesWith s = true) :
    r.intlvMatch = s.intlvMatch := by
  rw [contains_iff] at h h'
  rw [mergesWith_iff] at hm
  apply eq_of_toNat_eq
  rw [← h.2.2, ← h'.2.2, hm.2.2]

lemma not_apart (hr : r._start ≤ a ∧ a < r._end) (hs : s._start ≤ a ∧ a < s._end) : ¬ r.Apart s := by
  simp only [le_def, lt_def] at hr hs
  rintro (h | h) <;> rw [le_def] at h <;> omega

/-- A range that is tested negatively and overlaps merges, unless the test is the one for a range of one address. -/
lemma mergesWith_of_intersects (h : r.intersects s = .ok false) (hov : ¬ r.Apart s)
    (hone : s.size = 1 → r.interleaved = true ∨ s.interleaved = true → r.Apart s ∨ r.mergesWith s = true) :
    r.mergesWith s = true := by
  unfold intersects at h
  rw [if_neg hov] at h
  split at h
  · cases h
  · rename_i hint
    split at h
    · rename_i hsize
      refine (hone hsize ?_).resolve_left hov
      cases hr : r.interleaved <;> cases hs : s.interleaved <;> simp_all
    · split at h
      · assumption
      · cases h

/-! ### Subsets -/

/-- A range that the tests are right for: what is not interleaved has no match, and the lowest interleaving bit fits in
an `int`. -/
structure Plain (r : AddrRange) : Prop where
  start_lt : r._start < r._end
  intlvMatch : r.interleaved = false → r.intlvMatch = 0
  lowBit : r.interleaved = true → ∃ mask ∈ r.masks, mask.truncate 32 ≠ 0

lemma combine_eq (combined : BitVec 32) (mask : Addr) :
    (combined.signExtend 64 ||| mask).truncate 32 = combined ||| mask.truncate 32 := by
  apply eq_of_getLsbD_eq
  intro i hi
  simp only [truncate_eq_setWidth, getLsbD_setWidth, getLsbD_or, getLsbD_signExtend]
  simp [hi, show i < 64 by omega]

lemma foldl_combined_ne {masks : List Addr} {combined : BitVec 32}
    (h : combined ≠ 0 ∨ ∃ mask ∈ masks, truncate 32 mask ≠ 0) :
    masks.foldl (fun combined mask => (combined.signExtend 64 ||| mask).truncate 32) combined ≠ 0 := by
  induction masks generalizing combined with
  | nil => simpa using h
  | cons mask masks ih =>
    refine ih ?_
    simp only [combine_eq]
    by_cases hmask : mask.truncate 32 = 0
    · rcases h with h | ⟨mask', hmem, hne⟩
      · exact .inl fun h0 => h (or_eq_zero_iff.mp h0).1
      · rcases List.mem_cons.mp hmem with rfl | hmem
        · exact absurd hmask hne
        · exact .inr ⟨mask', hmem, hne⟩
    · exact .inl fun h0 => hmask (or_eq_zero_iff.mp h0).2

lemma ctz64_lt {value : Addr} (h : value ≠ 0) : ctz64 value < 64 := by
  unfold ctz64
  cases hf : (List.range 64).find? fun i => value.getLsbD i with
  | none =>
    rw [List.find?_eq_none] at hf
    refine absurd (eq_of_getLsbD_eq fun i hi => ?_) h
    simpa using hf i (List.mem_range.mpr hi)
  | some i => exact List.mem_range.mp (List.mem_of_find?_eq_some hf)

lemma Plain.granularity_eq (h : r.Plain) (hint : r.interleaved = true) : ∃ g, r.granularity = .ok g ∧ 1 ≤ g := by
  have hne : (combinedMask r.masks).signExtend 64 ≠ 0 := by
    have hcomb : combinedMask r.masks ≠ 0 := foldl_combined_ne (.inr (h.lowBit hint))
    intro hzero
    refine hcomb (eq_of_getLsbD_eq fun i hi => ?_)
    have hbit : ((combinedMask r.masks).signExtend 64).getLsbD i = false := by simp [hzero]
    rw [getLsbD_signExtend, if_pos hi] at hbit
    simpa [show i < 64 by omega] using hbit
  have hlt := ctz64_lt hne
  refine ⟨(1 : Addr) <<< ctz64 ((combinedMask r.masks).signExtend 64), ?_, ?_⟩
  · rw [granularity, if_pos hint]
    exact if_pos hlt
  · rw [le_def, toNat_shiftLeft]
    have hpos := Nat.two_pow_pos (ctz64 ((combinedMask r.masks).signExtend 64))
    have hpow := Nat.pow_lt_pow_right (show 1 < 2 by decide) hlt
    simp [Nat.shiftLeft_eq, Nat.mod_eq_of_lt hpow]
    omega

lemma contains_of_isSubset (h : r.isSubset s = .ok true) (hr : r._start < r._end) (hs : s.Plain) :
    s.contains r._start = true := by
  unfold isSubset at h
  split at h
  · cases h
  split at h
  · split at h
    · rename_i hc
      exact hc
    · cases h
  · rename_i hint
    rw [Bool.not_eq_true] at hint
    have hmasks : s.masks = [] := by
      simpa [interleaved] using hint
    rw [if_neg (by simpa [BitVec.not_le] using hr), if_neg (by simpa [BitVec.not_le] using hs.start_lt)] at h
    have hle : s._start ≤ r._start ∧ r._end ≤ s._end := by simpa using h
    rw [contains_iff, hmasks, hs.intlvMatch hint]
    refine ⟨hle.1, ?_, rfl⟩
    have := hle.2
    rw [lt_def] at hr ⊢
    rw [le_def] at this
    omega

lemma exists_isSubset (hr : r.interleaved = false) (hs : s.Plain) : ∃ b, r.isSubset s = .ok b := by
  unfold isSubset
  rw [if_neg (by simp [hr])]
  by_cases hint : s.interleaved = true
  · obtain ⟨g, hg, -⟩ := hs.granularity_eq hint
    rw [if_pos hint, hg]
    by_cases hc : s.contains r._start = true
    · rw [if_pos hc]
      change ∃ b, (if r.size ≤ g then _ else _) = _
      split
      · split
        · exact ⟨_, rfl⟩
        · exact ⟨_, rfl⟩
      · exact ⟨_, rfl⟩
    · rw [if_neg hc]
      exact ⟨_, rfl⟩
  · rw [if_neg hint]
    split
    · exact ⟨_, rfl⟩
    · split
      · exact ⟨_, rfl⟩
      · exact ⟨_, rfl⟩

lemma isSubset_rangeSize (a : Addr) (hs : s.Plain) : (rangeSize a 1).isSubset s = .ok (s.contains a) := by
  unfold isSubset
  have hstart : (rangeSize a 1)._start = a := rfl
  have hend : (rangeSize a 1)._end = a + 1 := rfl
  rw [if_neg (by simp [rangeSize, interleaved]), hstart, hend]
  by_cases hint : s.interleaved = true
  · obtain ⟨g, hg, hone⟩ := hs.granularity_eq hint
    have hsize : (rangeSize a 1).size = 1 := by
      change (a + 1 - a) >>> 0 = (1 : Addr)
      rw [ushiftRight_zero]
      bv_omega
    rw [if_pos hint, hg, hsize]
    cases hc : s.contains a with
    | false => rfl
    | true =>
      rw [if_pos rfl]
      change (if 1 ≤ g then _ else _) = _
      rw [if_pos hone, if_pos (by bv_omega)]
  · rw [if_neg hint]
    rw [Bool.not_eq_true] at hint
    have hmasks : s.masks = [] := by
      simpa [interleaved] using hint
    have hlt := hs.start_lt
    have hcontains : s.contains a = decide (s._start ≤ a ∧ a < s._end) := by
      rw [contains, hmasks, hs.intlvMatch hint]
      simp [sel]
    rw [hcontains]
    by_cases hwrap : a + 1 ≤ a
    · -- the last address, which is in no range that does not wrap around
      rw [if_pos hwrap]
      congr 1
      rw [decide_eq_decide]
      constructor
      · rintro ⟨-, hzero⟩
        rw [hzero] at hlt
        bv_omega
      · rintro ⟨-, hend⟩
        bv_omega
    · rw [if_neg hwrap, if_neg (by simpa [BitVec.not_le] using hlt)]
      congr 1
      rw [decide_eq_decide]
      constructor
      · rintro ⟨hle, hle'⟩
        exact ⟨hle, by bv_omega⟩
      · rintro ⟨hle, hlt'⟩
        exact ⟨hle, by bv_omega⟩

end AddrRange

end Gem5.Base
