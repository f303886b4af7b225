import Gem5.Mem.Compressors.Pattern

/-!
# Patterns restore the values they were made from

A pattern that a value matches gives the value back: either without looking at the dictionary, or from the entry of the
dictionary that the value was compared with. The second kind is only made for a location that is not negative, and keeps
it as its match location.
-/

namespace Gem5.Compression

open Lib Base BitVec

variable {n : ℕ}

@[simp] lemma fromDictionaryEntry_toDictionaryEntry (v : Value n) : fromDictionaryEntry n (toDictionaryEntry v) = v :=
  joinParts_bitParts rfl v

/-- The pattern gives the value back. -/
def Restores (p : Pattern n) (v : Value n) (dictBytes : DictionaryEntry) (matchLocation : ℤ) : Prop :=
  (∀ e, p.decompress e = toDictionaryEntry v) ∨
    0 ≤ matchLocation ∧ p.matchLocation = matchLocation ∧ p.decompress dictBytes = toDictionaryEntry v

/-- The values that match patterns of the class are restored. -/
def PatternClass.Lossless (c : PatternClass n) : Prop :=
  ∀ (v : Value n) (dictBytes : DictionaryEntry) (matchLocation : ℤ),
    c.isPattern (toDictionaryEntry v) dictBytes matchLocation = true →
      Restores (c.make (toDictionaryEntry v) matchLocation) v dictBytes matchLocation

lemma getPattern_restores {last : PatternClass n} {cs : List (PatternClass n)}
    (hlast : ∀ v dictBytes loc, Restores (last.make (toDictionaryEntry v) loc) v dictBytes loc) (hcs : ∀ c ∈ cs, c.Lossless)
    (v : Value n) (dictBytes : DictionaryEntry) (loc : ℤ) :
    Restores (getPattern last cs (toDictionaryEntry v) dictBytes loc) v dictBytes loc := by
  induction cs with
  | nil => exact hlast v dictBytes loc
  | cons c cs ih =>
    rw [getPattern]
    split_ifs with h
    · exact hcs c (List.mem_cons_self ..) v dictBytes loc h
    · exact ih fun c' hc' => hcs c' (List.mem_cons_of_mem _ hc')

lemma uncompressedPattern_restores (number code length : ℕ) (located : Bool) (v : Value n) (dictBytes : DictionaryEntry)
    (loc : ℤ) : Restores ((uncompressedPattern number code length located).make (toDictionaryEntry v) loc) v dictBytes loc :=
  .inl fun _ => rfl

lemma deltaPattern_lossless (deltaSizeBits number code length : ℕ) :
    (deltaPattern (n := n) deltaSizeBits number code length).Lossless :=
  fun _ _ _ _ => .inl fun _ => rfl

lemma or_and_mask {v x m : Value n} (h : v &&& m = x &&& m) : (v &&& ~~~ m) ||| (x &&& m) = v := by
  rw [← h, ← BitVec.and_or_distrib_left, BitVec.or_comm, BitVec.or_not_self, BitVec.and_allOnes]

lemma maskedPattern_lossless {mask : Value n} {number code length : ℕ} {allocate : Bool} :
    (maskedPattern mask number code length allocate).Lossless := by
  intro v dictBytes loc h
  simp only [maskedPattern, Bool.and_eq_true, decide_eq_true_eq, beq_iff_eq, fromDictionaryEntry_toDictionaryEntry] at h
  refine .inr ⟨h.1, rfl, congrArg toDictionaryEntry ?_⟩
  rw [fromDictionaryEntry_toDictionaryEntry]
  exact or_and_mask h.2

lemma locatedMaskedPattern_lossless {mask : Value n} {location : ℤ} {number code length : ℕ} {allocate : Bool} :
    (locatedMaskedPattern mask location number code length allocate).Lossless := by
  intro v dictBytes loc h
  rw [locatedMaskedPattern, Bool.and_eq_true] at h
  exact maskedPattern_lossless v dictBytes loc h.2

lemma maskedValuePattern_lossless {value mask : Value n} {number code length : ℕ} {located allocate : Bool} :
    (maskedValuePattern value mask number code length located allocate).Lossless := by
  intro v dictBytes loc h
  simp only [maskedValuePattern, beq_iff_eq, fromDictionaryEntry_toDictionaryEntry] at h
  refine .inl fun e => congrArg toDictionaryEntry ?_
  rw [fromDictionaryEntry_toDictionaryEntry, fromDictionaryEntry_toDictionaryEntry]
  exact or_and_mask h.symm

lemma zeroRunPattern_lossless (number code length : ℕ) : (zeroRunPattern (n := n) number code length).Lossless := by
  intro v dictBytes loc h
  rcases @maskedValuePattern_lossless n 0 (allOnes _) number code length false false v dictBytes loc h with h | h
  · exact .inl h
  · exact .inr h

lemma repeatedValuePattern_lossless {rep : ℕ} (hrep : rep * (n / rep) = n) (number code length : ℕ)
    (located allocate : Bool) : (repeatedValuePattern (n := n) rep number code length located allocate).Lossless := by
  intro v dictBytes loc h
  simp only [repeatedValuePattern, List.all_eq_true, beq_iff_eq, fromDictionaryEntry_toDictionaryEntry] at h
  refine .inl fun e => congrArg toDictionaryEntry ?_
  rw [fromDictionaryEntry_toDictionaryEntry]
  exact joinParts_replicate (by rw [Nat.mul_assoc, hrep]) h

/-! ### Sign extension -/

lemma szext_setWidth {N : ℕ} (hN : 0 < N) (hN' : N ≤ 64) {w : ℕ} {x : BitVec 64} {v : BitVec w}
    (h : ∀ i < N, x.getLsbD i = v.getLsbD i) : szext N x = sext N ((v &&& (mask N).setWidth w).setWidth 64) := by
  rw [szext_eq_sext hN hN']
  congr 1
  refine eq_of_getLsbD_eq fun i hi => ?_
  rw [getLsbD_and, getLsbD_mask, getLsbD_setWidth, getLsbD_and, getLsbD_setWidth, getLsbD_mask]
  by_cases hiN : i < N
  · rw [h i hiN]
    by_cases hw : i < w
    · simp [hi, hiN, hw]
    · simp [getLsbD_of_ge v i (by omega)]
  · simp [hiN]

lemma signExtendedPattern_lossless {N : ℕ} (hN : 0 < N) (hN' : N ≤ 64) (number code length : ℕ) :
    (signExtendedPattern (n := n) N number code length).Lossless := by
  intro v dictBytes loc h
  simp only [signExtendedPattern, beq_iff_eq, fromDictionaryEntry_toDictionaryEntry] at h
  refine .inl fun e => congrArg toDictionaryEntry ?_
  rw [fromDictionaryEntry_toDictionaryEntry, ← szext_setWidth hN hN' (x := v.setWidth 64), ← h]
  intro i hi
  rw [getLsbD_setWidth, decide_eq_true (by omega), Bool.true_and]

lemma eq_of_toInt_eq_toNat {w : ℕ} {x y : BitVec w} (h : x.toInt = y.toNat) : x = y := by
  have hx := x.isLt
  apply eq_of_toNat_eq
  rw [toInt_eq_toNat_cond] at h
  split_ifs at h <;> omega

lemma szext_halfword (x : BitVec 16) : szext 8 (x.signExtend 64) = szext 8 ((x.setWidth 8).signExtend 64) := by
  refine eq_of_getLsbD_eq fun i hi => ?_
  have hbit : ∀ j < 8, (x.signExtend 64).getLsbD j = ((x.setWidth 8).signExtend 64).getLsbD j := by
    intro j hj
    rw [getLsbD_signExtend, getLsbD_signExtend, if_pos (by omega), if_pos hj, getLsbD_setWidth,
      decide_eq_true hj, Bool.true_and]
  rw [getLsbD_szext 8 _ hi, getLsbD_szext 8 _ hi]
  split_ifs with h
  · exact hbit i h
  · exact hbit 7 (by decide)

lemma signExtendedTwoHalfwordsPattern_lossless (number code length : ℕ) :
    (signExtendedTwoHalfwordsPattern number code length).Lossless := by
  intro v dictBytes loc h
  simp only [signExtendedTwoHalfwordsPattern, Bool.and_eq_true, beq_iff_eq, fromDictionaryEntry_toDictionaryEntry,
    szext_halfword, setWidth_setWidth_of_le v (show 8 ≤ 16 by decide),
    setWidth_setWidth_of_le (v >>> 16) (show 8 ≤ 16 by decide)] at h
  refine .inl fun e => congrArg toDictionaryEntry ?_
  simp only [fromDictionaryEntry_toDictionaryEntry]
  rw [← eq_of_toInt_eq_toNat h.1, ← eq_of_toInt_eq_toNat h.2]
  have hjoin := joinParts_bitParts (r := 16) (k := 2) rfl v
  simpa [bitParts, joinParts] using hjoin

end Gem5.Compression
