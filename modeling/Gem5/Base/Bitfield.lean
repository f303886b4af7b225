import Mathlib

/-!
# Bit fields

The functions of `base/bitfield.hh` that cut bits out of a 64-bit word, put them back and extend signs, with the bits of
their results.
-/

namespace Gem5.Base

open BitVec

/-- `mask(nbits)`. -/
def mask (nbits : ℕ) : BitVec 64 := if nbits ≥ 64 then BitVec.allOnes 64 else (1#64 <<< nbits) - 1#64

/-- `mask(first, last)`. -/
def maskBetween (first last : ℕ) : BitVec 64 := mask (first + 1) &&& ~~~ mask last

/-- `bits(val, first, last)`. -/
def bits (val : BitVec 64) (first last : ℕ) : BitVec 64 := (val >>> last) &&& mask (first - last + 1)

/-- `insertBits(val, first, last, bit_val)`. -/
def insertBits (val : BitVec 64) (first last : ℕ) (bitVal : BitVec 64) : BitVec 64 :=
  (val &&& ~~~ maskBetween first last) ||| ((bitVal <<< last) &&& maskBetween first last)

/-- `sext<N>(val)`. -/
def sext (N : ℕ) (val : BitVec 64) : BitVec 64 := if bits val (N - 1) (N - 1) != 0 then val ||| ~~~ mask N else val

/-- `szext<N>(val)`. -/
def szext (N : ℕ) (val : BitVec 64) : BitVec 64 :=
  if bits val (N - 1) (N - 1) != 0 then val ||| ~~~ mask N else val &&& mask N

@[simp] lemma getLsbD_mask (n i : ℕ) : (mask n).getLsbD i = (decide (i < 64) && decide (i < n)) := by
  by_cases hi : i < 64
  · rw [mask]
    split_ifs with hn
    · rw [getLsbD_allOnes, decide_eq_true (show i < n by omega), Bool.and_true]
    · have hlt : 2 ^ n < 2 ^ 64 := Nat.pow_lt_pow_right (by decide) (by omega)
      have hsub : (1#64 <<< n) - 1#64 = BitVec.ofNat 64 (2 ^ n - 1) := by
        apply eq_of_toNat_eq
        have hpos : 0 < 2 ^ n := Nat.two_pow_pos n
        rw [toNat_sub, toNat_shiftLeft, toNat_ofNat, toNat_ofNat, Nat.shiftLeft_eq]
        omega
      rw [hsub, getLsbD_ofNat, Nat.testBit_two_pow_sub_one]
  · rw [getLsbD_of_ge _ _ (by omega)]
    simp [hi]

lemma getLsbD_maskBetween {first last i : ℕ} (hi : i < 64) :
    (maskBetween first last).getLsbD i = (decide (i ≤ first) && decide (last ≤ i)) := by
  rw [maskBetween, getLsbD_and, getLsbD_not, getLsbD_mask, getLsbD_mask]
  by_cases h : i < last
  · simp [hi, h, Nat.not_le.mpr h]
  · simp [hi, h, Nat.not_lt.mp h]

lemma getLsbD_bits (val : BitVec 64) {first last i : ℕ} (hi : i < 64) :
    (bits val first last).getLsbD i = (val.getLsbD (last + i) && decide (i < first - last + 1)) := by
  rw [bits, getLsbD_and, getLsbD_ushiftRight, getLsbD_mask]
  simp [hi]

lemma bits_ne_zero_iff (val : BitVec 64) (i : ℕ) : (bits val i i != 0) = val.getLsbD i := by
  have h0 : (bits val i i).getLsbD 0 = _ := getLsbD_bits val (by decide)
  rw [Nat.add_zero, Nat.sub_self, decide_eq_true (by decide), Bool.and_true] at h0
  cases hv : val.getLsbD i with
  | true =>
    rw [hv] at h0
    rw [bne_iff_ne]
    intro hz
    rw [hz] at h0
    cases h0
  | false =>
    rw [bne_eq_false_iff_eq]
    refine eq_of_getLsbD_eq fun j hj => ?_
    rw [getLsbD_bits val hj]
    rcases Nat.eq_zero_or_pos j with rfl | hj
    · simp [hv]
    · rw [decide_eq_false (show ¬ j < i - i + 1 by omega), Bool.and_false]
      exact getLsbD_zero.symm

lemma getLsbD_szext (N : ℕ) (val : BitVec 64) {i : ℕ} (hi : i < 64) :
    (szext N val).getLsbD i = if i < N then val.getLsbD i else val.getLsbD (N - 1) := by
  rw [szext, bits_ne_zero_iff]
  cases hs : val.getLsbD (N - 1) <;> by_cases h : i < N <;>
    simp [h, hi, -getLsbD_eq_getElem]

lemma getLsbD_sext (N : ℕ) (val : BitVec 64) {i : ℕ} (hi : i < 64) :
    (sext N val).getLsbD i = (val.getLsbD i || decide (N ≤ i) && val.getLsbD (N - 1)) := by
  rw [sext, bits_ne_zero_iff]
  by_cases h : i < N
  · cases hs : val.getLsbD (N - 1) <;> simp [hi, h, Nat.not_le.mpr h, -getLsbD_eq_getElem]
  · cases hs : val.getLsbD (N - 1) <;> simp [hi, h, Nat.not_lt.mp h, -getLsbD_eq_getElem]

/-- Only the lowest `N` bits matter to `szext`, and they can be extended by `sext`. -/
lemma szext_eq_sext {N : ℕ} (hN : 0 < N) (hN' : N ≤ 64) (val : BitVec 64) : szext N val = sext N (val &&& mask N) := by
  refine eq_of_getLsbD_eq fun i hi => ?_
  rw [getLsbD_szext N val hi, getLsbD_sext N _ hi]
  have hlast : N - 1 < 64 := by omega
  have hlast' : N - 1 < N := by omega
  by_cases h : i < N
  · simp [h, hi, Nat.not_le.mpr h, -getLsbD_eq_getElem]
  · simp [h, hlast, hlast', Nat.not_lt.mp h, -getLsbD_eq_getElem]

end Gem5.Base
