import Mathlib

/-!
# Products of 128 bits

`mulUnsigned`, `mulSignedManual` and `mulUnsignedManual` of `base/intmath.hh`, for 64-bit operands. A product is given as
its high and its low word. Where the compiler has a type of 128 bits, which is `int128` here, `mulUnsigned` uses it; the
signed product is made from the unsigned one either way.
-/

namespace Gem5.Base

open Nat

/-- `mulUnsignedManual<T>(high, low, val_a, val_b)`. -/
def mulUnsignedManual (valA valB : BitVec 64) : BitVec 64 × BitVec 64 :=
  let low := valA * valB
  let A : BitVec 64 := ((valA >>> 32).setWidth 32).setWidth 64
  let a : BitVec 64 := (valA.setWidth 32).setWidth 64
  let B : BitVec 64 := ((valB >>> 32).setWidth 32).setWidth 64
  let b : BitVec 64 := (valB.setWidth 32).setWidth 64
  let ab := a * b
  let Ab := A * b
  let aB := a * B
  let AB := A * B
  let c1 : BitVec 64 := ((ab >>> 32).setWidth 32).setWidth 64
  -- Halves are added, so that no carry is lost.
  let c2 := (c1 >>> 1) + (Ab >>> 1) + (aB >>> 1)
  let c2 := c2 + (((c1 &&& 1) + (Ab &&& 1) + (aB &&& 1)) >>> 1)
  let c2 := c2 >>> 31
  (AB + c2, low)

/-- `mulUnsigned<T>(high, low, val_a, val_b)`. -/
def mulUnsigned (int128 : Bool) (valA valB : BitVec 64) : BitVec 64 × BitVec 64 :=
  if int128 then
    let val := valA.setWidth 128 * valB.setWidth 128
    ((val >>> 64).setWidth 64, val.setWidth 64)
  else mulUnsignedManual valA valB

/-- `mulSignedManual<T>(high, low, val_a, val_b)`. -/
def mulSignedManual (int128 : Bool) (valA valB : BitVec 64) : BitVec 64 × BitVec 64 :=
  let (uHigh, uLow) := mulUnsigned int128 valA valB
  let uHigh := if valA.slt 0 then uHigh - valB else uHigh
  let uHigh := if valB.slt 0 then uHigh - valA else uHigh
  (uHigh, uLow)

lemma toNat_low_half (x : BitVec 64) : ((x.setWidth 32).setWidth 64 : BitVec 64).toNat = x.toNat % 2 ^ 32 := by
  simp only [BitVec.toNat_setWidth]
  omega

lemma toNat_and_one (x : BitVec 64) : (x &&& 1).toNat = x.toNat % 2 := by
  simp [BitVec.toNat_and]

lemma half_mul_le {x y : ℕ} (hx : x < 2 ^ 32) (hy : y < 2 ^ 32) : x * y ≤ (2 ^ 32 - 1) * (2 ^ 32 - 1) :=
  Nat.mul_le_mul (by omega) (by omega)

lemma mul_div_halves (A a B b : ℕ) : (A * 2 ^ 32 + a) * (B * 2 ^ 32 + b) / 2 ^ 64 =
    A * B + (a * b / 2 ^ 32 + A * b + a * B) / 2 ^ 32 := by
  have hprod : (A * 2 ^ 32 + a) * (B * 2 ^ 32 + b) = A * B * 2 ^ 64 + (A * b + a * B) * 2 ^ 32 + a * b := by ring
  rw [hprod]
  omega

lemma carry_eq {x y z : ℕ} (hx : x < 2 ^ 32) (hy : y ≤ (2 ^ 32 - 1) * (2 ^ 32 - 1)) (hz : z ≤ (2 ^ 32 - 1) * (2 ^ 32 - 1)) :
    (((x / 2 ^ 1 + y / 2 ^ 1) % 2 ^ 64 + z / 2 ^ 1) % 2 ^ 64 + ((x % 2 + y % 2) % 2 ^ 64 + z % 2) % 2 ^ 64 / 2 ^ 1) % 2 ^ 64 / 2 ^ 31 =
      (x + y + z) / 2 ^ 32 := by
  simp (disch := omega) only [mod_eq_of_lt]
  omega

lemma mulUnsignedManual_high (valA valB : BitVec 64) :
    (mulUnsignedManual valA valB).1.toNat = valA.toNat * valB.toNat / 2 ^ 64 := by
  have hA : valA.toNat / 2 ^ 32 < 2 ^ 32 := by have := valA.isLt; omega
  have ha : valA.toNat % 2 ^ 32 < 2 ^ 32 := mod_lt _ (by decide)
  have hB : valB.toNat / 2 ^ 32 < 2 ^ 32 := by have := valB.isLt; omega
  have hb : valB.toNat % 2 ^ 32 < 2 ^ 32 := mod_lt _ (by decide)
  have hlt : valA.toNat * valB.toNat / 2 ^ 64 < 2 ^ 64 := by
    rw [div_lt_iff_lt_mul (by decide)]
    exact mul_lt_mul'' valA.isLt valB.isLt
  have hsplit := mul_div_halves (valA.toNat / 2 ^ 32) (valA.toNat % 2 ^ 32) (valB.toNat / 2 ^ 32) (valB.toNat % 2 ^ 32)
  rw [div_add_mod', div_add_mod'] at hsplit
  have hmod {x y : ℕ} (hx : x < 2 ^ 32) (hy : y < 2 ^ 32) : x * y % 2 ^ 64 = x * y :=
    mod_eq_of_lt (lt_of_le_of_lt (half_mul_le hx hy) (by decide))
  have hc : valA.toNat % 2 ^ 32 * (valB.toNat % 2 ^ 32) / 2 ^ 32 < 2 ^ 32 := by
    rw [div_lt_iff_lt_mul (by decide)]
    exact mul_lt_mul'' ha hb
  simp only [mulUnsignedManual, BitVec.toNat_add, BitVec.toNat_mul, BitVec.toNat_ushiftRight, toNat_low_half,
    toNat_and_one, shiftRight_eq_div_pow, mod_eq_of_lt hA, mod_eq_of_lt hB, hmod hA hB, hmod hA hb,
    hmod ha hB, hmod ha hb, mod_eq_of_lt hc]
  rw [carry_eq hc (half_mul_le hA hb) (half_mul_le ha hB), ← hsplit]
  exact mod_eq_of_lt hlt

lemma mulUnsigned_spec (int128 : Bool) (valA valB : BitVec 64) :
    (mulUnsigned int128 valA valB).1.toNat * 2 ^ 64 + (mulUnsigned int128 valA valB).2.toNat = valA.toNat * valB.toNat := by
  have hlt : valA.toNat * valB.toNat < 2 ^ 64 * 2 ^ 64 := mul_lt_mul'' valA.isLt valB.isLt
  have hA := valA.isLt
  have hB := valB.isLt
  cases int128 with
  | false =>
    change (mulUnsignedManual valA valB).1.toNat * 2 ^ 64 + (valA * valB).toNat = _
    rw [mulUnsignedManual_high, BitVec.toNat_mul, div_add_mod']
  | true =>
    simp only [mulUnsigned, if_true, BitVec.toNat_setWidth, BitVec.toNat_ushiftRight, BitVec.toNat_mul,
      shiftRight_eq_div_pow]
    rw [mod_eq_of_lt (by omega : valA.toNat < 2 ^ 128), mod_eq_of_lt (by omega : valB.toNat < 2 ^ 128)]
    generalize valA.toNat * valB.toNat = x at hlt
    omega

lemma toInt_eq (x : BitVec 64) : ∃ s : ℤ, (if x.slt 0 then s = 1 else s = 0) ∧ x.toInt = x.toNat - s * 2 ^ 64 := by
  have hslt : x.slt 0 = x.msb := BitVec.slt_zero_eq_msb
  rw [BitVec.toInt_eq_msb_cond, hslt]
  cases x.msb with
  | false => exact ⟨0, rfl, by simp⟩
  | true => exact ⟨1, rfl, by simp⟩

/-- The number of a signed word is known modulo `2 ^ 64`. -/
lemma toInt_eq_of_dvd {x : BitVec 64} {n : ℤ} (hdvd : (2 ^ 64 : ℤ) ∣ x.toNat - n) (hle : -2 ^ 63 ≤ n) (hlt : n < 2 ^ 63) :
    x.toInt = n := by
  have hx := x.isLt
  rw [BitVec.toInt_eq_toNat_cond]
  split_ifs <;> omega

/-- Both products are exact: the unsigned one as it is, the signed one with a signed high word. -/
theorem mul_manual_exact (int128 : Bool) (valA valB : BitVec 64) :
    (mulUnsignedManual valA valB).1.toNat * 2 ^ 64 + (mulUnsignedManual valA valB).2.toNat = valA.toNat * valB.toNat ∧
      (mulSignedManual int128 valA valB).1.toInt * 2 ^ 64 + (mulSignedManual int128 valA valB).2.toNat =
        valA.toInt * valB.toInt := by
  refine ⟨mulUnsigned_spec false valA valB, ?_⟩
  have hspec := mulUnsigned_spec int128 valA valB
  obtain ⟨s, hs, hA⟩ := toInt_eq valA
  obtain ⟨t, ht, hB⟩ := toInt_eq valB
  unfold mulSignedManual
  generalize mulUnsigned int128 valA valB = u at *
  obtain ⟨uHigh, uLow⟩ := u
  dsimp only at *
  zify at hspec
  -- The high word the product has.
  have hprod : valA.toInt * valB.toInt = (uHigh.toNat - s * valB.toNat - t * valA.toNat + s * t * 2 ^ 64) * 2 ^ 64 + uLow.toNat := by
    rw [hA, hB]
    linear_combination -hspec
  have hbound : |valA.toInt * valB.toInt| ≤ 2 ^ 63 * 2 ^ 63 := by
    rw [abs_mul]
    refine mul_le_mul ?_ ?_ (abs_nonneg _) (by decide) <;> rw [abs_le]
    · exact ⟨BitVec.le_toInt valA, (BitVec.toInt_lt (x := valA)).le⟩
    · exact ⟨BitVec.le_toInt valB, (BitVec.toInt_lt (x := valB)).le⟩
  obtain ⟨hle, hge⟩ := abs_le.mp hbound
  have hlow := uLow.isLt
  rw [hprod] at hle hge ⊢
  refine congrArg (· * 2 ^ 64 + (uLow.toNat : ℤ)) (toInt_eq_of_dvd ?_ (by omega) (by omega))
  split_ifs at hs ht ⊢ <;> subst hs <;> subst ht <;> bv_omega

end Gem5.Base
