import Gem5.Sim.Clock

/-!
# The wakeup ring

`GarnetNetwork` keeps, for the routers it means to wake, a ring of 128 masks, one for each clock
cycle modulo 128, and two words `m_active_lo` and `m_active_hi` with a bit for each mask that is not
empty. This module models `registerWakeup`, the part of `globalWakeup` that takes a mask out of the
ring, and `computeNextWakeupTick`.

The masks are 64-bit words. `registerWakeup` does the same in and out of a parallel region: its
stores are atomic or not, but always the bitwise or of the old value and one bit.
-/

namespace Gem5.Garnet

open Sim List

/-- `1ULL << i`. -/
def bit (i : ℕ) : BitVec 64 := 1#64 <<< i

lemma getLsbD_bit (i j : ℕ) : (bit i).getLsbD j = (decide (i < 64) && decide (j = i)) := by
  rw [bit, BitVec.getLsbD_shiftLeft, BitVec.getLsbD_one]
  rw [Bool.eq_iff_iff]
  simp only [Bool.and_eq_true, decide_eq_true_eq, Bool.not_eq_true', decide_eq_false_iff_not]
  omega

lemma bit_or_ne_zero {r : ℕ} (hr : r < 64) (m : BitVec 64) : m ||| bit r ≠ 0 := by
  intro h
  have hb : (m ||| bit r).getLsbD r = false := by simp [h]
  rw [BitVec.getLsbD_or, getLsbD_bit] at hb
  simp [hr] at hb

/-- `__builtin_ctzll`: the position of the lowest bit that is set. -/
def ctz (x : BitVec 64) : Option ℕ := (range 64).find? x.getLsbD

/-- The positions of the bits that are set, in the order in which clearing the lowest set bit over
and over (`mask &= mask - 1`) visits them. -/
def bitsOf (x : BitVec 64) : List ℕ := (range 64).filter x.getLsbD

/-- `m_wakeup_mask`, `m_active_lo` and `m_active_hi`. -/
structure WakeupRing where
  mask : ℕ → BitVec 64 := fun _ => 0
  activeLo : BitVec 64 := 0
  activeHi : BitVec 64 := 0

namespace WakeupRing

def slot (P tick : ℕ) : ℕ := tick / P % 128

/-- Set or clear the companion bit of a slot. -/
def setActive (idx : ℕ) (f : BitVec 64 → BitVec 64 → BitVec 64) (w : WakeupRing) : WakeupRing :=
  if idx < 64 then { w with activeLo := f w.activeLo (bit idx) }
  else { w with activeHi := f w.activeHi (bit (idx - 64)) }

/-- `registerWakeup(router_id, tick)`. -/
def registerWakeup (P routerId tick : ℕ) (w : WakeupRing) : WakeupRing :=
  { w with mask := fun i => if i = slot P tick then w.mask i ||| bit routerId else w.mask i }.setActive
    (slot P tick) (· ||| ·)

/-- What `globalWakeup` does to the ring at `tick`: the mask it takes out, and the ring without it. -/
def takeMask (P tick : ℕ) (w : WakeupRing) : BitVec 64 × WakeupRing :=
  let mask := w.mask (slot P tick)
  let w' : WakeupRing := { w with mask := fun i => if i = slot P tick then 0 else w.mask i }
  (mask, if mask = 0 then w' else w'.setActive (slot P tick) (fun x b => x &&& ~~~b))

/-- `first_bit_after`: the lowest active slot after `afterIdx`. -/
def firstBitAfter (lo hi : BitVec 64) (afterIdx : ℕ) : Option ℕ :=
  if afterIdx < 63 then
    let sh := afterIdx + 1
    (ctz ((lo >>> sh) <<< sh)).or ((ctz hi).map (64 + ·))
  else if afterIdx = 63 then (ctz hi).map (64 + ·)
  else if afterIdx < 127 then
    let sh := afterIdx - 64 + 1
    (ctz ((hi >>> sh) <<< sh)).map (64 + ·)
  else none

/-- `computeNextWakeupTick(current_idx, current_tick, clock_period)`. -/
def computeNextWakeupTick (currentIdx currentTick P : ℕ) (w : WakeupRing) : ℕ :=
  match firstBitAfter w.activeLo w.activeHi currentIdx with
  | some idx => currentTick + (idx - currentIdx) * P
  | none =>
    match (ctz w.activeLo).or ((ctz w.activeHi).map (64 + ·)) with
    | some idx => currentTick + (128 - (currentIdx - idx)) * P
    | none => currentTick + P

/-! ### The companion bits -/

/-- The companion bit of a slot is set. -/
def active (w : WakeupRing) (i : ℕ) : Bool :=
  if i < 64 then w.activeLo.getLsbD i else w.activeHi.getLsbD (i - 64)

variable (w : WakeupRing)

lemma find_range_128 (p : ℕ → Bool) :
    (range 128).find? p = ((range 64).find? p).or (((range 64).find? fun i => p (64 + i)).map (64 + ·)) := by
  rw [show 128 = 64 + 64 from rfl, range_add, find?_append, find?_map]
  rfl

lemma getLsbD_clearLow (x : BitVec 64) (sh i : ℕ) (hi : i < 64) :
    ((x >>> sh) <<< sh).getLsbD i = (decide (sh ≤ i) && x.getLsbD i) := by
  rw [BitVec.getLsbD_shiftLeft, BitVec.getLsbD_ushiftRight, decide_eq_true hi, Bool.true_and]
  by_cases h : sh ≤ i
  · rw [show sh + (i - sh) = i by omega]
    simp [h]
  · simp [h, show i < sh by omega]

lemma find_congr {l : List ℕ} {p q : ℕ → Bool} (h : ∀ i ∈ l, p i = q i) : l.find? p = l.find? q := by
  induction l with
  | nil => rfl
  | cons x l ih =>
    rw [find?_cons, find?_cons, h x (mem_cons_self ..), ih fun i hi => h i (mem_cons_of_mem _ hi)]

lemma none_below {a : ℕ} (ha : 63 ≤ a) {p : ℕ → Bool} : (range 64).find? (fun i => decide (a < i) && p i) = none := by
  rw [find?_eq_none]
  intro i hi
  have := mem_range.mp hi
  simp [show ¬ a < i by omega]

/-- `first_bit_after` finds the lowest active slot after an index. -/
lemma firstBitAfter_eq {a : ℕ} (ha : a < 128) :
    firstBitAfter w.activeLo w.activeHi a = (range 128).find? fun i => decide (a < i) && w.active i := by
  have hlo : ∀ i ∈ range 64, w.active i = w.activeLo.getLsbD i := by
    intro i hi
    simp [active, mem_range.mp hi]
  have hhi : ∀ i ∈ range 64, w.active (64 + i) = w.activeHi.getLsbD i := by
    intro i hi
    simp [active]
  rw [find_range_128]
  unfold firstBitAfter
  split_ifs with h1 h2 h3
  · refine congrArg₂ Option.or (find_congr fun i hi => ?_) (congrArg _ (find_congr fun i hi => ?_))
    · rw [getLsbD_clearLow _ _ _ (mem_range.mp hi), hlo i hi]
      rfl
    · rw [hhi i hi, decide_eq_true (by omega : a < 64 + i), Bool.true_and]
  · rw [none_below (by omega), Option.none_or]
    refine congrArg _ (find_congr fun i hi => ?_)
    rw [hhi i hi, decide_eq_true (by omega : a < 64 + i), Bool.true_and]
  · rw [none_below (by omega), Option.none_or]
    refine congrArg (Option.map (64 + ·)) (find_congr fun i hi => ?_)
    rw [getLsbD_clearLow _ _ _ (mem_range.mp hi), hhi i hi]
    congr 1
    rw [decide_eq_decide]
    omega
  · rw [none_below (by omega), Option.none_or, find?_eq_none.mpr]
    · rfl
    · intro i hi
      have := mem_range.mp hi
      simp [show ¬ a < 64 + i by omega]

lemma firstBit_eq : (ctz w.activeLo).or ((ctz w.activeHi).map (64 + ·)) = (range 128).find? w.active := by
  rw [find_range_128]
  exact congrArg₂ Option.or (find_congr fun i hi => by simp [active, mem_range.mp hi])
    (congrArg _ (find_congr fun i hi => by simp [active]))

lemma computeNextWakeupTick_none {cur t P : ℕ} (hcur : cur < 128) (h : ∀ i < 128, w.active i = false) :
    w.computeNextWakeupTick cur t P = t + P := by
  have h1 : (range 128).find? w.active = none := by
    rw [find?_eq_none]
    intro i hi
    simp [h i (mem_range.mp hi)]
  have h2 : (range 128).find? (fun i => decide (cur < i) && w.active i) = none := by
    rw [find?_eq_none]
    intro i hi
    simp [h i (mem_range.mp hi)]
  unfold computeNextWakeupTick
  rw [firstBitAfter_eq w hcur, firstBit_eq, h1, h2]

lemma computeNextWakeupTick_nearest {cur t P k : ℕ} (hcur : cur < 128) (hk : 0 < k) (hk' : k ≤ 128)
    (hact : w.active ((cur + k) % 128) = true) (hleast : ∀ e, 0 < e → e < k → w.active ((cur + e) % 128) = false) :
    w.computeNextWakeupTick cur t P = t + k * P := by
  have hafter {i : ℕ} (hi : i < 128) (hlt : cur < i) (hle : i < cur + k) : w.active i = false := by
    have hfalse := hleast (i - cur) (by omega) (by omega)
    rwa [show (cur + (i - cur)) % 128 = i by omega] at hfalse
  rw [computeNextWakeupTick, firstBitAfter_eq w hcur]
  by_cases hwrap : cur + k < 128
  · have hfind : ((range 128).find? fun i => decide (cur < i) && w.active i) = some (cur + k) := by
      rw [find?_range_eq_some]
      refine ⟨?_, mem_range.mpr hwrap, fun i hi => ?_⟩
      · rw [Nat.mod_eq_of_lt hwrap] at hact
        simp [hact, hk]
      · by_cases hlt : cur < i
        · simp [hafter (by omega) hlt hi]
        · simp [hlt]
    rw [hfind]
    dsimp only
    rw [Nat.add_sub_cancel_left]
  · -- no slot after the current one is active, so the search wraps around
    have hnone : ((range 128).find? fun i => decide (cur < i) && w.active i) = none := by
      rw [find?_eq_none]
      intro i hi
      have hi := mem_range.mp hi
      by_cases hlt : cur < i
      · simp [hafter hi hlt (by omega)]
      · simp [hlt]
    have hmod : (cur + k) % 128 = cur + k - 128 := by omega
    have hfind : (range 128).find? w.active = some (cur + k - 128) := by
      rw [find?_range_eq_some]
      refine ⟨hmod ▸ hact, mem_range.mpr (by omega), fun i hi => ?_⟩
      have hfalse := hleast (i + 128 - cur) (by omega) (by omega)
      rw [show (cur + (i + 128 - cur)) % 128 = i by omega] at hfalse
      simp [hfalse]
    rw [hnone, firstBit_eq, hfind]
    dsimp only
    rw [show 128 - (cur - (cur + k - 128)) = k by omega]

/-- With one active slot, `k` cycles ahead, the next execution is `k` cycles from now. -/
lemma computeNextWakeupTick_single {cur t P k : ℕ} (hcur : cur < 128) (hk : 0 < k) (hk' : k ≤ 128)
    (h : ∀ i < 128, w.active i = true ↔ i = (cur + k) % 128) :
    w.computeNextWakeupTick cur t P = t + k * P := by
  refine computeNextWakeupTick_nearest w hcur hk hk' ((h _ (Nat.mod_lt _ (by decide))).mpr rfl) fun e he he' => ?_
  rw [← Bool.not_eq_true, h _ (Nat.mod_lt _ (by decide))]
  omega

lemma slot_lt (P t : ℕ) : slot P t < 128 := Nat.mod_lt _ (by omega)

lemma slot_mul {P : ℕ} (hP : 0 < P) (k : ℕ) : slot P (k * P) = k % 128 := by
  rw [slot, Nat.mul_div_cancel _ hP]

@[simp] lemma setActive_mask (idx : ℕ) (f : BitVec 64 → BitVec 64 → BitVec 64) :
    (w.setActive idx f).mask = w.mask := by
  unfold setActive
  split_ifs <;> rfl

lemma active_setActive {idx : ℕ} (hidx : idx < 128) (f : BitVec 64 → BitVec 64 → BitVec 64) (g : Bool → Bool → Bool)
    (hf : ∀ x y i, i < 64 → (f x y).getLsbD i = g (x.getLsbD i) (y.getLsbD i)) (hg : ∀ b, g b false = b)
    {i : ℕ} (hi : i < 128) : (w.setActive idx f).active i = g (w.active i) (decide (i = idx)) := by
  unfold setActive active
  by_cases h1 : idx < 64 <;> by_cases h2 : i < 64 <;> simp only [h1, h2, if_true, if_false]
  · rw [hf _ _ _ h2, getLsbD_bit, decide_eq_true h1, Bool.true_and]
  · rw [decide_eq_false (by omega : ¬ i = idx), hg]
  · rw [decide_eq_false (by omega : ¬ i = idx), hg]
  · rw [hf _ _ _ (by omega), getLsbD_bit, decide_eq_true (by omega : idx - 64 < 64), Bool.true_and]
    congr 1
    rw [decide_eq_decide]
    omega

lemma registerWakeup_mask (P r t i : ℕ) :
    (w.registerWakeup P r t).mask i = if i = slot P t then w.mask i ||| bit r else w.mask i := by
  simp [registerWakeup]

lemma registerWakeup_active (P r t : ℕ) {i : ℕ} (hi : i < 128) :
    (w.registerWakeup P r t).active i = (w.active i || decide (i = slot P t)) := by
  unfold registerWakeup
  rw [active_setActive _ (slot_lt P t) _ (· || ·) (fun x y i _ => BitVec.getLsbD_or) (by simp) hi]
  rfl

lemma takeMask_mask (P t i : ℕ) : (w.takeMask P t).2.mask i = if i = slot P t then 0 else w.mask i := by
  unfold takeMask
  dsimp only
  split_ifs <;> simp_all

lemma takeMask_active (P t : ℕ) {i : ℕ} (hi : i < 128) :
    (w.takeMask P t).2.active i = (w.active i && !(decide (w.mask (slot P t) ≠ 0) && decide (i = slot P t))) := by
  unfold takeMask
  dsimp only
  split_ifs with h
  · simp [h, active]
  · rw [active_setActive _ (slot_lt P t) _ (fun x b => x && !b) (fun x y i h => by simp [h]) (by simp) hi]
    rw [decide_eq_true h, Bool.true_and]
    rfl

end WakeupRing

end Gem5.Garnet
