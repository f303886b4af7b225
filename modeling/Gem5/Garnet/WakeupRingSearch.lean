import Gem5.Garnet.WakeupRing
import Gem5.Lib.Except

/-!
# The search of the wakeup ring

Whatever has been registered and taken out, the two words of companion bits say which masks are not
empty, and `computeNextWakeupTick` finds the nearest of them going round the ring, the current slot
last (**`next_pending_slot`**).

The words are 64 bits wide, and a shift by 64 or more, as `__builtin_ctzll` of zero, is undefined.
The functions are therefore given once more with every shift checked, and the checks never fail.
-/

namespace Gem5.Garnet

open Lib List

namespace WakeupRing

/-! ### The functions with their shifts checked -/

/-- An operation on a word that is undefined. -/
inductive WordFault where
  /-- A shift by a negative number, or by 64 or more. -/
  | shift
  /-- `__builtin_ctzll(0)`. -/
  | ctzOfZero
  deriving DecidableEq, Repr

/-- `x << n`. -/
def shiftLeft (x : BitVec 64) (n : ℤ) : Except WordFault (BitVec 64) := do
  ensure (decide (0 ≤ n) && decide (n < 64)) .shift
  pure (x <<< n.toNat)

/-- `x >> n`. -/
def shiftRight (x : BitVec 64) (n : ℤ) : Except WordFault (BitVec 64) := do
  ensure (decide (0 ≤ n) && decide (n < 64)) .shift
  pure (x >>> n.toNat)

/-- `__builtin_ctzll(x)`. -/
def ctzll (x : BitVec 64) : Except WordFault ℕ :=
  match ctz x with
  | some i => .ok i
  | none => .error .ctzOfZero

/-- `registerWakeup(router_id, tick)`, with `idx & 63` for the place of the companion bit. -/
def registerWakeupChecked (P routerId tick : ℕ) (w : WakeupRing) : Except WordFault WakeupRing := do
  let idx := slot P tick
  let routerBit ← shiftLeft 1 routerId
  let activeBit ← shiftLeft 1 (idx % 64 : ℕ)
  let w := { w with mask := fun i => if i = idx then w.mask i ||| routerBit else w.mask i }
  if idx < 64 then pure { w with activeLo := w.activeLo ||| activeBit }
  else pure { w with activeHi := w.activeHi ||| activeBit }

/-- What `globalWakeup` does to the ring. -/
def takeMaskChecked (P tick : ℕ) (w : WakeupRing) : Except WordFault (BitVec 64 × WakeupRing) :=
  let idx := slot P tick
  let mask := w.mask idx
  let w : WakeupRing := { w with mask := fun i => if i = idx then 0 else w.mask i }
  if mask ≠ 0 then
    if idx < 64 then do
      let activeBit ← shiftLeft 1 idx
      pure (mask, { w with activeLo := w.activeLo &&& ~~~activeBit })
    else do
      let activeBit ← shiftLeft 1 ((idx : ℤ) - 64)
      pure (mask, { w with activeHi := w.activeHi &&& ~~~activeBit })
  else pure (mask, w)

/-- `if (x) return base + __builtin_ctzll(x)`, and what comes after it. -/
def lowestOf (base : ℕ) (x : BitVec 64) (other : Except WordFault (Option ℕ)) : Except WordFault (Option ℕ) :=
  if x ≠ 0 then do
    let i ← ctzll x
    pure (some (base + i))
  else other

/-- `first_bit_after`; `none` is `-1`. -/
def firstBitAfterChecked (lo hi : BitVec 64) (afterIdx : ℤ) : Except WordFault (Option ℕ) :=
  if afterIdx < 63 then do
    let shifted ← shiftRight lo (afterIdx + 1)
    let loMasked ← shiftLeft shifted (afterIdx + 1)
    lowestOf 0 loMasked (lowestOf 64 hi (pure none))
  else if afterIdx = 63 then lowestOf 64 hi (pure none)
  else if afterIdx < 127 then do
    let shifted ← shiftRight hi (afterIdx - 64 + 1)
    let hiMasked ← shiftLeft shifted (afterIdx - 64 + 1)
    lowestOf 64 hiMasked (pure none)
  else pure none

/-- The smallest set bit of the bitmap, for a search that wraps around. -/
def firstBitChecked (lo hi : BitVec 64) : Except WordFault (Option ℕ) := lowestOf 0 lo (lowestOf 64 hi (pure none))

/-- `computeNextWakeupTick(current_idx, current_tick, clock_period)`. -/
def computeNextWakeupTickChecked (currentIdx currentTick P : ℕ) (w : WakeupRing) : Except WordFault ℤ := do
  match ← firstBitAfterChecked w.activeLo w.activeHi currentIdx with
  | some idx => pure (currentTick + ((idx : ℤ) - currentIdx) * P)
  | none =>
    match ← firstBitChecked w.activeLo w.activeHi with
    | some idx => pure (currentTick + (128 - ((currentIdx : ℤ) - idx)) * P)
    | none => pure (currentTick + P)

/-! ### The checks do not fail -/

variable {w : WakeupRing} {P : ℕ}

lemma shiftLeft_eq (x : BitVec 64) {n : ℕ} (h : n < 64) : shiftLeft x n = .ok (x <<< n) := by
  have hcheck : (decide (0 ≤ (n : ℤ)) && decide ((n : ℤ) < 64)) = true := by
    simp only [Bool.and_eq_true, decide_eq_true_eq]
    omega
  rw [shiftLeft, hcheck]
  rfl

lemma shiftRight_eq (x : BitVec 64) {n : ℕ} (h : n < 64) : shiftRight x n = .ok (x >>> n) := by
  have hcheck : (decide (0 ≤ (n : ℤ)) && decide ((n : ℤ) < 64)) = true := by
    simp only [Bool.and_eq_true, decide_eq_true_eq]
    omega
  rw [shiftRight, hcheck]
  rfl

lemma ctz_eq_none_iff {x : BitVec 64} : ctz x = none ↔ x = 0 := by
  constructor
  · intro h
    refine BitVec.eq_of_getLsbD_eq fun i hi => ?_
    have hbit := find?_eq_none.mp h i (mem_range.mpr hi)
    rw [Bool.not_eq_true] at hbit
    rw [hbit]
    exact BitVec.getLsbD_zero.symm
  · rintro rfl
    refine find?_eq_none.mpr fun i _ => ?_
    simp

lemma lowestOf_eq (base : ℕ) (x : BitVec 64) (other : Option ℕ) :
    lowestOf base x (.ok other) = .ok (((ctz x).map (base + ·)).or other) := by
  rw [lowestOf, ctzll]
  cases hctz : ctz x with
  | none => rw [if_neg (not_not_intro (ctz_eq_none_iff.mp hctz))]; rfl
  | some i =>
    have hx : x ≠ 0 := by
      intro hx
      rw [ctz_eq_none_iff.mpr hx] at hctz
      cases hctz
    rw [if_pos hx]
    rfl

lemma clearLow_eq (x : BitVec 64) {sh : ℕ} (h : sh < 64) (f : BitVec 64 → Except WordFault (Option ℕ)) : (do
      let shifted ← shiftRight x sh
      let masked ← shiftLeft shifted sh
      f masked) = f (x >>> sh <<< sh) := by
  rw [shiftRight_eq _ h]
  show (shiftLeft (x >>> sh) sh >>= _) = _
  rw [shiftLeft_eq _ h]
  rfl

lemma firstBitChecked_eq (lo hi : BitVec 64) : firstBitChecked lo hi = .ok ((ctz lo).or ((ctz hi).map (64 + ·))) := by
  rw [firstBitChecked]
  show lowestOf 0 lo (lowestOf 64 hi (.ok none)) = _
  rw [lowestOf_eq, lowestOf_eq]
  simp

lemma firstBitAfterChecked_eq (lo hi : BitVec 64) (a : ℕ) :
    firstBitAfterChecked lo hi a = .ok (firstBitAfter lo hi a) := by
  rw [firstBitAfterChecked, firstBitAfter]
  by_cases h1 : a < 63
  · rw [if_pos (by omega : (a : ℤ) < 63), if_pos h1]
    have hsh : a + 1 < 64 := by omega
    refine (clearLow_eq lo hsh _).trans ?_
    show lowestOf 0 _ (lowestOf 64 hi (.ok none)) = _
    rw [lowestOf_eq, lowestOf_eq]
    simp
  · rw [if_neg (by omega : ¬ (a : ℤ) < 63), if_neg h1]
    by_cases h2 : a = 63
    · rw [if_pos (by omega : (a : ℤ) = 63), if_pos h2]
      show lowestOf 64 hi (.ok none) = _
      rw [lowestOf_eq, Option.or_none]
    · rw [if_neg (by omega : ¬ (a : ℤ) = 63), if_neg h2]
      by_cases h3 : a < 127
      · rw [if_pos (by omega : (a : ℤ) < 127), if_pos h3, show (a : ℤ) - 64 + 1 = (a - 64 + 1 : ℕ) by omega]
        refine (clearLow_eq hi (by omega) _).trans ?_
        show lowestOf 64 _ (.ok none) = _
        rw [lowestOf_eq, Option.or_none]
      · rw [if_neg (by omega : ¬ (a : ℤ) < 127), if_neg h3]
        rfl

lemma registerWakeupChecked_eq (P tick : ℕ) {r : ℕ} (hr : r < 64) (w : WakeupRing) :
    w.registerWakeupChecked P r tick = .ok (w.registerWakeup P r tick) := by
  have hidx := slot_lt P tick
  rw [registerWakeupChecked, shiftLeft_eq _ hr]
  show (shiftLeft 1 (slot P tick % 64 : ℕ) >>= _) = _
  rw [shiftLeft_eq _ (Nat.mod_lt _ (by decide))]
  rw [registerWakeup, setActive]
  by_cases h : slot P tick < 64
  · rw [if_pos h, bit, Nat.mod_eq_of_lt h]
    exact if_pos h
  · have hsub : slot P tick % 64 = slot P tick - 64 := by omega
    rw [if_neg h, hsub]
    exact if_neg h

lemma takeMaskChecked_eq (P tick : ℕ) (w : WakeupRing) : w.takeMaskChecked P tick = .ok (w.takeMask P tick) := by
  have hidx := slot_lt P tick
  rw [takeMaskChecked, takeMask]
  by_cases hmask : w.mask (slot P tick) = 0
  · rw [if_neg (not_not_intro hmask), if_pos hmask]
    rfl
  · rw [if_pos hmask, if_neg hmask, setActive]
    by_cases h : slot P tick < 64
    · rw [if_pos h, if_pos h, shiftLeft_eq _ h]
      rfl
    · have hsub : (slot P tick : ℤ) - 64 = (slot P tick - 64 : ℕ) := by omega
      rw [if_neg h, if_neg h, hsub, shiftLeft_eq _ (by omega)]
      rfl

lemma computeNextWakeupTickChecked_eq {cur : ℕ} (hcur : cur < 128) (t P : ℕ) (w : WakeupRing) :
    w.computeNextWakeupTickChecked cur t P = .ok (w.computeNextWakeupTick cur t P : ℕ) := by
  rw [computeNextWakeupTickChecked, firstBitAfterChecked_eq, computeNextWakeupTick]
  cases hafter : firstBitAfter w.activeLo w.activeHi cur with
  | some i =>
    have hi : cur < i := by
      rw [firstBitAfter_eq w hcur, find?_range_eq_some] at hafter
      exact of_decide_eq_true (Bool.and_eq_true_iff.mp hafter.1).1
    show Except.ok ((t : ℤ) + ((i : ℤ) - cur) * P) = _
    rw [← Int.ofNat_sub (Nat.le_of_lt hi)]
    rfl
  | none =>
    show (firstBitChecked w.activeLo w.activeHi >>= _) = _
    rw [firstBitChecked_eq]
    cases hfirst : (ctz w.activeLo).or ((ctz w.activeHi).map (64 + ·)) with
    | none => rfl
    | some i =>
      -- a bit after the current slot would have been found before
      have hi : i ≤ cur := by
        rw [firstBitAfter_eq w hcur, find?_eq_none] at hafter
        rw [firstBit_eq, find?_range_eq_some] at hfirst
        by_contra hlt
        exact hafter i hfirst.2.1 (by simp [hfirst.1, Nat.not_le.mp hlt])
      show Except.ok ((t : ℤ) + (128 - ((cur : ℤ) - i)) * P) = _
      rw [show (128 : ℤ) - ((cur : ℤ) - i) = (128 - (cur - i) : ℕ) by omega]
      rfl

/-! ### Runs -/

/-- The rings that calls lead to. Inside a call of `globalWakeup` the mask is taken out first, and then the routers that
are run register their next wakeups, in any order. -/
inductive Reachable (P : ℕ) : WakeupRing → Prop where
  | init : Reachable P {}
  | registerWakeup {w w' : WakeupRing} {r : ℕ} (tick : ℕ) : Reachable P w → r < 64 →
      w.registerWakeupChecked P r tick = .ok w' → Reachable P w'
  | globalWakeup {w w' : WakeupRing} {mask : BitVec 64} (tick : ℕ) : Reachable P w →
      w.takeMaskChecked P tick = .ok (mask, w') → Reachable P w'

/-- The companion bits say which masks are not empty. -/
def InSync (w : WakeupRing) : Prop := ∀ i < 128, w.active i = true ↔ w.mask i ≠ 0

lemma InSync.registerWakeup (h : w.InSync) {r : ℕ} (hr : r < 64) (tick : ℕ) : (w.registerWakeup P r tick).InSync := by
  intro i hi
  rw [registerWakeup_active w P r tick hi, registerWakeup_mask, Bool.or_eq_true, decide_eq_true_eq, h i hi]
  split_ifs with heq
  · exact iff_of_true (.inr heq) (bit_or_ne_zero hr _)
  · simp [heq]

lemma InSync.takeMask (h : w.InSync) (tick : ℕ) : (w.takeMask P tick).2.InSync := by
  intro i hi
  rw [takeMask_active w P tick hi, takeMask_mask, Bool.and_eq_true, h i hi]
  split_ifs with heq
  · simp [heq]
  · simp [heq]

lemma Reachable.inSync (h : Reachable P w) : w.InSync := by
  induction h with
  | init =>
    intro i _
    simp [active]
  | registerWakeup tick _ hr hcall ih =>
    rw [registerWakeupChecked_eq _ _ hr] at hcall
    exact Except.ok.inj hcall ▸ ih.registerWakeup hr tick
  | globalWakeup tick _ hcall ih =>
    rw [takeMaskChecked_eq] at hcall
    obtain ⟨-, rfl⟩ := Prod.mk.inj (Except.ok.inj hcall)
    exact ih.takeMask tick

/-- In every ring that calls lead to, whatever ticks they were made for:

* the companion bit of a slot is set iff its mask is not empty,
* `computeNextWakeupTick` returns the tick of the nearest slot that is not empty, going round the ring from the slot after
  the current one to the current one, or the next cycle if there is none,
* no call shifts by 64 or more. -/
theorem next_pending_slot (h : Reachable P w) : (∀ i < 128, w.active i = true ↔ w.mask i ≠ 0) ∧ (∀ cur < 128, ∀ t,
      ((∀ i < 128, w.mask i = 0) ∧ w.computeNextWakeupTick cur t P = t + P) ∨
      ∃ d, 1 ≤ d ∧ d ≤ 128 ∧ w.mask ((cur + d) % 128) ≠ 0 ∧
        (∀ e, 1 ≤ e → e < d → w.mask ((cur + e) % 128) = 0) ∧ w.computeNextWakeupTick cur t P = t + d * P) ∧
    (∀ r < 64, ∀ tick, w.registerWakeupChecked P r tick = .ok (w.registerWakeup P r tick)) ∧
    (∀ tick, w.takeMaskChecked P tick = .ok (w.takeMask P tick)) ∧
    ∀ cur < 128, ∀ t, w.computeNextWakeupTickChecked cur t P = .ok (w.computeNextWakeupTick cur t P : ℕ) := by
  have hsync := h.inSync
  refine ⟨hsync, fun cur hcur t => ?_, fun r hr tick => registerWakeupChecked_eq P tick hr w,
    fun tick => takeMaskChecked_eq P tick w, fun cur hcur t => computeNextWakeupTickChecked_eq hcur t P w⟩
  have hmask {i : ℕ} (hi : i < 128) : w.active i = false ↔ w.mask i = 0 := by
    rw [← Bool.not_eq_true, hsync i hi, not_not]
  have hslot (k : ℕ) : (cur + k) % 128 < 128 := Nat.mod_lt _ (by decide)
  cases hfind : (range 128).find? fun k => w.active ((cur + (k + 1)) % 128) with
  | none =>
    have hempty : ∀ i < 128, w.active i = false := by
      intro i hi
      have hnot := find?_eq_none.mp hfind ((i + 127 - cur) % 128) (mem_range.mpr (Nat.mod_lt _ (by decide)))
      rw [show (cur + ((i + 127 - cur) % 128 + 1)) % 128 = i by omega] at hnot
      exact (Bool.not_eq_true _).mp hnot
    exact .inl ⟨fun i hi => (hmask hi).mp (hempty i hi), computeNextWakeupTick_none w hcur hempty⟩
  | some k =>
    obtain ⟨hact, hk, hleast⟩ := find?_range_eq_some.mp hfind
    have hk := mem_range.mp hk
    have hleast' : ∀ e, 0 < e → e < k + 1 → w.active ((cur + e) % 128) = false := by
      intro e he he'
      have hfalse := hleast (e - 1) (by omega)
      rw [show e - 1 + 1 = e by omega] at hfalse
      simpa using hfalse
    refine .inr ⟨k + 1, by omega, by omega, (hsync _ (hslot _)).mp hact, fun e he he' => ?_, ?_⟩
    · exact (hmask (hslot e)).mp (hleast' e he he')
    · exact computeNextWakeupTick_nearest w hcur (by omega) (by omega) hact hleast'

/-- With a period of 500 ticks, router 3 has registered for cycle 120 and router 5 for cycle 130, whose slot is 2. -/
def twoRegistered : WakeupRing := (({} : WakeupRing).registerWakeup 500 3 60000).registerWakeup 500 5 65000

/-- From slot 120 the search goes around the ring. -/
theorem next_pending_slot_two : twoRegistered.mask 120 ≠ 0 ∧ twoRegistered.mask 2 ≠ 0 ∧
    twoRegistered.computeNextWakeupTick 120 60000 500 = 65000 := by
  have hfirst : Reachable 500 (({} : WakeupRing).registerWakeup 500 3 60000) :=
    .registerWakeup 60000 .init (by decide) (registerWakeupChecked_eq _ _ (by decide) _)
  have hreach : Reachable 500 twoRegistered :=
    .registerWakeup 65000 hfirst (by decide) (registerWakeupChecked_eq _ _ (by decide) _)
  have h2 : twoRegistered.mask 2 ≠ 0 := by decide
  refine ⟨by decide, h2, ?_⟩
  rcases (next_pending_slot hreach).2.1 120 (by decide) 60000 with ⟨hno, -⟩ | ⟨d, hd, -, hmask, hleast, htick⟩
  · exact absurd (hno 2 (by decide)) h2
  · have hle : d ≤ 10 := by
      by_contra hlt
      exact h2 (hleast 10 (by decide) (by omega))
    have hempty : ∀ d < 10, 1 ≤ d → twoRegistered.mask ((120 + d) % 128) = 0 := by decide
    obtain rfl : d = 10 := by
      by_contra hne
      exact hmask (hempty d (by omega) hd)
    exact htick

end WakeupRing

end Gem5.Garnet
