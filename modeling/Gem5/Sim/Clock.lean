import Mathlib

/-!
# Clocks

A `ClockedObject` keeps the tick of the next clock edge and its cycle number, and brings
them up to date whenever it is asked for an edge (`sim/clocked_object.hh`). This module
models that bookkeeping (`Clocked`, `Clocked.update`) and proves that, for a constant clock
period, it computes what the rest of the development uses: `clockEdge`, the first multiple of
the period at or after the current tick, plus a number of cycles.
-/

namespace Gem5.Sim

/-- `divCeil` of `base/intmath.hh`. -/
def divCeil (a b : ℕ) : ℕ := (a + b - 1) / b

/-- `ceilTo P t`: the first multiple of the period `P` at or after `t`, that is
`divCeil(t, clockPeriod()) * clockPeriod()`. -/
def ceilTo (P t : ℕ) : ℕ := divCeil t P * P

/-- `clockEdge(cycles)` at tick `now`, for an object whose clock period is `P`. -/
def clockEdge (P now : ℕ) (cycles : ℕ := 0) : ℕ := ceilTo P now + P * cycles

lemma dvd_ceilTo (P t : ℕ) : P ∣ ceilTo P t := Dvd.intro_left _ rfl

variable {P t e : ℕ}

lemma le_ceilTo (hP : 0 < P) (t : ℕ) : t ≤ ceilTo P t := by
  unfold ceilTo divCeil
  have h := Nat.div_add_mod (t + P - 1) P
  have h' := Nat.mod_lt (t + P - 1) hP
  rw [Nat.mul_comm] at h
  omega

lemma ceilTo_lt (hP : 0 < P) (t : ℕ) : ceilTo P t < t + P := by
  unfold ceilTo divCeil
  have := Nat.div_mul_le_self (t + P - 1) P
  omega

/-- The edge at or after `t` is the only multiple of the period in `t,..t+P`. -/
lemma ceilTo_unique (hP : 0 < P) (hd : P ∣ e) (hle : t ≤ e) (hlt : e < t + P) : ceilTo P t = e := by
  obtain ⟨k, rfl⟩ := hd
  obtain ⟨j, hj⟩ := dvd_ceilTo P t
  have h1 := le_ceilTo hP t
  have h2 := ceilTo_lt hP t
  rw [hj] at h1 h2 ⊢
  have a : P * j < P * (k + 1) := by rw [Nat.mul_add]; omega
  have b : P * k < P * (j + 1) := by rw [Nat.mul_add]; omega
  have ha := Nat.lt_of_mul_lt_mul_left a
  have hb := Nat.lt_of_mul_lt_mul_left b
  rw [show j = k by omega]

@[simp] lemma ceilTo_of_dvd (hP : 0 < P) (hd : P ∣ e) : ceilTo P e = e :=
  ceilTo_unique hP hd le_rfl (by omega)

lemma ceilTo_le (hP : 0 < P) (hd : P ∣ e) (hle : t ≤ e) : ceilTo P t ≤ e := by
  by_contra h
  obtain ⟨k, rfl⟩ := hd
  obtain ⟨j, hj⟩ := dvd_ceilTo P t
  have h2 := ceilTo_lt hP t
  rw [hj] at h h2
  have a : P * j < P * (k + 1) := by rw [Nat.mul_add]; omega
  have b := Nat.lt_of_mul_lt_mul_left (by omega : P * k < P * j)
  have := Nat.lt_of_mul_lt_mul_left a
  omega

lemma dvd_clockEdge (P now k : ℕ) : P ∣ clockEdge P now k :=
  Nat.dvd_add (dvd_ceilTo P now) (Dvd.intro _ rfl)

lemma le_clockEdge (hP : 0 < P) (now k : ℕ) : now ≤ clockEdge P now k :=
  (le_ceilTo hP now).trans (Nat.le_add_right _ _)

lemma clockEdge_zero (P now : ℕ) : clockEdge P now 0 = ceilTo P now := rfl

/-! ### The bookkeeping of `Clocked` -/

/-- The mutable part of a `Clocked` object. -/
structure Clocked where
  /-- The tick of the next clock edge at the time of the last `update`. -/
  tick : ℕ
  /-- The cycle number of that edge. -/
  cycle : ℕ

/-- `Clocked::update()` at `curTick`, with clock period `P`. -/
def Clocked.update (P curTick : ℕ) (c : Clocked) : Clocked :=
  if curTick ≤ c.tick then c
  else
    let c : Clocked := ⟨c.tick + P, c.cycle + 1⟩
    if curTick ≤ c.tick then c
    else
      let elapsedCycles := divCeil (curTick - c.tick) P
      ⟨c.tick + elapsedCycles * P, c.cycle + elapsedCycles⟩

/-- What holds of a `Clocked` object of constant period between updates: `tick` is a clock
edge, numbered by `cycle`, and no edge lies between the current tick and it. -/
structure Clocked.Inv (P curTick : ℕ) (c : Clocked) : Prop where
  /-- `tick` is the edge with number `cycle`. -/
  edge : c.tick = c.cycle * P
  /-- It is not more than one period away. -/
  near : c.tick < curTick + P

lemma Clocked.inv_init (hP : 0 < P) : Clocked.Inv P 0 ⟨0, 0⟩ := ⟨by simp, by simpa⟩

lemma Clocked.Inv.later {now now' : ℕ} {c : Clocked} (h : c.Inv P now) (hle : now ≤ now') :
    c.Inv P now' := ⟨h.edge, by have := h.near; omega⟩

/-- `update` keeps the bookkeeping straight and arrives at the next edge, so that
`clockEdge(cycles)`, which adds whole cycles to `tick`, is the function `clockEdge`. -/
lemma Clocked.update_spec {now : ℕ} (hP : 0 < P) {c : Clocked} (h : c.Inv P now) : (c.update P now).Inv P now ∧
      ∀ cycles, (c.update P now).tick + P * cycles = clockEdge P now cycles := by
  suffices hs : (c.update P now).tick = ceilTo P now ∧ (c.update P now).tick = (c.update P now).cycle * P by
    refine ⟨⟨hs.2, ?_⟩, fun k => by rw [hs.1]; rfl⟩
    rw [hs.1]
    exact ceilTo_lt hP now
  have hdvd : P ∣ c.tick := ⟨c.cycle, by rw [h.edge, Nat.mul_comm]⟩
  unfold Clocked.update
  by_cases h1 : now ≤ c.tick
  · rw [if_pos h1]
    exact ⟨(ceilTo_unique hP hdvd h1 h.near).symm, h.edge⟩
  rw [if_neg h1]
  dsimp only
  have hedge : c.tick + P = (c.cycle + 1) * P := by rw [h.edge]; ring
  by_cases h2 : now ≤ c.tick + P
  · rw [if_pos h2]
    refine ⟨(ceilTo_unique hP (Nat.dvd_add hdvd (Nat.dvd_refl P)) h2 (by omega)).symm, hedge⟩
  · rw [if_neg h2]
    -- the distance to the current tick, rounded up, is added to the edge reached so far
    have hd : P ∣ c.tick + P := Nat.dvd_add hdvd (Nat.dvd_refl P)
    have hle := le_ceilTo hP (now - (c.tick + P))
    have hlt := ceilTo_lt hP (now - (c.tick + P))
    unfold ceilTo at hle hlt
    refine ⟨?_, ?_⟩
    · refine (ceilTo_unique hP (Nat.dvd_add hd (Dvd.intro_left _ rfl)) ?_ ?_).symm <;> omega
    · dsimp only
      rw [hedge]
      ring

/-- A new object that is brought up to date at each of `ticks`. -/
def Clocked.updates (P : ℕ) (ticks : List ℕ) : Clocked := ticks.foldl (fun c t => c.update P t) ⟨0, 0⟩

lemma Clocked.inv_updates (hP : 0 < P) {ticks : List ℕ} {now : ℕ} (hs : (ticks ++ [now]).Pairwise (· ≤ ·)) :
    (updates P ticks).Inv P now := by
  induction ticks using List.reverseRecOn generalizing now with
  | nil => exact (inv_init hP).later (Nat.zero_le now)
  | append_singleton ticks t ih =>
    obtain ⟨hs, -, hle⟩ := List.pairwise_append.mp hs
    rw [updates, List.foldl_concat]
    exact (update_spec hP (ih hs)).1.later (hle t (by simp) now (by simp))

/-- **The clock does not drift.** Whenever and however often an object was brought up to date before, its cycles are counted
from tick `0`, and its edges are those of `clockEdge`. -/
theorem Clocked.edges_exact (hP : 0 < P) {ticks : List ℕ} {now : ℕ} (hs : (ticks ++ [now]).Pairwise (· ≤ ·)) (cycles : ℕ) :
    ((updates P ticks).update P now).cycle * P = clockEdge P now ∧
      ((updates P ticks).update P now).tick + P * cycles = clockEdge P now cycles := by
  obtain ⟨hinv, hedges⟩ := update_spec hP (inv_updates hP hs)
  exact ⟨hinv.edge.symm.trans (hedges 0), hedges cycles⟩

theorem Clocked.edges_exact_seven : ((updates 3 [1, 7]).update 3 20).cycle * 3 = 21 :=
  (edges_exact (by decide) (by decide) 0).1

end Gem5.Sim
