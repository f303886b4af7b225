import Mathlib

/-!
# Complete trees whose nodes take turns

Each node of a complete tree remembers which of its halves comes next. A visit goes to the leaf the nodes point to and turns
the nodes on its way. Since a node sends every second visit to each half, `2 ^ h` visits reach each of the `2 ^ h` leaves
once, whatever the nodes pointed to (`Turns.visits_perm`).
-/

namespace Gem5.Lib

open List

/-- A complete tree of height `h`; `right` says that the right half comes next. -/
inductive Turns : ℕ → Type where
  | leaf : Turns 0
  | node {h : ℕ} (right : Bool) (l r : Turns h) : Turns (h + 1)

namespace Turns

variable {h : ℕ}

def first {h : ℕ} : Turns h → ℕ
  | leaf => 0
  | @node h right l r => if right then 2 ^ h + first r else first l

def turn {h : ℕ} : Turns h → Turns h
  | leaf => leaf
  | node right l r => if right then node false l (turn r) else node true (turn l) r

/-- The next `k` visits. -/
def visits : ℕ → Turns h → List ℕ
  | 0, _ => []
  | k + 1, t => first t :: visits k (turn t)

lemma first_lt (t : Turns h) : first t < 2 ^ h := by
  induction t with
  | leaf => exact Nat.one_pos
  | @node h right l r hl hr =>
    rw [first, Nat.pow_succ]
    split_ifs <;> omega

lemma visits_node (k : ℕ) (right : Bool) (l r : Turns h) :
    visits (2 * k) (node right l r) ~ visits k l ++ (visits k r).map (2 ^ h + ·) := by
  induction k generalizing l r with
  | zero => exact Perm.nil
  | succ k ih =>
    have := ih (turn l) (turn r)
    rw [show 2 * (k + 1) = 2 * k + 1 + 1 by omega]
    cases right with
    | false =>
      simp only [visits, first, turn, Bool.false_eq_true, if_false, if_true, cons_append, map_cons]
      exact ((this.cons _).trans perm_middle.symm).cons _
    | true =>
      simp only [visits, first, turn, Bool.false_eq_true, if_false, if_true, cons_append, map_cons]
      exact (Perm.swap ..).trans (((this.cons _).trans perm_middle.symm).cons _)

lemma visits_perm (t : Turns h) : visits (2 ^ h) t ~ range (2 ^ h) := by
  induction t with
  | leaf => exact Perm.refl _
  | @node h right l r hl hr =>
    calc visits (2 ^ (h + 1)) (node right l r)
        = visits (2 * 2 ^ h) (node right l r) := by rw [Nat.pow_succ']
      _ ~ visits (2 ^ h) l ++ (visits (2 ^ h) r).map (2 ^ h + ·) := visits_node ..
      _ ~ range (2 ^ h) ++ (range (2 ^ h)).map (2 ^ h + ·) := hl.append (hr.map _)
      _ = range (2 ^ (h + 1)) := by rw [← range_add, Nat.pow_succ, Nat.mul_two]

end Turns

end Gem5.Lib
