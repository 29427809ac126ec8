import Mathlib.Algebra.BigOperators.Group.List.Basic
import Mathlib.Algebra.Order.Field.Rat
import Mathlib.Data.Rat.Cast.Defs
import SolverPortfolio.Quantity

/-
# Exact quantities

For exact rationals the operations on quantities are those of arithmetic: sums are sums,
the larger one is the maximum, a range is kept to by the minimum and the maximum, and nothing is
infinite.

Main statements: `Quantity.sum_rat`, `Quantity.larger_rat`, `Quantity.clamp_rat`,
`Quantity.lt_rat`.
-/

namespace SolverPortfolio.Quantity

/-- The first of two exact numbers is smaller. -/
@[simp] theorem lt_rat {a b : Rat} : Quantity.lt a b = true ↔ a < b := decide_eq_true_iff

/-- The sum of exact numbers. -/
@[simp] theorem sum_rat (xs : List Rat) : Quantity.sum xs = xs.sum := List.sum_eq_foldl.symm

/-- The larger of two exact numbers. -/
@[simp] theorem larger_rat (a b : Rat) : Quantity.larger a b = max a b := by
  unfold larger
  split
  · next h => exact (max_eq_right (lt_rat.mp h).le).symm
  · next h =>
    rw [if_pos (beq_self_eq_true a)]
    exact (max_eq_left (not_lt.mp fun hlt => h (lt_rat.mpr hlt))).symm

/-- A number is moved to the nearer end of a range. -/
theorem clamp_rat {low high : Rat} (h : low ≤ high) (x : Rat) :
    Quantity.clamp low high x = max low (min x high) := by
  unfold clamp
  split
  · next hlow =>
    have hle : min x high ≤ low := (min_le_left x high).trans (lt_rat.mp hlow).le
    exact (max_eq_left hle).symm
  · next hlow =>
    have hge : low ≤ x := not_lt.mp fun hlt => hlow (lt_rat.mpr hlt)
    split
    · next hhigh => rw [min_eq_right (lt_rat.mp hhigh).le, max_eq_right h]
    · next hhigh =>
      rw [min_eq_left (not_lt.mp fun hlt => hhigh (lt_rat.mpr hlt)), max_eq_right hge]

/-- A fraction is the quotient. -/
@[simp] theorem ofRatio_rat (num den : Nat) : (Quantity.ofRatio num den : Rat) = num / den := by
  change mkRat num den = _
  rw [Rat.mkRat_eq_div]
  push_cast
  rfl

/-- A whole number is itself. -/
@[simp] theorem ofNat_rat (n : Nat) : (Quantity.ofNat n : Rat) = n := by
  rw [Quantity.ofNat, ofRatio_rat, Nat.cast_one, div_one]

/-- Every exact number is finite. -/
@[simp] theorem isBounded_rat (x : Rat) : Quantity.isBounded x = true := rfl

end SolverPortfolio.Quantity
