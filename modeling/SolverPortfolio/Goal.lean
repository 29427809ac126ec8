/-
# What a problem asks for

A problem asks for any solution, or for a solution of least or greatest
objective value. Objective values are 64-bit signed integers.

Main definitions: `Goal`, `Goal.isBetter`.
-/

namespace SolverPortfolio

/-- What a problem asks for. -/
inductive Goal where
  | satisfy
  | minimize
  | maximize
  deriving Repr, DecidableEq

/-- An objective value. -/
abbrev Objective := Int

namespace Goal

/-- Does the problem have an objective? -/
def isOptimization : Goal → Bool
  | satisfy => false
  | minimize => true
  | maximize => true

/-- Does `new` improve on `old`? Without an old value, or without an objective, it always does. -/
def isBetter (goal : Goal) (old : Option Objective) (new : Objective) : Bool :=
  match goal, old with
  | satisfy, _ => true
  | _, none => true
  | minimize, some old => decide (new < old)
  | maximize, some old => decide (old < new)

/-- Without an old value every new one improves. -/
@[simp] theorem isBetter_none (goal : Goal) (new : Objective) :
    goal.isBetter none new = true := by
  cases goal <;> rfl

/-- Where there is an objective, no value improves on itself. -/
theorem isBetter_self (goal : Goal) (v : Objective) :
    goal.isBetter (some v) v = !goal.isOptimization := by
  cases goal <;> simp [isBetter, isOptimization]

/-- Improvements add up. -/
theorem isBetter_trans {goal : Goal} {a : Option Objective} {b c : Objective}
    (hab : goal.isBetter a b) (hbc : goal.isBetter (some b) c) : goal.isBetter a c := by
  cases goal with
  | satisfy => rfl
  | minimize =>
    cases a with
    | none => rfl
    | some a =>
      simp only [isBetter, decide_eq_true_eq] at hab hbc ⊢
      exact Int.lt_trans hbc hab
  | maximize =>
    cases a with
    | none => rfl
    | some a =>
      simp only [isBetter, decide_eq_true_eq] at hab hbc ⊢
      exact Int.lt_trans hab hbc

/-- The short names that files and command lines use for goals. -/
def shortNames : List (String × Goal) :=
  [("sat", satisfy), ("min", minimize), ("max", maximize)]

end Goal

end SolverPortfolio
