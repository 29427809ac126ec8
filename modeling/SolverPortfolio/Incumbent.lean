import SolverPortfolio.Goal

/-
# The incumbent of a run

All solvers of a run share the best objective value found so far and the name
of the solver whose answer ended the run. The value only ever improves, and is
frozen once there is a winner; the first winner stays, and a winner or a
request to stop cancels the run.

Main definitions: `Proof`, `Winner`, `Incumbent`, `Incumbent.offer`,
`Incumbent.declareWinner`, `Incumbent.cancel`.
-/

namespace SolverPortfolio

/-- Why an answer ends a run. -/
inductive Proof where
  | satisfied
  | optimal
  | unsatisfiable
  | unbounded
  deriving Repr, DecidableEq

/-- The word for a proof. -/
def Proof.word : Proof → String
  | .satisfied => "Satisfied"
  | .optimal => "Optimal"
  | .unsatisfiable => "Unsatisfiable"
  | .unbounded => "Unbounded"

/-- All proofs. -/
def Proof.all : List Proof := [.satisfied, .optimal, .unsatisfiable, .unbounded]

/-- The solver whose answer ended a run. -/
structure Winner where
  solver : String
  proof : Proof
  deriving Repr, DecidableEq

/-- What the solvers of a run share. -/
structure Incumbent where
  goal : Goal
  best : Option Objective
  winner : Option Winner
  cancelled : Bool
  deriving Repr, DecidableEq

namespace Incumbent

/-- A run that has found nothing. -/
def start (goal : Goal) : Incumbent :=
  { goal, best := none, winner := none, cancelled := false }

/-- Is a value accepted as the new best one? -/
def accepts (i : Incumbent) (value : Objective) : Bool :=
  i.goal.isOptimization && i.winner.isNone && i.goal.isBetter i.best value

/-- Offers a value, and says whether it was accepted. -/
def offer (i : Incumbent) (value : Objective) : Incumbent × Bool :=
  if i.accepts value then ({ i with best := some value }, true) else (i, false)

/-- An offer says whether the value was accepted. -/
@[simp] theorem offer_snd (i : Incumbent) (value : Objective) :
    (i.offer value).2 = i.accepts value := by
  unfold offer
  split <;> simp_all

/-- An accepted value is the best one from then on, and any other changes nothing. -/
theorem best_offer (i : Incumbent) (value : Objective) :
    (i.offer value).1.best = if i.accepts value then some value else i.best := by
  unfold offer
  split <;> rfl

/-- An offer leaves the winner as it is. -/
@[simp] theorem winner_offer (i : Incumbent) (value : Objective) :
    (i.offer value).1.winner = i.winner := by
  unfold offer
  split <;> rfl

/-- An offer does not cancel the run. -/
@[simp] theorem cancelled_offer (i : Incumbent) (value : Objective) :
    (i.offer value).1.cancelled = i.cancelled := by
  unfold offer
  split <;> rfl

/-- An offer leaves the goal as it is. -/
@[simp] theorem goal_offer (i : Incumbent) (value : Objective) :
    (i.offer value).1.goal = i.goal := by
  unfold offer
  split <;> rfl

/-- Declares a winner, and says whether it is the first one. -/
def declareWinner (i : Incumbent) (solver : String) (proof : Proof) : Incumbent × Bool :=
  match i.winner with
  | some _ => (i, false)
  | none => ({ i with winner := some ⟨solver, proof⟩, cancelled := true }, true)

/-- The first winner stays. -/
@[simp] theorem winner_declareWinner (i : Incumbent) (solver : String) (proof : Proof) :
    (i.declareWinner solver proof).1.winner = (i.winner <|> some ⟨solver, proof⟩) := by
  unfold declareWinner
  cases h : i.winner <;> simp [h]

/-- A declaration says whether there was no winner before. -/
@[simp] theorem declareWinner_snd (i : Incumbent) (solver : String) (proof : Proof) :
    (i.declareWinner solver proof).2 = i.winner.isNone := by
  unfold declareWinner
  cases i.winner <;> rfl

/-- A declaration leaves the best value as it is. -/
@[simp] theorem best_declareWinner (i : Incumbent) (solver : String) (proof : Proof) :
    (i.declareWinner solver proof).1.best = i.best := by
  unfold declareWinner
  cases i.winner <;> rfl

/-- A declaration leaves the goal as it is. -/
@[simp] theorem goal_declareWinner (i : Incumbent) (solver : String) (proof : Proof) :
    (i.declareWinner solver proof).1.goal = i.goal := by
  unfold declareWinner
  cases i.winner <;> rfl

/-- Once there is a winner, a declaration changes nothing. -/
theorem declareWinner_of_ne_none {i : Incumbent} (h : i.winner ≠ none) (solver : String)
    (proof : Proof) : (i.declareWinner solver proof).1 = i := by
  unfold declareWinner
  cases hw : i.winner with
  | none => exact absurd hw h
  | some winner => rfl

/-- Cancels the run. -/
def cancel (i : Incumbent) : Incumbent := { i with cancelled := true }

end Incumbent

end SolverPortfolio
