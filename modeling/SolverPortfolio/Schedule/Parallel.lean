import SolverPortfolio.Schedule.Basic

/-
# Schedules on several cores

A plan has a fixed part and a predicted part. On several cores all but one core
go to the solvers with the longest predicted slots, one each, and the last core
is shared by the other slots: the fixed ones as they are, the predicted ones
stretched or shrunk to fill what is left of the timeout.

Main definitions: `Plan`, `Plan.sequential`, `ParallelSchedule`,
`Plan.parallelize`.
-/

namespace SolverPortfolio

/-- A fixed schedule followed by a predicted one. -/
structure Plan (α : Type) where
  fixed : Schedule α
  predicted : Schedule α

/-- The whole plan on one core. -/
def Plan.sequential {α : Type} [Add α] (plan : Plan α) : Schedule α :=
  Schedule.merge plan.fixed plan.predicted

/-- Solvers that own a core each, and the slots of the core that the others share. -/
structure ParallelSchedule (α : Type) where
  dedicated : List String
  shared : Schedule α

namespace ParallelSchedule

/-- Is there nothing to run? -/
def isEmpty (s : ParallelSchedule Float) : Bool :=
  s.dedicated.isEmpty && s.shared.all fun slot => decide (slot.seconds ≤ 0)

/-- The text of a schedule on several cores. -/
def render (s : ParallelSchedule Float) : String :=
  let dedicated := Text.joinWith ", " s.dedicated
  let shared := Text.joinWith ", " (s.shared.map Slot.render)
  s!"dedicated [{dedicated}], shared [{shared}]"

end ParallelSchedule

namespace Plan

variable {α : Type} [Quantity α]

/-- The solvers of the longest predicted slots, longest first, one fewer than there are cores. -/
def dedicatedSolvers (plan : Plan α) (cores : Nat) : List String :=
  ((plan.predicted.mergeSort fun a b => Quantity.sortsBefore b.seconds a.seconds).take
    (cores - 1)).map (·.solver)

/-- The fixed slots of the shared core: a solver with a core of its own gets no time. -/
def sharedFixed (plan : Plan α) (dedicated : List String) : Schedule α :=
  plan.fixed.map fun slot =>
    if dedicated.contains slot.solver then ⟨slot.solver, 0⟩ else slot

/-- No fixed slot is given to another solver. -/
@[simp] theorem solvers_sharedFixed (plan : Plan α) (dedicated : List String) :
    (plan.sharedFixed dedicated).map (·.solver) = plan.fixed.map (·.solver) := by
  rw [sharedFixed, List.map_map]
  refine List.map_congr_left fun slot _ => ?_
  rw [Function.comp_apply]
  split <;> rfl

/-- The predicted slots of the solvers without a core of their own. -/
def leftOver (plan : Plan α) (dedicated : List String) : Schedule α :=
  plan.predicted.filter fun slot => !dedicated.contains slot.solver

/-- Stretches or shrinks a schedule to a given number of seconds; one without time keeps none. -/
def rescale (schedule : Schedule α) (seconds : α) : Schedule α :=
  let total := Schedule.totalSeconds schedule
  schedule.map fun slot =>
    ⟨slot.solver, if Quantity.lt 0 total then slot.seconds * seconds / total else 0⟩

/-- Stretching moves no slot. -/
@[simp] theorem solvers_rescale (schedule : Schedule α) (seconds : α) :
    (rescale schedule seconds).map (·.solver) = schedule.map (·.solver) := by
  rw [rescale, List.map_map]
  rfl

/-- Spreads a plan over a number of cores within a timeout. -/
def parallelize (plan : Plan α) (cores : Nat) (timeout : α) : ParallelSchedule α :=
  let dedicated := plan.dedicatedSolvers cores
  let fixed := plan.sharedFixed dedicated
  let residual := Quantity.larger (timeout - Schedule.totalSeconds fixed) 0
  ⟨dedicated, Schedule.merge fixed (rescale (plan.leftOver dedicated) residual)⟩

end Plan

end SolverPortfolio
