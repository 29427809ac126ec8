import SolverPortfolio.Number.Show
import SolverPortfolio.Quantity
import SolverPortfolio.Text.Basic

/-
# Schedules

A schedule is a list of slots, each of which gives a solver a number of seconds
on one core. Two schedules are merged by running one after the other, where
neighbouring slots of one solver become one slot.

Main definitions: `Slot`, `Schedule.totalSeconds`, `Schedule.coalesce`,
`Schedule.merge`.
-/

namespace SolverPortfolio

/-- Seconds given to a solver. -/
structure Slot (α : Type) where
  solver : String
  seconds : α
  deriving Repr

/-- Slots in the order they are served. -/
abbrev Schedule (α : Type) := List (Slot α)

/-- The text of a slot, with hundredths of seconds. -/
def Slot.render (s : Slot Float) : String :=
  s!"({s.solver}, {Number.showPlaces2 s.seconds})"

namespace Schedule

/-- All seconds of a schedule. -/
def totalSeconds {α : Type} [Quantity α] (schedule : Schedule α) : α :=
  Quantity.sum (schedule.map (·.seconds))

/-- Joins the slots that follow with a slot not yet finished, as long as the solver stays the
same. -/
def coalesceFrom {α : Type} [Add α] (pending : Slot α) : Schedule α → Schedule α
  | [] => [pending]
  | slot :: rest =>
    if pending.solver = slot.solver then
      coalesceFrom ⟨pending.solver, pending.seconds + slot.seconds⟩ rest
    else pending :: coalesceFrom slot rest

/-- Joins neighbouring slots of one solver. -/
def coalesce {α : Type} [Add α] : Schedule α → Schedule α
  | [] => []
  | slot :: rest => coalesceFrom slot rest

@[simp] theorem coalesce_nil {α : Type} [Add α] : coalesce ([] : Schedule α) = [] := rfl

/-- One slot has nothing to be joined with. -/
@[simp] theorem coalesce_singleton {α : Type} [Add α] (slot : Slot α) :
    coalesce [slot] = [slot] := rfl

/-- Joining leaves the first solver in front. -/
theorem head?_coalesceFrom {α : Type} [Add α] (pending : Slot α) (rest : Schedule α) :
    ((coalesceFrom pending rest).head?).map (·.solver) = some pending.solver := by
  induction rest generalizing pending with
  | nil => rfl
  | cons slot rest ih =>
    unfold coalesceFrom
    split
    · exact ih _
    · rfl

/-- Joining drops no solver and adds none. -/
theorem mem_solvers_coalesceFrom {α : Type} [Add α] {solver : String} {pending : Slot α}
    {rest : Schedule α} : solver ∈ (coalesceFrom pending rest).map (·.solver) ↔
      solver ∈ (pending :: rest).map (·.solver) := by
  induction rest generalizing pending with
  | nil => rfl
  | cons slot rest ih =>
    unfold coalesceFrom
    split
    · next h => rw [ih]; simp [h]
    · rw [List.map_cons, List.mem_cons, ih, List.map_cons (l := slot :: rest), List.mem_cons]

/-- Runs one schedule after another, joining neighbouring slots of one solver. -/
def merge {α : Type} [Add α] (first second : Schedule α) : Schedule α :=
  coalesce (first ++ second)

/-- Both schedules keep their solvers. -/
theorem mem_solvers_merge {α : Type} [Add α] {solver : String} {first second : Schedule α} :
    solver ∈ (merge first second).map (·.solver) ↔
      solver ∈ first.map (·.solver) ∨ solver ∈ second.map (·.solver) := by
  rw [← List.mem_append, ← List.map_append, merge]
  cases first ++ second with
  | nil => rfl
  | cons slot rest => exact mem_solvers_coalesceFrom

end Schedule

end SolverPortfolio
