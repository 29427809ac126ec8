import SolverPortfolio.Command
import SolverPortfolio.CommandTemplate
import SolverPortfolio.FlatZinc
import SolverPortfolio.Notice
import SolverPortfolio.Supervision.Worker

/-
# Launches

A launch brings up one generation of a worker: the model is converted, the
bound known when the launch was requested is put into the converted model, and
the solver's commands are filled in.

Main definitions: `LaunchRequest`, `LaunchRequest.splice`,
`LaunchRequest.commands`, `LaunchError`.
-/

namespace SolverPortfolio

/-- What is needed to bring up one generation of a worker. -/
structure LaunchRequest where
  worker : WorkerId
  generation : Nat
  solver : Solver
  goal : Goal
  /-- The variable whose assignments announce objective values. -/
  tracked : String
  /-- The best objective value known when the launch was requested. -/
  bound : Option Objective
  allSolutions : Bool
  freeSearch : Bool
  /-- The time left, in whole seconds. -/
  timeoutSeconds : Nat
  deriving Repr, DecidableEq

/-- Why no process is brought up. -/
inductive LaunchError where
  | conversion (solver cause : String)
  | emptyCommand (solver : String)
  | notStarted (cause : SystemError)
  deriving Repr, DecidableEq

/-- The text shown when no process is brought up. -/
def LaunchError.message : LaunchError → String
  | .conversion solver cause => s!"failed to convert the model for solver '{solver}': {cause}"
  | .emptyCommand solver => s!"failed to launch solver '{solver}': empty command template"
  | .notStarted cause => s!"IO error: {cause.text}"

/-- A model to be solved, after the bound was put in or could not be put in. -/
structure SplicedModel where
  /-- The text of the model, if it differs from the converted one. -/
  changed : Option (List Char)
  injected : Option Objective
  notices : List Notice
  deriving Repr, DecidableEq

/-- The commands that make up a running solver. -/
structure LaunchCommands where
  run : Command
  /-- Reads what the solver prints, and prints what counts as its output. -/
  filter : Option Command
  deriving Repr, DecidableEq

namespace LaunchRequest

/-- The number of cores that each solver is told to use. -/
def solverCores : Nat := 1

/-- Puts the bound of the request into the converted model, if the problem has an objective. A
model that cannot take a bound is solved without one. -/
def splice (request : LaunchRequest) (converted : Except String (List Char)) : SplicedModel :=
  match if request.goal.isOptimization then request.bound else none with
  | none => ⟨none, none, []⟩
  | some bound =>
    let spliced : Except String (List Char) :=
      match converted with
      | .error cause => .error cause
      | .ok text =>
        match FlatZinc.insertBound request.solver request.goal bound text with
        | .ok text => .ok text
        | .error e => .error e.message
    match spliced with
    | .ok text => ⟨some text, some bound, []⟩
    | .error cause =>
      ⟨none, none,
        [.warning s!"running '{request.solver.name}' without bound {bound}: {cause}"]⟩

/-- The values of the placeholders for the files of a converted model. All solutions are asked for
if they are wanted, and for every problem with an objective. -/
def values (request : LaunchRequest) (fzn ozn : String) : TemplateValues
  | .fzn => some fzn.toList
  | .ozn => some ozn.toList
  | .cores => some (toString solverCores).toList
  | .timeout => some (toString request.timeoutSeconds).toList
  | .all =>
    if request.allSolutions || request.goal.isOptimization then
      some request.solver.allSolutionsFlag.toList
    else none
  | .free => if request.freeSearch then some request.solver.freeSearchFlag.toList else none
  | .model => none
  | .data => none

/-- Fills in a command template of the solver. -/
def command (request : LaunchRequest) (template : CommandTemplate) (values : TemplateValues) :
    Except LaunchError Command :=
  match Command.ofList? (template.expand values) with
  | some c => .ok c
  | none => .error (.emptyCommand request.solver.name)

/-- The commands for the files of a converted model. -/
def commands (request : LaunchRequest) (fzn ozn : String) : Except LaunchError LaunchCommands := do
  let values := request.values fzn ozn
  let run ← request.command request.solver.run values
  let filter ← request.solver.output.mapM fun template => request.command template values
  return ⟨run, filter⟩

end LaunchRequest

end SolverPortfolio
