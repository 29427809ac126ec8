import SolverPortfolio.Goal
import SolverPortfolio.SolverTable
import SolverPortfolio.Text.Basic

/-
# Bounds in FlatZinc models

A FlatZinc model is a sequence of statements that end in semicolons, the last
of which says what to solve. A bound on the objective is spliced in as one more
constraint before that statement.

Main definitions: `FlatZinc.splitSolve`, `FlatZinc.objectiveVariable`,
`FlatZinc.boundConstraint`, `FlatZinc.insertConstraint`,
`FlatZinc.insertBound`.
-/

namespace SolverPortfolio

namespace FlatZinc

/-- Why no bound can be put into a model. -/
inductive Error where
  | noStatements (content : String)
  | lastNotSolve (statement : String)
  | satisfaction
  deriving Repr, DecidableEq

/-- The text shown when no bound can be put into a model. -/
def Error.message : Error → String
  | .noStatements content => s!"FlatZinc contains no statements: {content}"
  | .lastNotSolve statement => s!"the last statement is not a solve statement: {statement}"
  | .satisfaction => "tried to create the objective constraint on a satisfaction problem"

/-- Drops one semicolon at the end. -/
def dropSemicolon (s : List Char) : List Char :=
  match s.getLast? with
  | some ';' => s.dropLast
  | _ => s

/-- A semicolon at the end is dropped. -/
@[simp] theorem dropSemicolon_concat (s : List Char) : dropSemicolon (s ++ [';']) = s := by
  simp [dropSemicolon]

/-- The text up to the last semicolon before the solve statement, and that statement. -/
def splitSolve (content : List Char) : Except Error (List Char × List Char) :=
  let body := dropSemicolon (Text.trimEnd content)
  if Text.allBlank body then .error (.noStatements (String.ofList content))
  else
    let (head, solve) := Text.cutAfterLast ';' body
    if (Text.stripStart? "solve".toList (Text.trimStart solve)).isSome then .ok (head, solve)
    else .error (.lastNotSolve (String.ofList (Text.trim solve)))

/-- The variable that the solve statement names last. -/
def objectiveVariable (content : List Char) : Except Error (List Char) := do
  let (_, solve) ← splitSolve content
  let name := ((Text.words solve).getLast?).getD []
  if name = "satisfy".toList then throw .satisfaction
  return name

/-- The constraint that a variable improves on a bound, in the language of a solver, without a
semicolon at its end. -/
def boundConstraint (solver : Solver) (goal : Goal) (objective : List Char) (bound : Objective) :
    Except Error (List Char) :=
  let fill (template : String) :=
    Text.dropEnd (· = ';') (Text.trimEnd
      (Text.replaceAll "\x7bbound\x7d".toList (toString bound).toList
        (Text.replaceAll "\x7bobj\x7d".toList objective template.toList)))
  match goal with
  | .satisfy => .error .satisfaction
  | .minimize => .ok (fill solver.minimizeConstraint)
  | .maximize => .ok (fill solver.maximizeConstraint)

/-- Puts a constraint on a line of its own before the solve statement. -/
def insertConstraint (content constraint : List Char) : Except Error (List Char) := do
  let (head, solve) ← splitSolve content
  let gap := if head.isEmpty then [] else ['\n']
  return head ++ gap ++ constraint ++ [';', '\n'] ++ Text.trim solve ++ [';', '\n']

/-- Adds the constraint that the objective improves on a bound. -/
def insertBound (solver : Solver) (goal : Goal) (bound : Objective) (content : List Char) :
    Except Error (List Char) := do
  let objective ← objectiveVariable content
  let constraint ← boundConstraint solver goal objective bound
  insertConstraint content constraint

end FlatZinc

end SolverPortfolio
