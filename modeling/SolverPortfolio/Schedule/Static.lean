import SolverPortfolio.Number.Literal
import SolverPortfolio.Schedule.Basic
import SolverPortfolio.SolverTable

/-
# Static schedules

A static schedule is a text with a solver, a comma and a number of seconds on
each line. It is accepted for a solver table and a timeout if it names solvers
of the table only and lasts no longer than the timeout.

Main definitions: `StaticSchedule.parse`, `StaticSchedule.validate`,
`StaticSchedule.load`.
-/

namespace SolverPortfolio

namespace StaticSchedule

/-- Why a line holds no slot. -/
inductive LineError where
  | noComma (line : String)
  | notPositive (line seconds : String)
  deriving Repr, DecidableEq

/-- The text shown for a line that holds no slot. -/
def LineError.message : LineError → String
  | .noComma line => s!"static schedule line does not contain a ',': '{line}'"
  | .notPositive line seconds =>
    s!"static schedule seconds are not a positive number: '{seconds}' on the following line: {line}"

/-- Why a static schedule is refused. -/
inductive Error where
  | line (e : LineError)
  | unknownSolver (name : String)
  | tooLong (total timeout : Float)

/-- The text shown for a static schedule that is refused. -/
def Error.message : Error → String
  | .line e => e.message
  | .unknownSolver name => s!"static schedule names unknown solver '{name}'"
  | .tooLong total timeout =>
    let lasts := s!"static schedule lasts {Number.showShortest total}s"
    s!"{lasts}, more than the {Number.showShortest timeout}s timeout"

/-- Reads a finite positive number of seconds. -/
def readSeconds? (s : List Char) : Option Float :=
  match Number.readFloat (Text.trim s) with
  | .ok x => if x.isFinite && decide (0 < x) then some x else none
  | .error _ => none

/-- Reads a line without white space at its ends. -/
def readLine (line : List Char) : Except LineError (Slot Float) :=
  match Text.cutAt ',' line with
  | none => .error (.noComma (String.ofList line))
  | some (solver, seconds) =>
    match readSeconds? seconds with
    | none => .error (.notPositive (String.ofList line) (String.ofList seconds))
    | some x => .ok ⟨String.ofList (Text.trim solver), x⟩

/-- Does a line hold nothing, or a comment? -/
def isSkipped (line : List Char) : Bool :=
  match line with
  | [] => true
  | c :: _ => c = '#'

/-- Reads a static schedule. -/
def parse (text : List Char) : Except LineError (Schedule Float) :=
  (((Text.lines text).map Text.trim).filter fun line => !isSkipped line).mapM readLine

/-- Checks a static schedule against a solver table and a timeout. -/
def validate (schedule : Schedule Float) (table : SolverTable) (timeout : Float) :
    Except Error Unit :=
  match schedule.find? fun slot => !table.contains slot.solver with
  | some slot => .error (.unknownSolver slot.solver)
  | none =>
    let total := Schedule.totalSeconds schedule
    if timeout < total then .error (.tooLong total timeout) else .ok ()

/-- Reads and checks a static schedule, and joins neighbouring slots of one solver. -/
def load (text : List Char) (table : SolverTable) (timeout : Float) :
    Except Error (Schedule Float) :=
  match parse text with
  | .error e => .error (.line e)
  | .ok schedule =>
    match validate schedule table timeout with
    | .error e => .error e
    | .ok () => .ok (Schedule.merge schedule [])

end StaticSchedule

end SolverPortfolio
