import SolverPortfolio.Goal
import SolverPortfolio.Number.Literal
import SolverPortfolio.Text.Basic

/-
# The output of solvers

A solver prints assignments line by line, a line of dashes after each solution,
and one of several closing lines when its search is complete. A line that
assigns the tracked variable announces the objective value of the solution that
is being printed. The reader turns each line into an event, or keeps it as part
of the next solution.

Main definitions: `SearchStatus`, `StreamEvent`, `StreamReader`,
`StreamReader.feed`, `readObjective?`.
-/

namespace SolverPortfolio

/-- What a solver says about its search when it is complete. -/
inductive SearchStatus where
  | optimal
  | unsatisfiable
  | unbounded
  | unknown
  deriving Repr, DecidableEq

namespace SearchStatus

/-- The closing line for a status. -/
def line : SearchStatus → String
  | optimal => "=========="
  | unsatisfiable => "=====UNSATISFIABLE====="
  | unbounded => "=====UNBOUNDED====="
  | unknown => "=====UNKNOWN====="

/-- All statuses. -/
def all : List SearchStatus := [optimal, unsatisfiable, unbounded, unknown]

/-- The status that a line states. -/
def ofLine? (s : List Char) : Option SearchStatus :=
  all.find? fun status => status.line.toList = s

end SearchStatus

/-- The line after each solution. -/
def solutionTerminator : String := "----------"

/-- A solution as printed, and its objective value if one was announced. -/
structure Solution where
  assignment : String
  objective : Option Objective
  deriving Repr, DecidableEq

/-- What a line of output says. -/
inductive StreamEvent where
  | solution (s : Solution)
  | bound (value : Objective)
  | completed (status : SearchStatus)
  deriving Repr, DecidableEq

/-- A line that assigns no objective value to the tracked variable. -/
structure BadObjective where
  line : String
  deriving Repr, DecidableEq

/-- The text shown for a line without objective value. -/
def BadObjective.message (e : BadObjective) : String :=
  s!"cannot parse objective value from '{e.line}'"

/-! ## Objective values -/

/-- Moves a whole number into the range of 64-bit signed integers. -/
def saturate (n : Int) : Int := max (-(Nat.pow 2 63)) (min (Nat.pow 2 63 - 1) n)

/-- The whole number that a double is, if it is one. -/
def wholeOfDouble? (x : Float) : Option Int :=
  match Number.parts x with
  | .finite negative m e =>
    let size : Option Nat :=
      if 0 ≤ e then some (m * Nat.pow 2 e.toNat)
      else if m % Nat.pow 2 (-e).toNat = 0 then some (m / Nat.pow 2 (-e).toNat)
      else none
    size.map fun n => if negative then -(n : Int) else n
  | _ => none

/-- Reads an objective value: a 64-bit integer, or a double that is a whole number, moved into the
range of 64-bit integers. -/
def readObjective? (s : List Char) : Option Objective :=
  match Text.readInt? 64 s with
  | some n => some n
  | none =>
    match Number.readFloat s with
    | .ok x => (wholeOfDouble? x).map saturate
    | .error _ => none

/-! ## The reader -/

/-- The lines of the solution being read, and the last objective value announced. -/
structure StreamReader where
  tracked : List Char
  text : List Char
  objective : Option Objective

namespace StreamReader

/-- A reader that has seen nothing, for a tracked variable. -/
def start (tracked : String) : StreamReader :=
  { tracked := tracked.toList ++ " = ".toList, text := [], objective := none }

/-- The value in an assignment to the tracked variable. -/
def objectiveOfLine (line value : List Char) : Except BadObjective Objective :=
  match readObjective? (Text.trim (Text.dropEnd (· = ';') value)) with
  | some v => .ok v
  | none => .error ⟨String.ofList line⟩

/-- Reads a line, which ends where its last character other than white space ends. -/
def feed (r : StreamReader) (line : List Char) :
    StreamReader × Except BadObjective (Option StreamEvent) :=
  let line := Text.trimEnd line
  if line = solutionTerminator.toList then
    ({ r with text := [], objective := none },
      .ok (some (.solution ⟨String.ofList r.text, r.objective⟩)))
  else match SearchStatus.ofLine? line with
    | some status => ({ r with text := [] }, .ok (some (.completed status)))
    | none =>
      match Text.stripStart? r.tracked line with
      | some value =>
        match objectiveOfLine line value with
        | .ok v => ({ r with objective := some v }, .ok (some (.bound v)))
        | .error e => (r, .error e)
      | none => ({ r with text := r.text ++ line ++ ['\n'] }, .ok none)

/-- The line after a solution ends it. -/
theorem feed_terminator (r : StreamReader) :
    r.feed solutionTerminator.toList
      = ({ r with text := [], objective := none },
          .ok (some (.solution ⟨String.ofList r.text, r.objective⟩))) := by
  have h : Text.trimEnd solutionTerminator.toList = solutionTerminator.toList := by decide
  simp [feed, h]

end StreamReader

end SolverPortfolio
