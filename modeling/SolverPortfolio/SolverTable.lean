import SolverPortfolio.Json.Decode
import SolverPortfolio.Json.Reader

/-
# Solver tables

A solver is described by the commands that convert a model for it, run it and
filter its output, and by how a bound on the objective is written in its
language. A table lists solvers with distinct names; without a table of the
user's own, one for a MiniZinc installation is used.

Main definitions: `Solver`, `SolverTable`, `SolverTable.parse`,
`SolverTable.builtIn`.
-/

namespace SolverPortfolio

/-- A command before its placeholders are filled in: a program and its arguments. -/
abbrev CommandTemplate := List String

/-- How one solver is used. -/
structure Solver where
  name : String
  /-- Converts a model, and its data, to FlatZinc and an output specification. -/
  convert : CommandTemplate
  /-- Solves the converted model. -/
  run : CommandTemplate
  /-- Reads what the solver prints, and prints what counts as its output. -/
  output : Option CommandTemplate
  /-- The constraint that the objective lies below a bound. -/
  minimizeConstraint : String
  /-- The constraint that the objective lies above a bound. -/
  maximizeConstraint : String
  /-- The argument that asks for all solutions. -/
  allSolutionsFlag : String
  /-- The argument that leaves the search order to the solver. -/
  freeSearchFlag : String
  deriving Repr, DecidableEq

/-- The constraint used for minimization if a table gives none. -/
def defaultMinimizeConstraint : String := "constraint int_lt(\x7bobj\x7d, \x7bbound\x7d)"

/-- The constraint used for maximization if a table gives none. -/
def defaultMaximizeConstraint : String := "constraint int_lt(\x7bbound\x7d, \x7bobj\x7d)"

/-- Solvers with distinct names. -/
structure SolverTable where
  solvers : List Solver
  deriving Repr

/-- Why a text is no solver table. -/
inductive SolverTableError where
  | syntaxError
  | empty
  | duplicate (name : String)
  deriving Repr, DecidableEq

/-- The text shown for a text that is no solver table. -/
def SolverTableError.message : SolverTableError → String
  | .syntaxError => "failed to parse solver table"
  | .empty => "solver table is empty"
  | .duplicate name => s!"solver '{name}' appears twice in the solver table"

namespace Solver

/-- The fields of a solver, in the order in which an array gives them. -/
def fields : List (List String) :=
  [["name"], ["convert"], ["run"], ["output"], ["minimize_constraint"], ["maximize_constraint"],
    ["all_solutions_flag"], ["free_search_flag"]]

/-- Reads a text field that may be missing. -/
def textOr? (default : String) : Option Json → Option String
  | none => some default
  | some v => v.asText?

/-- Reads a command. -/
def command? (v : Json) : Option CommandTemplate := v.asList? Json.asText?

/-- Reads a solver: a record of which the name and the commands for converting and running are
required. -/
def ofJson? (v : Json) : Option Solver := do
  match ← v.asRecord? fields with
  | [name, convert, run, output, minimize, maximize, allSolutions, freeSearch] =>
    return {
      name := ← (← name).asText?
      convert := ← command? (← convert)
      run := ← command? (← run)
      output := ← match output with
        | none => some none
        | some v => v.asOption? command?
      minimizeConstraint := ← textOr? defaultMinimizeConstraint minimize
      maximizeConstraint := ← textOr? defaultMaximizeConstraint maximize
      allSolutionsFlag := ← textOr? "-a" allSolutions
      freeSearchFlag := ← textOr? "-f" freeSearch }
  | _ => none

end Solver

namespace SolverTable

/-- The first name that stands in a list for the second time. -/
def firstRepeated? : List String → List String → Option String
  | _, [] => none
  | seen, name :: rest =>
    if seen.contains name then some name else firstRepeated? (name :: seen) rest

/-- A table of at least one solver, with distinct names. -/
def ofSolvers (solvers : List Solver) : Except SolverTableError SolverTable :=
  if solvers.isEmpty then .error .empty
  else match firstRepeated? [] (solvers.map (·.name)) with
    | some name => .error (.duplicate name)
    | none => .ok ⟨solvers⟩

/-- Reads a solver table. -/
def parse (text : List Char) : Except SolverTableError SolverTable :=
  match (Json.read? text).bind fun v => v.asList? Solver.ofJson? with
  | none => .error .syntaxError
  | some solvers => ofSolvers solvers

/-- The solver with a given name. -/
def find? (table : SolverTable) (name : String) : Option Solver :=
  table.solvers.find? (·.name == name)

/-- Does the table have a solver with a given name? -/
def contains (table : SolverTable) (name : String) : Bool :=
  (table.find? name).isSome

/-- The names of all solvers, in the order of the table. -/
def names (table : SolverTable) : List String :=
  table.solvers.map (·.name)

/-! ## The table for MiniZinc -/

/-- The solver ids of the table for MiniZinc. -/
def builtInNames : List String :=
  ["chuffed", "gecode", "cp-sat", "coin-bc", "choco", "picat", "highs"]

/-- The solver that takes over leftover time if nothing else is chosen. -/
def preferredBackup : String := "chuffed"

/-- A solver driven by a MiniZinc executable. -/
def minizincSolver (executable id : String) : Solver :=
  { name := id
    convert := [executable, "-c", "--solver", id, "\x7bmodel\x7d", "\x7bdata\x7d", "-o",
      "\x7bfzn\x7d", "--ozn", "\x7bozn\x7d", "--output-objective", "--output-mode", "dzn"]
    run := [executable, "--solver", id, "\x7bfzn\x7d", "\x7ball\x7d", "\x7bfree\x7d", "-p",
      "\x7bcores\x7d"]
    output := some [executable, "--ozn-file", "\x7bozn\x7d"]
    minimizeConstraint := defaultMinimizeConstraint
    maximizeConstraint := defaultMaximizeConstraint
    allSolutionsFlag := "-a"
    freeSearchFlag := "-f" }

/-- The table for a MiniZinc executable. -/
def builtIn (executable : String) : SolverTable :=
  ⟨builtInNames.map (minizincSolver executable)⟩

/-! ## Where a table comes from -/

/-- A file as far as it can be read: its text, or nothing. -/
abbrev FileText := Option String

/-- Why no solver table could be loaded. -/
inductive LoadError where
  | unreadable
  | table (e : SolverTableError)
  deriving Repr, DecidableEq

/-- Loads the table of a file. -/
def ofFile : FileText → Except LoadError SolverTable
  | none => .error .unreadable
  | some text =>
    match parse text.toList with
    | .ok table => .ok table
    | .error e => .error (.table e)

/-- Loads a table: from the file the user names, else from the user's own table if there is one,
else the table for MiniZinc. -/
def load (named : Option FileText) (own : Option FileText) (executable : String) :
    Except LoadError SolverTable :=
  match named, own with
  | some file, _ => ofFile file
  | none, some file => ofFile file
  | none, none => .ok (builtIn executable)

end SolverTable

end SolverPortfolio
