import SolverPortfolio.Goal
import SolverPortfolio.Notice
import SolverPortfolio.Number.Literal
import SolverPortfolio.Text.Basic
import SolverPortfolio.Text.Integer

/-
# Options of the command line

The options, their long and short names, and what they accept as values.

Main definitions: `UsageError`, `ValueOption`, `FlagOption`, `OptionName`,
`ValueKind.read`.
-/

namespace SolverPortfolio

/-- Why there are no arguments to go on with. -/
inductive UsageError where
  | missingRequiredArgument
  | unknownArgument
  | valueValidation
  | invalidValue
  | argumentConflict
  | tooManyValues
  | displayHelp
  | displayVersion
  deriving Repr, DecidableEq

namespace UsageError

/-- The text shown when there are no arguments to go on with. -/
def message : UsageError → String
  | missingRequiredArgument => "a model, a knowledge base and limits are required"
  | unknownArgument => "unknown argument"
  | valueValidation => "bad number"
  | invalidValue => "bad value"
  | argumentConflict => "an option is given twice"
  | tooManyValues => "an option takes no value"
  | displayHelp => "usage: solver-portfolio MODEL [DATA] --kb FILE --lims FILE [options]"
  | displayVersion => "solver-portfolio"

/-- Is nothing wrong, but only information asked for? -/
def isInformation : UsageError → Bool
  | displayHelp => true
  | displayVersion => true
  | _ => false

end UsageError

/-! ## Options -/

/-- The options with a value. -/
inductive ValueOption where
  | kb
  | lims
  | features
  | extractor
  | goal
  | minizincExe
  | timeout
  | kbTimeout
  | neighbors
  | portfolio
  | backup
  | cores
  | minSize
  | staticSchedule
  | solvers
  | waitTime
  | restartTime
  | maxRestarts
  | memLimit
  | debugVerbosity
  deriving Repr, DecidableEq

/-- The options without a value. -/
inductive FlagOption where
  | noKbCheck
  | allSolutions
  | freeSearch
  | switchSearch
  | help
  | version
  deriving Repr, DecidableEq

/-- What is accepted as a value. -/
inductive ValueKind where
  | path
  | text
  /-- A finite number of at least zero. -/
  | seconds
  /-- A whole number of at most the given one, without a minus sign. -/
  | count (largest : Nat)
  /-- A 64-bit integer from zero to the given one. -/
  | boundedInteger (largest : Nat)
  | goal
  | verbosity
  deriving Repr, DecidableEq

/-- A value that was accepted. -/
inductive OptionValue where
  | text (s : String)
  | seconds (x : Float)
  | count (n : Nat)
  | goal (g : Goal)
  | verbosity (v : Verbosity)

namespace ValueOption

/-- What an option accepts as its value. -/
def kind : ValueOption → ValueKind
  | kb => .path
  | lims => .path
  | features => .path
  | extractor => .text
  | goal => .goal
  | minizincExe => .path
  | timeout => .seconds
  | kbTimeout => .seconds
  | neighbors => .count (Nat.pow 2 64 - 1)
  | portfolio => .text
  | backup => .text
  | cores => .count (Nat.pow 2 64 - 1)
  | minSize => .count (Nat.pow 2 64 - 1)
  | staticSchedule => .path
  | solvers => .path
  | waitTime => .seconds
  | restartTime => .seconds
  | maxRestarts => .boundedInteger (Nat.pow 2 32 - 1)
  | memLimit => .seconds
  | debugVerbosity => .verbosity

/-- The long names. -/
def longNames : List (String × ValueOption) :=
  [("kb", kb), ("lims", lims), ("features", features), ("extractor", extractor), ("goal", goal),
    ("minizinc-exe", minizincExe), ("timeout", timeout), ("kb-timeout", kbTimeout),
    ("portfolio", portfolio), ("backup", backup), ("cores", cores), ("min-size", minSize),
    ("static-schedule", staticSchedule), ("solvers", solvers), ("wait-time", waitTime),
    ("restart-time", restartTime), ("max-restarts", maxRestarts), ("mem-limit", memLimit),
    ("debug-verbosity", debugVerbosity)]

/-- The short names. -/
def shortNames : List (Char × ValueOption) :=
  [('T', timeout), ('k', neighbors), ('P', portfolio), ('b', backup), ('p', cores),
    ('s', staticSchedule)]

end ValueOption

namespace FlagOption

/-- The long names. -/
def longNames : List (String × FlagOption) :=
  [("no-kb-check", noKbCheck), ("all-solutions", allSolutions), ("free-search", freeSearch),
    ("switch-search", switchSearch), ("help", help), ("version", version)]

/-- The short names. -/
def shortNames : List (Char × FlagOption) :=
  [('a', allSolutions), ('f', freeSearch), ('h', help), ('V', version)]

end FlagOption

/-- An option. -/
inductive OptionName where
  | value (o : ValueOption)
  | flag (f : FlagOption)
  deriving Repr, DecidableEq

namespace OptionName

/-- The option with a long name. -/
def ofLong? (name : String) : Option OptionName :=
  (ValueOption.longNames.lookup name).map value <|> (FlagOption.longNames.lookup name).map flag

/-- The option with a short name. -/
def ofShort? (name : Char) : Option OptionName :=
  (ValueOption.shortNames.lookup name).map value <|> (FlagOption.shortNames.lookup name).map flag

end OptionName

/-! ## Values -/

/-- Reads a finite number of at least zero, with white space around it. -/
def readNonNegative? (s : String) : Option Float :=
  match Number.readFloat (Text.trim s.toList) with
  | .ok x => if x.isFinite && !decide (x < 0) then some x else none
  | .error _ => none

/-- Reads a 64-bit integer from zero to the given one. -/
def readBounded? (largest : Nat) (s : String) : Option Nat :=
  match Text.readInt? 64 s.toList with
  | some n => if 0 ≤ n ∧ n ≤ largest then some n.toNat else none
  | none => none

/-- The words for verbosities. -/
def Verbosity.names : List (String × Verbosity) :=
  [("quiet", .quiet), ("error", .error), ("warning", .warning), ("info", .info)]

/-- Turns a reading that may fail into one that names the failure. -/
def orUsageError {α : Type} (e : UsageError) : Option α → Except UsageError α
  | some x => .ok x
  | none => .error e

/-- Reads a value. -/
def ValueKind.read (kind : ValueKind) (s : String) : Except UsageError OptionValue :=
  match kind with
  | path => if s.isEmpty then .error .invalidValue else .ok (.text s)
  | text => .ok (.text s)
  | seconds => (orUsageError .valueValidation (readNonNegative? s)).map .seconds
  | count largest =>
    (orUsageError .valueValidation (Text.readNat? largest s.toList)).map .count
  | boundedInteger largest =>
    (orUsageError .valueValidation (readBounded? largest s)).map .count
  | goal =>
    let word := String.ofList (s.toList.map Char.toLower)
    (orUsageError .invalidValue (Goal.shortNames.lookup word)).map .goal
  | verbosity => (orUsageError .invalidValue (Verbosity.names.lookup s)).map .verbosity

end SolverPortfolio
