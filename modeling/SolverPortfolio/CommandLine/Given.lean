import SolverPortfolio.CommandLine.Option

/-
# Reading a command line

An option with a value is written `--name value`, `--name=value`, `-n value`,
`-nvalue` or `-n=value`; short flags may be joined. After `--` all arguments are
operands. The value of an option is read when the next argument has been
recognized, so that an argument that is not known is reported before a bad value
in front of it.

Main definitions: `GivenArguments`, `GivenArguments.readArgument`.
-/

namespace SolverPortfolio

/-- What was begun and is not read yet. -/
inductive PendingValue where
  | option (o : ValueOption) (value : Option String)
  | operand (value : String)
  deriving Repr, DecidableEq

/-- What was read of a command line. -/
structure GivenArguments where
  values : List (ValueOption × OptionValue)
  flags : List FlagOption
  /-- The model, and the data file after it. -/
  operands : List String
  pending : Option PendingValue
  /-- Is the next argument a value, whatever it is? -/
  awaitsValue : Bool
  /-- Are all further arguments operands? -/
  onlyOperands : Bool

namespace GivenArguments

/-- Nothing. -/
def none : GivenArguments :=
  { values := [], flags := [], operands := [], pending := .none, awaitsValue := false,
    onlyOperands := false }

/-- The largest number of operands. -/
def maxOperands : Nat := 2

/-- Was an option given a value? -/
def hasValue (g : GivenArguments) (o : ValueOption) : Bool := (g.values.lookup o).isSome

/-- Gives an option its value; that may be done only once. -/
def setValue (g : GivenArguments) (o : ValueOption) (value : String) :
    Except UsageError GivenArguments :=
  if g.hasValue o then .error .argumentConflict
  else (o.kind.read value).map fun v => { g with values := (o, v) :: g.values }

/-- Reads what is pending. -/
def resolve (g : GivenArguments) : Except UsageError GivenArguments :=
  let rest := { g with pending := .none }
  match g.pending with
  | .none => .ok g
  | some (.option _ .none) => .error .invalidValue
  | some (.option o (some value)) => rest.setValue o value
  | some (.operand value) =>
    if value.isEmpty then .error .invalidValue
    else .ok { rest with operands := g.operands ++ [value] }

/-- Gives an option a value that is attached to it. -/
def attach (g : GivenArguments) (o : ValueOption) (value : String) :
    Except UsageError GivenArguments := do
  let g ← g.resolve
  { g with awaitsValue := false }.setValue o value

/-- Begins an option whose value follows. -/
def beginOption (g : GivenArguments) (o : ValueOption) : Except UsageError GivenArguments := do
  let g ← g.resolve
  return { g with pending := some (.option o .none), awaitsValue := true }

/-- Sets a flag; that may be done only once. -/
def setFlag (g : GivenArguments) (f : FlagOption) : Except UsageError GivenArguments := do
  let g ← g.resolve
  match f with
  | .help => .error .displayHelp
  | .version => .error .displayVersion
  | f =>
    if g.flags.contains f then .error .argumentConflict
    else return { g with flags := f :: g.flags, awaitsValue := false }

/-- The number of operands, with the one that is pending. -/
def operandCount (g : GivenArguments) : Nat :=
  match g.pending with
  | some (.operand _) => g.operands.length + 1
  | _ => g.operands.length

/-- Begins an operand. -/
def beginOperand (g : GivenArguments) (value : String) : Except UsageError GivenArguments :=
  if g.operandCount < maxOperands then do
    let g ← g.resolve
    return { g with pending := some (.operand value) }
  else .error .unknownArgument

/-- Reads a long option: its name, and the value attached to it. -/
def readLong (g : GivenArguments) (name : String) (value : Option String) :
    Except UsageError GivenArguments :=
  match OptionName.ofLong? name, value with
  | .none, _ => .error .unknownArgument
  | some (.value o), some value => g.attach o value
  | some (.value o), .none => g.beginOption o
  | some (.flag _), some _ => .error .tooManyValues
  | some (.flag f), .none => g.setFlag f

/-- Reads joined short options. What follows an option with a value is that value. -/
def readShorts (g : GivenArguments) : List Char → Except UsageError GivenArguments
  | [] => .ok g
  | c :: rest =>
    match OptionName.ofShort? c with
    | .none => .error .unknownArgument
    | some (.flag f) =>
      match g.setFlag f with
      | .error e => .error e
      | .ok g => readShorts g rest
    | some (.value o) =>
      match rest with
      | [] => g.beginOption o
      | '=' :: value => g.attach o (String.ofList value)
      | value => g.attach o (String.ofList value)

/-- Takes an argument as the value that is awaited. -/
def takeValue (g : GivenArguments) (value : String) : GivenArguments :=
  let pending := match g.pending with
    | some (.option o _) => some (.option o (some value))
    | pending => pending
  { g with pending, awaitsValue := false }

/-- Reads an argument that is no option. -/
def readPlain (g : GivenArguments) (argument : String) : Except UsageError GivenArguments :=
  if g.awaitsValue then .ok (g.takeValue argument) else g.beginOperand argument

/-- Reads an argument. -/
def readArgument (g : GivenArguments) (argument : String) : Except UsageError GivenArguments :=
  if g.onlyOperands then g.beginOperand argument
  else
    match argument.toList with
    | ['-', '-'] => .ok { g with onlyOperands := true }
    | '-' :: '-' :: rest =>
      match Text.cutAt '=' rest with
      | some (name, value) => g.readLong (String.ofList name) (some (String.ofList value))
      | .none => g.readLong (String.ofList rest) .none
    | '-' :: c :: rest => g.readShorts (c :: rest)
    | _ => g.readPlain argument

/-- The text given to an option. -/
def text? (g : GivenArguments) (o : ValueOption) : Option String :=
  match g.values.lookup o with
  | some (.text s) => some s
  | _ => .none

/-- The number given to an option. -/
def seconds? (g : GivenArguments) (o : ValueOption) : Option Float :=
  match g.values.lookup o with
  | some (.seconds x) => some x
  | _ => .none

/-- The whole number given to an option. -/
def count? (g : GivenArguments) (o : ValueOption) : Option Nat :=
  match g.values.lookup o with
  | some (.count n) => some n
  | _ => .none

/-- The goal given. -/
def goal? (g : GivenArguments) : Option Goal :=
  match g.values.lookup .goal with
  | some (.goal x) => some x
  | _ => .none

/-- The verbosity given. -/
def verbosity? (g : GivenArguments) : Option Verbosity :=
  match g.values.lookup .debugVerbosity with
  | some (.verbosity v) => some v
  | _ => .none

end GivenArguments

end SolverPortfolio
