import SolverPortfolio.Shell.Part

/-
# The state of a shell

What a shell remembers between commands: its arguments, variables, functions and
traps, and how the last command ended.

Main definitions: `Shell.State`, `Shell.State.value?`, `Shell.State.assign`.
-/

namespace SolverPortfolio.Shell

/-- What a shell remembers. -/
structure State where
  /-- The name of the shell or of its script. -/
  name : Octets
  arguments : List Octets
  bindings : List (Octets × Octets)
  /-- The variables that other programs get. -/
  exported : List Octets
  functions : List (Octets × Command)
  /-- The scripts that are run at the end, under the number zero, and when a signal comes. -/
  traps : List (Nat × Octets)
  /-- The exit code of the last command. -/
  status : Nat
  /-- The exit code of the last script that was run for what it prints, if that was part of the
  command being run. -/
  scriptStatus : Option Nat
  process : Nat
  /-- The last process begun in the background. -/
  background : Option Nat
  /-- Is it a failure to use a variable that is not set? -/
  unsetFails : Bool
  /-- Does a failure end the shell? -/
  failureEnds : Bool
  /-- Are commands shown before they are run? -/
  isTraced : Bool

namespace State

/-- A shell that has run nothing. -/
def start (name : Octets) (arguments : List Octets) (bindings : List (Octets × Octets))
    (process : Nat) : State :=
  { name, arguments, bindings
    exported := bindings.map (·.1)
    functions := []
    traps := []
    status := 0
    scriptStatus := none
    process
    background := none
    unsetFails := false
    failureEnds := false
    isTraced := false }

/-- A number as octets. -/
def ofNat (n : Nat) : Octets := Nat.toDigits 10 n

/-- The options that are set, as letters. -/
def options (s : State) : Octets :=
  (if s.unsetFails then ['u'] else []) ++ (if s.isTraced then ['x'] else []) ++
    (if s.failureEnds then ['e'] else [])

/-- The separators of fields. -/
def separators (s : State) : Octets := (s.bindings.lookup "IFS".toList).getD [' ', '\t', '\n']

/-- The value of a parameter that has one value, if it is set. -/
def value? (s : State) (name : Octets) : Option Octets :=
  match name with
  | ['?'] => some (ofNat s.status)
  | ['$'] => some (ofNat s.process)
  | ['#'] => some (ofNat s.arguments.length)
  | ['-'] => some s.options
  | ['!'] => s.background.map ofNat
  | ['0'] => some s.name
  | _ =>
    match Text.readDigits? (Nat.pow 2 31) name with
    | some n => if n = 0 then some s.name else s.arguments[n - 1]?
    | none => s.bindings.lookup name

/-- Sets a variable. -/
def assign (s : State) (name value : Octets) : State :=
  { s with bindings := (name, value) :: s.bindings.filter fun v => v.1 ≠ name }

/-- Forgets a variable. -/
def unset (s : State) (name : Octets) : State :=
  { s with
    bindings := s.bindings.filter fun v => v.1 ≠ name
    exported := s.exported.filter (· ≠ name) }

/-- Sets a variable, or forgets it. -/
def restore (s : State) (name : Octets) : Option Octets → State
  | some value => s.assign name value
  | none => { s with bindings := s.bindings.filter fun v => v.1 ≠ name }

/-- Gives a variable to other programs. -/
def share (s : State) (name : Octets) : State :=
  if s.exported.contains name then s else { s with exported := s.exported ++ [name] }

/-- Sets the exit code of the last command. -/
def done (s : State) (status : Nat) : State := { s with status }

/-- The variables that other programs get. -/
def environment (s : State) : List (Octets × Octets) :=
  s.bindings.filter fun v => s.exported.contains v.1

/-- A variable that was set has its value. -/
theorem lookup_assign (s : State) (name value : Octets) :
    (s.assign name value).bindings.lookup name = some value := by
  simp [assign]

end State

end SolverPortfolio.Shell
