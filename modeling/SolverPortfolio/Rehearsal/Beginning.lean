import SolverPortfolio.Rehearsal.Turn

/-
# How programs begin

A program begins with frames of its own, and with variables that it gets from
the one who has begun it.

Main definitions: `Program.begin`, `Turn.become`, `beginShell`.
-/

namespace SolverPortfolio

/-! ## Shells -/

/-- The letters of the options in front of the arguments of a shell, and the arguments. -/
def shellOptions : List Octets → Octets × List Octets
  | ['-', '-'] :: rest => ([], rest)
  | ['-'] :: rest => ([], rest)
  | ('-' :: letters) :: rest =>
    let (more, rest) := shellOptions rest
    (letters ++ more, rest)
  | rest => ([], rest)

/-- The letters that a shell knows. -/
def knownShellOptions : Octets := "aCefimnpsuvxbcEIV".toList

/-- What a program does first, and what it remembers. -/
structure Beginning where
  frames : List Frame
  shell : Shell.State

/-- How a shell begins. -/
def beginShell (disk : Disk) (name : Octets) (arguments : List Octets) (start : Shell.State) :
    Beginning :=
  let (letters, rest) := shellOptions arguments
  let shell := { start with
    failureEnds := letters.contains 'e'
    unsetFails := letters.contains 'u'
    isTraced := letters.contains 'x' }
  let shown := Octets.toText name
  match letters.find? fun c => !knownShellOptions.contains c with
  | some c => ⟨[.refuse s!"{shown}: 0: Illegal option -{c}" 2], shell⟩
  | none =>
    if letters.contains 'c' then
      match rest with
      | [] => ⟨[.refuse s!"{shown}: 0: -c requires an argument" 2], shell⟩
      | text :: [] => ⟨[.read text 1 true], { shell with arguments := [] }⟩
      | text :: name :: arguments => ⟨[.read text 1 true], { shell with name, arguments }⟩
    else
      match letters.contains 's', rest with
      | true, arguments => ⟨[.readInput []], { shell with arguments }⟩
      | false, [] => ⟨[.readInput []], { shell with arguments := [] }⟩
      | false, file :: arguments =>
        match disk.read (Octets.toText file) with
        | .ok content =>
          ⟨[.read (Octets.ofBytes content) 1 false], { shell with name := file, arguments }⟩
        | .error _ =>
          let complaint := s!"{shown}: 0: cannot open {Octets.toText file}: No such file"
          ⟨[.refuse complaint 2], shell⟩

/-! ## All programs -/

/-- How a program begins. -/
def Program.begin (p : Program) (disk : Disk) (name : Octets) (arguments : List Octets)
    (environment : Environment) (id : ProcessId) (parent : Option ProcessId) :
    Beginning :=
  let start := (Shell.State.start name arguments environment id).assign "PPID".toList
    (Shell.State.ofNat (parent.getD 1))
  match p with
  | .script steps => ⟨steps.map .step, start⟩
  | .commands text => ⟨[.read (Octets.ofString text) 1 false], start⟩
  | .shell => beginShell disk name arguments start
  | .utility name => ⟨[.utility name], start⟩

/-- Makes the process go on as another program, which gets some variables. -/
def Turn.become (t : Turn) (environment : Environment) (command : List Octets) :
    Except SystemError Turn :=
  match command with
  | [] => .error .missing
  | name :: arguments =>
    match t.disk.program (Octets.toText name) with
    | .error e => .error e
    | .ok program =>
      let b := program.begin t.disk name arguments environment t.process.id t.process.parent
      .ok (t.update fun p => { p with
        frames := b.frames
        shell := b.shell
        line := 1
        wait := .nothing
        pending := [] })

end SolverPortfolio
