import SolverPortfolio.Rehearsal.Beginning
import SolverPortfolio.Utility.Table

/-
# The shell's own commands

Commands that the shell carries out itself, because they change what it
remembers or which frames are left.

Main definitions: `Turn.leaveLoops`, `Turn.leaveFunction`, `Turn.builtin?`.
-/

namespace SolverPortfolio

namespace Turn

/-! ## Leaving loops and functions -/

/-- Does a frame belong to a loop? -/
def isLoopFrame : Frame → Bool
  | .test .. => true
  | .again .. => true
  | .each .. => true
  | _ => false

/-- Is a frame the end of a function? -/
def isLeaveFrame : Frame → Bool
  | .leave .. => true
  | _ => false

/-- The number of loops around, within the function. -/
def loopDepth (t : Turn) : Nat :=
  ((t.process.frames.takeWhile fun f => !isLeaveFrame f).filter isLoopFrame).length

/-- The frame with which a loop goes on. -/
def loopAgain : Frame → Frame
  | .test untilSuccess test body _ isTested => .again untilSuccess test body isTested
  | f => f

/-- Gives variables back the values that they had before. -/
def restoreVariables (t : Turn) (values : List (Octets × Option Octets)) : Turn :=
  t.updateShell fun s => values.foldl (fun s (name, value) => s.restore name value) s

/-- Undoes what a frame that is left out was there to undo. -/
def undo (t : Turn) : Frame → Turn
  | .giveBack handles => t.update fun p => { p with handles }
  | .unassign values => t.restoreVariables values
  | .leave arguments values => (t.restoreVariables values).updateShell ({ · with arguments })
  | _ => t

/-- Leaves out frames up to those of so many loops; the last one may go on. -/
def leaveLoopsFrom (goesOn : Bool) : Nat → List Frame → Turn → Turn
  | _, [], t => t.update fun p => { p with frames := [] }
  | n, f :: rest, t =>
    if isLoopFrame f then
      if n ≤ 1 then
        t.update fun p => { p with frames := if goesOn then loopAgain f :: rest else rest }
      else leaveLoopsFrom goesOn (n - 1) rest t
    else leaveLoopsFrom goesOn n rest (t.undo f)

/-- Leaves so many loops, or goes on with the last of them. -/
def leaveLoops (t : Turn) (goesOn : Bool) (n : Nat) : Turn :=
  let n := min n t.loopDepth
  if n = 0 then t else leaveLoopsFrom goesOn n t.process.frames t

/-- Leaves out frames up to the end of the function. -/
def leaveFunctionFrom : List Frame → Turn → Turn
  | [], t => t.update fun p => { p with frames := [] }
  | f :: rest, t =>
    if isLeaveFrame f then t.update fun p => { p with frames := f :: rest }
    else leaveFunctionFrom rest (t.undo f)

/-- Leaves the function, or the script if there is none. -/
def leaveFunction (t : Turn) : Turn := leaveFunctionFrom t.process.frames t

/-- Remembers the value of a variable, to be given back at the end of the function. -/
def keepLocal (t : Turn) (name : Octets) : Turn :=
  let value := t.process.shell.bindings.lookup name
  let rec keep : List Frame → List Frame
    | [] => []
    | .leave arguments values :: rest => .leave arguments ((name, value) :: values) :: rest
    | f :: rest => f :: keep rest
  t.update fun p => { p with frames := keep p.frames }

/-! ## Writing -/

/-- Writes words. -/
def echoWords (t : Turn) (arguments : List Octets) : Turn :=
  let isBare := arguments.head? = some ['-', 'n']
  let words := if isBare then arguments.drop 1 else arguments
  let (output, stops) := unescape ⟨false, true⟩ (List.intercalate [' '] words)
  (t.write 1 (if isBare || stops then output else output ++ ['\n'])).done 0

/-- Writes arguments as a format says. -/
def printArguments (t : Turn) (arguments : List Octets) : Turn :=
  let option := match arguments with
    | ('-' :: c :: _) :: _ => if c = '-' then none else some c
    | _ => none
  let arguments := if arguments.head? = some ['-', '-'] then arguments.drop 1 else arguments
  match option, arguments with
  | some c, _ => t.fail 2 s!"printf: Illegal option -{c}"
  | none, [] => t.fail 2 "printf: usage: printf format [arg ...]"
  | none, format :: arguments =>
    let f := Format.run .plain format arguments
    let t := f.complaints.foldl (fun t c => t.complainAs s!"printf: {c}") t
    (t.write 1 f.output).done f.status

/-! ## Variables -/

/-- Cuts an argument into a name and a value. -/
def cutAssignment (a : Octets) : Octets × Option Octets :=
  match Text.cutAt '=' a with
  | some (name, value) => (name, some value)
  | none => (a, none)

/-- Sets variables, and does something with their names. -/
def declare (t : Turn) (arguments : List Octets) (f : Turn → Octets → Turn) : Turn :=
  (arguments.foldl
    (fun t a =>
      let (name, value) := cutAssignment a
      let t := f t name
      match value with
      | some value => t.updateShell (·.assign name value)
      | none => t)
    t).done 0

/-- The long names of options, and their letters. -/
def optionNames : List (String × Char) :=
  [("errexit", 'e'), ("noglob", 'f'), ("ignoreeof", 'I'), ("interactive", 'i'), ("monitor", 'm'),
    ("noexec", 'n'), ("stdin", 's'), ("xtrace", 'x'), ("verbose", 'v'), ("vi", 'V'),
    ("emacs", 'E'), ("noclobber", 'C'), ("allexport", 'a'), ("notify", 'b'), ("nounset", 'u')]

/-- Switches options on or off. -/
def switchOptions (t : Turn) (on : Bool) (letters : Octets) : Turn :=
  t.updateShell fun s => { s with
    failureEnds := if letters.contains 'e' then on else s.failureEnds
    unsetFails := if letters.contains 'u' then on else s.unsetFails
    isTraced := if letters.contains 'x' then on else s.isTraced }

/-- Sets options and arguments of the shell. The name of an option may be awaited, to be switched on
or off. -/
def setOptions (t : Turn) (awaited : Option Bool) : List Octets → Turn
  | [] => t.done 0
  | a :: rest =>
    match awaited, a with
    | some on, name =>
      match optionNames.lookup (Octets.toText name) with
      | some letter => setOptions (t.switchOptions on [letter]) none rest
      | none => t.fatal s!"set: Illegal option -o {Octets.toText name}"
    | none, ['-', '-'] => (t.updateShell ({ · with arguments := rest })).done 0
    | none, ['-'] =>
      let t := (t.switchOptions false ['x']).done 0
      if rest.isEmpty then t else t.updateShell ({ · with arguments := rest })
    | none, sign :: letters =>
      if (sign = '-' || sign = '+') && !letters.isEmpty then
        let on := decide (sign = '-')
        let unknown := letters.find? fun c => c ≠ 'o' && !(optionNames.any (·.2 = c))
        match unknown with
        | some c => t.fatal s!"set: Illegal option -{c}"
        | none =>
          setOptions (t.switchOptions on letters) (if letters.contains 'o' then some on else none)
            rest
      else (t.updateShell ({ · with arguments := a :: rest })).done 0
    | none, [] => (t.updateShell ({ · with arguments := a :: rest })).done 0

/-! ## Signals and children -/

/-- The number of a signal in the words of `trap`, where zero is the end of the shell. -/
def trapNumber? (s : Octets) : Option Nat :=
  if s = "EXIT".toList then some 0 else Signal.number? s

/-- Says what is done when a signal comes. -/
def setTrap (action : Option Octets) (t : Turn) (signal : Octets) : Turn :=
  match trapNumber? signal with
  | none => (t.complain s!"trap: {Octets.toText signal}: bad trap").done 1
  | some n =>
    t.update fun p =>
      let others := p.shell.traps.filter (·.1 ≠ n)
      let kept := p.ignored.filter (· ≠ n)
      match action with
      | none => { p with shell := { p.shell with traps := others }, ignored := kept }
      | some [] => { p with shell := { p.shell with traps := others }, ignored := n :: kept }
      | some script =>
        { p with shell := { p.shell with traps := (n, script) :: others }, ignored := kept }

/-- Says what is done when signals come. -/
def trap (t : Turn) (arguments : List Octets) : Turn :=
  let arguments := if arguments.head? = some ['-', '-'] then arguments.drop 1 else arguments
  match arguments with
  | [] => t.done 0
  | [signal] => setTrap none (t.done 0) signal
  | action :: signals =>
    let isNumber := (Text.readDigits? Signal.greatest action).isSome
    if isNumber then arguments.foldl (setTrap none) (t.done 0)
    else
      signals.foldl (setTrap (if action = ['-'] then none else some action)) (t.done 0)

/-- Sends signals. -/
def sendSignals (t : Turn) (arguments : List Octets) : Turn :=
  match Signal.readOrder? arguments with
  | none =>
    t.fail 2 s!"kill: Illegal option -{Octets.toText (((arguments.headD []).drop 1).take 1)}"
  | some (_, []) =>
    let usage := "kill [-s sigspec | -signum | -sigspec] [pid | job]... or\nkill -l [exitstatus]"
    t.fail 2 s!"kill: Usage: {usage}"
  | some (n, targets) =>
    match targets.find? fun a => (Text.readInt? 32 a).isNone with
    | some a => t.fail 2 s!"kill: Illegal number: {Octets.toText a}"
    | none =>
      let (t, found) := t.sendAll n (targets.filterMap (Text.readInt? 32))
      if found then t.done 0 else t.fail 1 "kill: No such process\n"

/-- Waits for children. -/
def waitForChildren (t : Turn) (arguments : List Octets) : Turn :=
  match arguments with
  | [] =>
    let children := t.processes.filter fun p => p.parent = some t.process.id
    (t.done 0).push (children.map (fun p => Frame.job p.id false) ++ [.status 0])
  | _ =>
    let jobs := arguments.map fun a =>
      let id := (Text.readDigits? (Nat.pow 2 31) a).getD 0
      if t.processes.any fun p => p.id = id && p.parent = some t.process.id then
          Frame.job id true
      else .status 127
    t.push jobs

/-! ## Files -/

/-- Goes to a directory. -/
def changeDirectory (t : Turn) (arguments : List Octets) : Turn :=
  let target := arguments.headD ((t.process.shell.value? "HOME".toList).getD ['/'])
  match t.disk.locate (Octets.toText target) with
  | .ok (.found path .directory) =>
    ((t.update fun p => { p with directory := path }).updateShell
      (·.assign "PWD".toList (Octets.ofString (Path.toText path)))).done 0
  | _ => t.fail 2 s!"cd: can't cd to {Octets.toText target}"

/-- Reads a script from a file. -/
def source (t : Turn) (arguments : List Octets) : Turn :=
  match arguments with
  | [] => t.fatal ".: filename argument required"
  | file :: _ =>
    match t.disk.read (Octets.toText file) with
    | .ok content => (t.done 0).push [.read (Octets.ofBytes content) 1 false]
    | .error _ =>
      if file.contains '/' then t.fatal s!".: cannot open {Octets.toText file}: No such file"
      else t.fatal s!".: {Octets.toText file}: not found"

/-! ## The table -/

/-- The commands whose failures end the shell. -/
def specialBuiltins : List String :=
  [":", "break", "continue", "return", "exit", ".", "eval", "exec", "export", "readonly", "set",
    "shift", "trap", "unset"]

/-- A number among arguments, or another one if there is none. -/
def numberOr (t : Turn) (name : String) (default : Nat) (arguments : List Octets)
    (f : Turn → Nat → Turn) : Turn :=
  match arguments with
  | [] => f t default
  | a :: _ =>
    match Text.readDigits? (Nat.pow 2 31) a with
    | some n => f t n
    | none => t.fatal s!"{name}: Illegal number: {Octets.toText a}"

/-- Tests a condition. -/
def testCondition (t : Turn) (name : String) (words : List Octets) : Turn :=
  let (status, complaint) := Condition.status ⟨t.disk, false⟩ words
  match complaint with
  | some c => t.fail status s!"{name}: {c}"
  | none => t.done status

/-- Says where a command is found. -/
def describe (t : Turn) (builtins : List String) (name : Octets) : Turn :=
  let text := Octets.toText name
  let place := (Disk.programDirectories.map fun path => path ++ [text]).find? fun path =>
    (t.scene.disk.node? path).isSome
  if builtins.contains text || (t.process.shell.functions.lookup name).isSome then
    (t.write 1 (name ++ ['\n'])).done 0
  else
    match place with
    | some path => (t.write 1 (Octets.ofString (Path.toText path ++ "\n"))).done 0
    | none => t.done 127

/-- The names of the shell's own commands. -/
def builtinNames : List String :=
  specialBuiltins ++ ["true", "false", "echo", "printf", "test", "[", "read", "cd", "pwd", "wait",
    "kill", "local", "umask", "command"]

/-- Carries out one of the shell's own commands. -/
def builtin? (name : String) (arguments : List Octets) : Option (Turn → Turn) :=
  match name with
  | ":" => some (·.done 0)
  | "true" => some (·.done 0)
  | "false" => some (·.done 1)
  | "umask" => some (·.done 0)
  | "echo" => some (·.echoWords arguments)
  | "printf" => some (·.printArguments arguments)
  | "test" => some (·.testCondition "test" arguments)
  | "[" => some fun t =>
    if arguments.getLast? = some [']'] then t.testCondition "[" arguments.dropLast
    else t.fail 2 "[: missing ]"
  | "exit" => some fun t => t.numberOr "exit" t.status arguments exit
  | "return" => some fun t =>
    t.numberOr "return" t.status arguments fun t n => (t.done n).leaveFunction
  | "break" => some fun t =>
    t.numberOr "break" 1 arguments fun t n => (t.done 0).leaveLoops false n
  | "continue" => some fun t =>
    t.numberOr "continue" 1 arguments fun t n => (t.done 0).leaveLoops true n
  | "shift" => some fun t =>
    t.numberOr "shift" 1 arguments fun t n =>
      let given := t.process.shell.arguments
      if given.length < n then t.fatal "shift: can't shift that many"
      else (t.updateShell ({ · with arguments := given.drop n })).done 0
  | "set" => some (·.setOptions none arguments)
  | "export" => some (·.declare arguments fun t name => t.updateShell (·.share name))
  | "readonly" => some (·.declare arguments fun t _ => t)
  | "local" => some (·.declare arguments keepLocal)
  | "unset" => some fun t =>
    let names := arguments.filter fun a => a.head? ≠ some '-'
    (t.updateShell fun s => names.foldl
      (fun s name =>
        if arguments.contains ['-', 'f'] then
          { s with functions := s.functions.filter (·.1 ≠ name) }
        else s.unset name)
      s).done 0
  | "eval" => some fun t =>
    (t.done 0).push [.read (List.intercalate [' '] arguments) t.process.line false]
  | "." => some (·.source arguments)
  | "read" => some fun t =>
    let isRaw := arguments.contains ['-', 'r']
    let names := arguments.filter fun a => a.head? ≠ some '-'
    if names.isEmpty then t.fail 2 "read: arg count" else t.push [.readLine names isRaw []]
  | "cd" => some (·.changeDirectory arguments)
  | "pwd" => some fun t =>
    (t.write 1 (Octets.ofString (Path.toText t.process.directory ++ "\n"))).done 0
  | "trap" => some (·.trap arguments)
  | "kill" => some (·.sendSignals arguments)
  | "wait" => some (·.waitForChildren arguments)
  | "command" =>
    match arguments with
    | ['-', 'v'] :: name :: _ => some (·.describe builtinNames name)
    | [] => some (·.done 0)
    | _ => none
  | _ => none

end Turn

end SolverPortfolio
