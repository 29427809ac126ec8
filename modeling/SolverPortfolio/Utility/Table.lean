import SolverPortfolio.Number.Literal
import SolverPortfolio.Utility.CharacterMap
import SolverPortfolio.Utility.Condition
import SolverPortfolio.Utility.Editor
import SolverPortfolio.Utility.Files
import SolverPortfolio.Utility.Format
import SolverPortfolio.Utility.Search
import SolverPortfolio.Utility.Signal

/-
# The table of utilities

What the utilities do, by their names.

Main definitions: `Utility.names`, `Utility.deed`.
-/

namespace SolverPortfolio.Utility

/-! ## Complaints -/

/-- Points to the help of a utility. -/
def helpLine (name : String) : String := s!"Try '{name} --help' for more information."

/-- A failure that points to the help of a utility. -/
def misuse (name complaint : String) (status : Nat) : Deed :=
  .finish ⟨[], [s!"{name}: {complaint}", helpLine name], status⟩

/-- A utility with options that are letters without values. -/
def withOptions (name : String) (known : String) (arguments : List Octets)
    (f : List (Char × Octets) → List Octets → Deed) : Deed :=
  let (options, others) := splitOptions [] arguments
  match options.find? fun o => o.1 ≠ '-' && !known.toList.contains o.1 with
  | some (c, _) => misuse name s!"invalid option -- '{c}'" 1
  | none => f options others

/-! ## Writing -/

/-- Is this an option that tells how to write words? -/
def isEchoOption (a : Octets) : Bool :=
  match a with
  | '-' :: c :: rest => (c :: rest).all fun c => c = 'n' || c = 'e' || c = 'E'
  | _ => false

/-- Writes words. -/
def echo (arguments : List Octets) : Deed :=
  let letters := (arguments.takeWhile isEchoOption).flatMap (·.drop 1)
  let words := List.intercalate [' '] (arguments.dropWhile isEchoOption)
  let escapes := (letters.filter fun c => c = 'e' || c = 'E').getLast? = some 'e'
  let (output, stops) := if escapes then unescape ⟨true, true⟩ words else (words, false)
  .finish (.printing (if stops || letters.contains 'n' then output else output ++ ['\n']))

/-- Writes arguments as a format says. -/
def printf (arguments : List Octets) : Deed :=
  let arguments := if arguments.head? = some ['-', '-'] then arguments.drop 1 else arguments
  match arguments with
  | [] => misuse "printf" "missing operand" 1
  | format :: arguments =>
    let f := Format.run .full format arguments
    .finish ⟨f.output, f.complaints.map ("printf: " ++ ·), if f.complaints.isEmpty then 0 else 1⟩

/-- Writes what is read. -/
def cat (disk : Disk) (arguments : List Octets) : Deed :=
  withOptions "cat" "nuAbeEstTv" arguments fun options paths =>
    let counts := fun line => !hasOption options 'b' || line ≠ ['\n']
    let shown := fun s =>
      if hasOption options 'n' || hasOption options 'b' then Lines.numberLines counts [] s else s
    .filter (Filter.ofText ("cat: " ++ ·) disk paths fun s ended => Progress.atOnce (shown s) ended)

/-- Writes what is read to files, too. -/
def tee (disk : Disk) (arguments : List Octets) : Deed :=
  withOptions "tee" "aip" arguments fun options paths =>
    let (disk, opened, complaints) := paths.foldl
      (fun (disk, opened, complaints) path =>
        match disk.openFile (Octets.toText path) (!hasOption options 'a') with
        | .ok (disk, found) => (disk, opened ++ found.toList, complaints)
        | .error e =>
          (disk, opened, complaints ++ [s!"tee: {Octets.toText path}: {e.words}"]))
      ((disk, [], []) : Disk × List Path × List String)
    .share disk opened complaints

/-! ## Time and other programs -/

/-- The number of seconds that a letter stands for. -/
def timeUnits : List (Char × Nat) := [('s', 1), ('m', 60), ('h', 3600), ('d', 86400)]

/-- Reads a time interval, which may be endless. -/
def readInterval? (s : Octets) : Option (Option Duration) :=
  let unit := s.getLast?.bind fun c => timeUnits.lookup c
  match Number.readFloat (if unit.isSome then s.dropLast else s) with
  | .error _ => none
  | .ok x =>
    if x.isNaN || x < 0 then none
    else some ((Duration.ofSeconds? x).map fun d => d * unit.getD 1)

/-- Sleeps for the sum of some intervals. -/
def sleep (arguments : List Octets) : Deed :=
  match arguments.find? fun a => (readInterval? a).isNone with
  | some a => misuse "sleep" s!"invalid time interval '{Octets.toText a}'" 1
  | none =>
    match arguments.filterMap readInterval? with
    | [] => misuse "sleep" "missing operand" 1
    | intervals =>
      match intervals.foldr (fun d sum => do return (← d) + (← sum)) (some 0) with
      | some d => .sleep d
      | none => .sleepForever

/-- Sends signals. -/
def kill (arguments : List Octets) : Deed :=
  match Signal.readOrder? arguments with
  | none => .finish (.fail 1 "kill: unknown signal")
  | some (n, targets) =>
    match targets.find? fun t => (Text.readInt? 32 t).isNone with
    | some t => .finish (.fail 1 s!"kill: failed to parse argument: '{Octets.toText t}'")
    | none => .send n (targets.filterMap (Text.readInt? 32))

/-- Runs another program for a limited time. -/
def timeout (environment : Environment) (arguments : List Octets) : Deed :=
  let arguments := arguments.dropWhile fun a => a.head? = some '-'
  match arguments with
  | time :: command =>
    match readInterval? time, command with
    | _, [] => misuse "timeout" "missing operand" 125
    | none, _ => misuse "timeout" s!"invalid time interval '{Octets.toText time}'" 125
    | some none, _ => .become environment command
    | some (some d), _ => if d = 0 then .become environment command else .limit d command
  | [] => misuse "timeout" "missing operand" 125

/-- The variables that the options at the start of arguments leave, and the other arguments; or a
complaint about an option. -/
def leaveVariables (environment : Environment) :
    List Octets → Except String (Environment × List Octets)
  | ['-', '-'] :: rest => .ok (environment, rest)
  | ['-'] :: rest => .ok ([], rest)
  | ['-', 'i'] :: rest => leaveVariables [] rest
  | ['-', 'u'] :: name :: rest => leaveVariables (environment.filter (·.1 ≠ name)) rest
  | ('-' :: c :: _) :: _ => .error s!"invalid option -- '{c}'"
  | rest => .ok (environment, rest)

/-- Shows variables. -/
def showVariables (environment : Environment) : Deed :=
  .finish (.printing (Octets.unlines (environment.map fun v => v.1 ++ '=' :: v.2)))

/-- Runs another program with some variables set, or shows the variables. -/
def env (environment : Environment) (arguments : List Octets) : Deed :=
  match leaveVariables environment arguments with
  | .error complaint => misuse "env" complaint 125
  | .ok (environment, rest) =>
    let given := (rest.takeWhile (·.contains '=')).filterMap (Text.cutAt '=')
    let environment := given.foldl (fun e (name, value) => e.set name value) environment
    match rest.drop given.length with
    | [] => showVariables environment
    | command => .become environment command

/-- Shows the values of variables. -/
def printenv (environment : Environment) (names : List Octets) : Deed :=
  if names.isEmpty then showVariables environment
  else
    let found := names.filterMap fun name => environment.lookup name
    .finish ⟨Octets.unlines found, [], if found.length = names.length then 0 else 1⟩

/-! ## The table -/

/-- Tests a condition. -/
def test (name : String) (disk : Disk) (words : List Octets) : Deed :=
  let (status, complaint) := Condition.status ⟨disk, true⟩ words
  .finish ⟨[], complaint.toList.map (s!"{name}: " ++ ·), status⟩

/-- What a utility does. -/
def deed (name : String) (arguments : List Octets) (disk : Disk)
    (environment : Environment) : Deed :=
  match name with
  | "true" => .finish .silent
  | "false" => .finish ⟨[], [], 1⟩
  | "echo" => echo arguments
  | "printf" => printf arguments
  | "cat" => cat disk arguments
  | "tee" => tee disk arguments
  | "sleep" => sleep arguments
  | "kill" => kill arguments
  | "timeout" => timeout environment arguments
  | "env" => env environment arguments
  | "printenv" => printenv environment arguments
  | "nohup" => .become environment arguments
  | "setsid" => .become environment arguments
  | "nice" =>
    .become environment (if arguments.head? = some ['-', 'n'] then arguments.drop 2 else arguments)
  | "stdbuf" => .become environment (arguments.dropWhile fun a => a.head? = some '-')
  | "test" => test "test" disk arguments
  | "[" =>
    if arguments.getLast? = some [']'] then test "[" disk arguments.dropLast
    else .finish (.fail 2 "[: missing ']'")
  | "pwd" => .finish (.printing (Octets.ofString (Path.toText disk.directory) ++ ['\n']))
  | "cp" => withOptions "cp" "abdfHilLnpPrRsTuvx" arguments (Files.copy disk)
  | "mv" => withOptions "mv" "bfinTuv" arguments fun _ paths => Files.move disk paths
  | "rm" => withOptions "rm" "dfiIrRv" arguments (Files.remove disk)
  | "mkdir" => withOptions "mkdir" "pv" arguments (Files.makeDirectories disk)
  | "rmdir" => withOptions "rmdir" "pv" arguments fun _ paths => Files.removeDirectories disk paths
  | "touch" => withOptions "touch" "acm" arguments fun _ paths => Files.touch disk paths
  | "chmod" => .finish .silent
  | "basename" =>
    let name := Files.lastName (arguments.headD [])
    let ending := (arguments[1]?).getD []
    let name := if ending.isSuffixOf name && name ≠ ending then
        name.take (name.length - ending.length)
      else name
    if arguments.isEmpty then misuse "basename" "missing operand" 1
    else .finish (.printing (name ++ ['\n']))
  | "dirname" =>
    if arguments.isEmpty then misuse "dirname" "missing operand" 1
    else .finish (.printing (Octets.unlines (arguments.map Files.parent)))
  | "head" => Lines.head disk arguments
  | "tail" => Lines.tail disk arguments
  | "tac" => Lines.tac disk arguments
  | "rev" => Lines.rev disk arguments
  | "nl" => Lines.nl disk arguments
  | "cut" => Lines.cut disk arguments
  | "sort" => Lines.sort disk arguments
  | "uniq" => Lines.uniq disk arguments
  | "wc" => Lines.wc disk arguments
  | "seq" => Lines.seq arguments
  | "tr" => CharacterMap.tr disk arguments
  | "grep" => Search.grep .basic disk arguments
  | "egrep" => Search.grep .extended disk arguments
  | "fgrep" => Search.grep .fixed disk arguments
  | "sed" => Editor.sed disk arguments
  | _ => .finish (.fail 127 s!"{name}: not found")

/-- The names of the utilities. -/
def names : List String :=
  ["true", "false", "echo", "printf", "cat", "tee", "sleep", "kill", "timeout", "env", "printenv",
    "nohup", "setsid", "nice", "stdbuf", "test", "[", "pwd", "cp", "mv", "rm", "mkdir", "rmdir",
    "touch", "chmod", "basename", "dirname", "head", "tail", "tac", "rev", "nl", "cut", "sort",
    "uniq", "wc", "seq", "tr", "grep", "egrep", "fgrep", "sed"]

end SolverPortfolio.Utility
