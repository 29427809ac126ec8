import SolverPortfolio.Rehearsal.Builtin
import SolverPortfolio.Shell.Reader

/-
# Running shell commands

A shell command is run by putting frames in front of those of its process. The
commands of a shell and compound commands run in the process itself; programs,
subshells, the stages of a pipeline and scripts whose output is wanted run in
children, except for a program that is the last thing the shell does.

Main definitions: `Turn.redirect`, `Turn.runSimple`, `Turn.run`.
-/

namespace SolverPortfolio

namespace Turn

open Shell (expandWords expandValue expandPattern)

/-! ## Redirections -/

/-- Why a command is not run. -/
inductive Trouble where
  /-- A stream cannot be redirected. -/
  | refused (message : String)
  /-- Words cannot be filled in, which ends the shell. -/
  | fatal (message : String)

/-- The words for a file that cannot be opened. -/
def openWords (e : SystemError) (missing : String) : String :=
  match e with
  | .missing => missing
  | .notDirectory => missing
  | e => e.words

/-- Connects a stream of the process with something. -/
def connect (t : Turn) (stream : Nat) (handle : Handle) : Turn :=
  t.update fun p => { p with handles := p.handles.set stream handle }

/-- Connects a stream with the end of a file. -/
def connectFile (t : Turn) (stream : Nat) (target : Octets) (emptied : Bool) :
    Except Trouble Turn :=
  match t.disk.openFile (Octets.toText target) emptied with
  | .ok (disk, some path) => .ok ((t.setDisk disk).connect stream (.file path))
  | .ok (disk, none) => .ok ((t.setDisk disk).connect stream .nothing)
  | .error e =>
    let words := openWords e "Directory nonexistent"
    .error (.refused s!"cannot create {Octets.toText target}: {words}")

/-- Connects a stream with a text to be read. -/
def connectText (t : Turn) (stream : Nat) (s : Octets) : Turn :=
  let (t, id) := t.newDocument s
  t.connect stream (.reader id)

/-- Applies a redirection. -/
def redirect (t : Turn) (r : Shell.Redirection) : Except Trouble Turn :=
  match t.expand (expandValue r.target) with
  | .error message => .error (.fatal message)
  | .ok (target, t) =>
    match r.kind with
    | .document => .ok (t.connectText r.stream target)
    | .write => t.connectFile r.stream target true
    | .append => t.connectFile r.stream target false
    | .read =>
      match t.disk.read (Octets.toText target) with
      | .ok content => .ok (t.connectText r.stream (Octets.ofBytes content))
      | .error .isDirectory => .ok (t.connectText r.stream [])
      | .error e =>
        let words := openWords e "No such file"
        .error (.refused s!"cannot open {Octets.toText target}: {words}")
    | .duplicate =>
      if target = ['-'] then .ok (t.connect r.stream .nothing)
      else
        match (Text.readDigits? 10 target).bind fun n => t.process.handles.lookup n with
        | some handle => .ok (t.connect r.stream handle)
        | none =>
          if target.all Text.isDigit then
            .error (.refused s!"{Octets.toText target}: Bad file descriptor")
          else .error (.fatal "Syntax error: Bad fd number")

/-- Applies redirections from left to right. -/
def redirectAll (t : Turn) : List Shell.Redirection → Except Trouble Turn
  | [] => .ok t
  | r :: rest =>
    match t.redirect r with
    | .ok t => t.redirectAll rest
    | .error e => .error e

/-- Complains about a command that is not run. -/
def giveUp (t : Turn) (isSpecial : Bool) : Trouble → Turn
  | .fatal message => t.fatal message
  | .refused message => if isSpecial then t.fatal message else t.fail 2 message

/-! ## Simple commands -/

/-- The frame that ends the shell after a failure, if that is wanted. -/
def checkFrames (t : Turn) (mode : RunMode) : List Frame :=
  if t.process.shell.failureEnds && !mode.isTested then [.check] else []

/-- The frame that undoes redirections, if there are any. -/
def giveBackFrames (t : Turn) (redirections : List Shell.Redirection) : List Frame :=
  if redirections.isEmpty then [] else [.giveBack t.process.handles]

/-- Sets variables to words, one after another. -/
def assignAll (t : Turn) : List (Octets × Shell.Word) → Except String Turn
  | [] => .ok t
  | (name, word) :: rest =>
    match t.expand (expandValue word) with
    | .ok (value, t) => (t.updateShell (·.assign name value)).assignAll rest
    | .error message => .error message

/-- The values of variables before they are set. -/
def valuesBefore (t : Turn) (assignments : List (Octets × Shell.Word)) :
    List (Octets × Option Octets) :=
  assignments.map fun a => (a.1, t.process.shell.bindings.lookup a.1)

/-- Waits for a child, whose exit code becomes that of the command. -/
def awaitChild (t : Turn) (child : ProcessId) (mode : RunMode) : Turn :=
  t.push (.await child true :: t.checkFrames mode)

/-- Runs a program with the variables that are set for it. The shell has the streams of the program
as long as it waits. -/
def runProgram (t : Turn) (mode : RunMode) (handles : Handles)
    (assignments : List (Octets × Shell.Word)) (command : List Octets) : Turn :=
  match t.assignAll assignments with
  | .error message => t.fatal message
  | .ok set =>
    let before : Environment := t.process.shell.environment
    let environment := assignments.foldl
      (fun e a => e.set a.1 ((set.process.shell.bindings.lookup a.1).getD [])) before
    let frame := Frame.become .command environment command
    if mode.isLast && t.process.shell.traps.isEmpty then
      t.update fun p => { p with frames := [frame] }
    else
      let (t, child) := t.fork [frame] t.process.handles
      let cleanUp := if t.process.handles = handles then [] else [Frame.giveBack handles]
      t.push (.await child true :: cleanUp ++ t.checkFrames mode)

/-- Runs a function. -/
def runFunction (t : Turn) (mode : RunMode) (cleanUp : List Frame) (body : Shell.Command)
    (arguments : List Octets) : Turn :=
  let leave := Frame.leave t.process.shell.arguments []
  (t.push ([.run body { mode with isLast := false }, leave] ++ cleanUp)).updateShell
    ({ · with arguments })

/-- Runs a command with a given name. -/
def runNamed (t : Turn) (mode : RunMode) (assignments : List (Octets × Shell.Word))
    (redirections : List Shell.Redirection) (name : Octets) (arguments : List Octets)
    (functions : List (Octets × Shell.Command)) : Turn :=
  let text := Octets.toText name
  let isSpecial := specialBuiltins.contains text
  let handles := t.process.handles
  let cleanUp := t.giveBackFrames redirections
  match t.redirectAll redirections with
  | .error e => (t.giveUp isSpecial e).push (t.checkFrames mode)
  | .ok t =>
    if text = "exec" then
      if arguments.isEmpty then t.done 0
      else t.update fun p =>
        { p with frames := [.become .exec p.shell.environment arguments] }
    else
      let unassign := if isSpecial || assignments.isEmpty then []
        else [Frame.unassign (t.valuesBefore assignments)]
      let after := unassign ++ cleanUp ++ t.checkFrames mode
      let assigned (f : Turn → Turn) : Turn :=
        match t.assignAll assignments with
        | .error message => t.fatal message
        | .ok t => f t
      match functions.lookup name with
      | some body => assigned fun t => t.runFunction mode after body arguments
      | none =>
        match builtin? text arguments with
        | some f => assigned fun t => f (t.push after)
        | none => t.runProgram mode handles assignments (name :: arguments)

/-- Shows a simple command before it is run, if that is wanted. -/
def trace (t : Turn) (assignments : List (Octets × Shell.Word)) (fields : List Octets) : Turn :=
  if !t.process.shell.isTraced then t
  else
    match t.assignAll assignments with
    | .error _ => t
    | .ok set =>
      let value := fun name => (set.process.shell.bindings.lookup name).getD []
      let settings := assignments.map fun a => a.1 ++ '=' :: value a.1
      let mark := (set.process.shell.bindings.lookup "PS4".toList).getD ['+', ' ']
      t.write 2 (mark ++ List.intercalate [' '] (settings ++ fields) ++ ['\n'])

/-- Runs a simple command. -/
def runSimple (t : Turn) (mode : RunMode) (line : Nat) (assignments : List (Octets × Shell.Word))
    (words : List Shell.Word) (redirections : List Shell.Redirection) : Turn :=
  let t := t.update fun p => { p with line }
  match t.expand (expandWords words) with
  | .error message => t.fatal message
  | .ok (fields, t) =>
    let status := t.process.shell.scriptStatus.getD 0
    let t := (t.updateShell ({ · with scriptStatus := none })).trace assignments fields
    if !t.process.isAlive then t
    else
      match fields with
      | name :: arguments =>
        match decide (name = "command".toList), arguments with
        | true, first :: rest =>
          if first.head? = some '-' then
            t.runNamed mode assignments redirections name arguments []
          else t.runNamed mode assignments redirections first rest []
        | _, _ =>
          t.runNamed mode assignments redirections name arguments t.process.shell.functions
      | [] =>
        let handles := t.process.handles
        match t.redirectAll redirections with
        | .error e => t.giveUp false e
        | .ok t =>
          let t := t.update fun p => { p with handles }
          match t.assignAll assignments with
          | .error message => t.fatal message
          | .ok t => (t.done status).push (t.checkFrames mode)

/-! ## Compound commands -/

/-- Begins the stages of a pipeline, whose input is given. -/
def forkStages (t : Turn) (input : Handle) : List Shell.Command → Turn × List ProcessId
  | [] => (t, [])
  | c :: rest =>
    let frames := [Frame.run c ⟨true, false⟩]
    let handles := t.process.handles.set 0 input
    match rest with
    | [] =>
      let (t, child) := t.fork frames handles
      (t, [child])
    | _ =>
      let (scene, pipe) := t.scene.newPipe [] false false
      let (t, child) := { t with scene }.fork frames (handles.set 1 (.writer pipe))
      let (t, children) := t.forkStages (.reader pipe) rest
      (t, child :: children)

/-- Runs a pipeline. -/
def runPipeline (t : Turn) (mode : RunMode) (negated : Bool) (stages : List Shell.Command) :
    Turn :=
  let negate := if negated then [Frame.negate] else []
  match stages with
  | [c] => t.push (.run c { isLast := false, isTested := true } :: negate)
  | _ =>
    let (t, children) := t.forkStages (t.process.handles.get 0) stages
    let last := children.length - 1
    let waits := children.zipIdx.map fun (child, i) => Frame.await child (i = last)
    t.push (waits ++ negate ++ t.checkFrames mode)

/-- Runs a command in a child. -/
def runSubshell (t : Turn) (mode : RunMode) (c : Shell.Command) : Turn :=
  if mode.isLast && t.process.shell.traps.isEmpty then t.push [.run c mode]
  else
    let (t, child) := t.fork [.run c { mode with isLast := true }] t.process.handles
    t.awaitChild child mode

/-- Runs a command in a child that does not mind being interrupted, and goes on. -/
def runBackground (t : Turn) (c : Shell.Command) : Turn :=
  let ignored := t.process.ignored
  let (t, child) := (t.update ({ · with ignored := Signal.interruptNumbers ++ ignored })).fork
    [.run c ⟨true, false⟩] (t.process.handles.set 0 .nothing)
  (t.update fun p =>
    { p with ignored, shell := { p.shell with background := some child } }).done 0

/-- The body of the first arm with a pattern that matches a text. -/
def findArm (t : Turn) (s : Octets) :
    List (List Shell.Word × Shell.Command) → Except String (Option Shell.Command × Turn)
  | [] => .ok (none, t)
  | (words, body) :: rest =>
    match t.expand (words.mapM expandPattern) with
    | .error message => .error message
    | .ok (patterns, t) =>
      if patterns.any (·.accepts s) then .ok (some body, t) else t.findArm s rest

/-- Begins a script whose output belongs into the words of a command. -/
def beginFill (t : Turn) (mode : RunMode) (c : Shell.Command) (script : Octets) : Turn :=
  let (scene, pipe) := t.scene.newPipe [] true false
  let t := { t with scene }
  let (t, child) := t.fork [.read script t.process.line true]
    (t.process.handles.set 1 (.writer pipe))
  t.push [.fill pipe child c mode]

/-- Runs a command whose words hold no scripts any more. -/
def runFilled (t : Turn) (mode : RunMode) : Shell.Command → Turn
  | .nothing => t
  | .simple line assignments words redirections =>
    t.runSimple mode line assignments words redirections
  | .redirected c redirections =>
    let cleanUp := t.giveBackFrames redirections
    match t.redirectAll redirections with
    | .error e => (t.giveUp false e).push (t.checkFrames mode)
    | .ok t => t.push (.run c { mode with isLast := false } :: cleanUp)
  | .pipeline negated stages => t.runPipeline mode negated stages
  | .both a b => t.push [.run a { isLast := false, isTested := true }, .next true b mode]
  | .either a b => t.push [.run a { isLast := false, isTested := true }, .next false b mode]
  | .sequence a b => t.push [.run a { mode with isLast := false }, .run b mode]
  | .background c => t.runBackground c
  | .subshell c => t.runSubshell mode c
  | .conditional test body other =>
    t.push [.run test { isLast := false, isTested := true }, .choose body other mode]
  | .loop untilSuccess test body =>
    t.push [.run test { isLast := false, isTested := true },
      .test untilSuccess test body 0 mode.isTested]
  | .each name words body =>
    match words with
    | none => (t.done 0).push [.each name t.process.shell.arguments body mode.isTested]
    | some words =>
      match t.expand (expandWords words) with
      | .error message => t.fatal message
      | .ok (values, t) => (t.done 0).push [.each name values body mode.isTested]
  | .choice word arms =>
    match t.expand (expandValue word) with
    | .error message => t.fatal message
    | .ok (s, t) =>
      match t.findArm s arms with
      | .error message => t.fatal message
      | .ok (none, t) => t.done 0
      | .ok (some body, t) => (t.done 0).push [.run body mode]
  | .definition name body =>
    (t.updateShell fun s =>
      { s with functions := (name, body) :: s.functions.filter fun f => f.1 ≠ name }).done 0

/-- Runs a command. -/
def run (t : Turn) (mode : RunMode) (c : Shell.Command) : Turn :=
  match c.script? with
  | some script => t.beginFill mode c script
  | none => t.runFilled mode c

end Turn

end SolverPortfolio
