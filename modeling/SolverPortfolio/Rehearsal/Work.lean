import SolverPortfolio.Rehearsal.Execution

/-
# Work

A turn does what the first frame of its process says, which may leave other
frames or make the process wait. A process without frames ends.

Main definitions: `Turn.step`, `Turn.carryOut`, `Turn.work`, `Turn.act`.
-/

namespace SolverPortfolio

namespace Turn

/-! ## Steps of scripted solvers -/

/-- Copies the converted model to the output, unless nobody reads it any more. -/
def printModel (t : Turn) : Turn :=
  match t.process.shell.arguments.head?.bind fun path =>
      (t.disk.read (Octets.toText path)).toOption with
  | none => t
  | some content =>
    match t.process.handles.get 1 with
    | .writer id =>
      if ((t.scene.pipe? id).map fun pipe => pipe.hasReader t.processes).getD false then
        t.write 1 (Octets.ofBytes content)
      else t
    | _ => t.write 1 (Octets.ofBytes content)

/-- Takes a step of a script. -/
def step (t : Turn) : ScriptStep → Turn
  | .print text => t.write 1 (Octets.ofString (text ++ "\n"))
  | .printModel => t.printModel
  | .printArguments => t.write 1 (Octets.unlines (t.process.shell.arguments.drop 1))
  | .whenArgument word steps =>
    if (t.process.shell.arguments.drop 1).contains (Octets.ofString word) then
      t.push (steps.map Frame.step)
    else t
  | .exit code => t.finish (.exited (exitCode code))
  | .crash => t.finish (.signalled ExitStatus.killNumber)
  | .hang => t.waitFor .forever
  | .stubborn =>
    (t.update fun p => { p with ignored := ExitStatus.endNumber :: p.ignored }).waitFor .forever
  | .mark name => { t with scene := { t.scene with marks := name :: t.scene.marks } }
  | .await name => t.waitFor (.mark name)
  | .complain text => (t.complain text).sleep scriptMoment
  | .send signal =>
    { t with scene := { t.scene with signals := t.scene.signals ++ [signal.runSignal] } }

/-! ## Utilities -/

/-- Writes what a program has to say, and ends it. -/
def conclude (t : Turn) (e : Ending) : Turn :=
  let t := (e.complaints.foldl complain t).write 1 e.output
  if t.process.isAlive then t.finish (.exited e.status) else t

/-- Goes on as another program, or complains and ends. -/
def becomeOr (t : Turn) (caller : Caller) (environment : Environment)
    (command : List Octets) : Turn :=
  match t.become environment command with
  | .ok t => t
  | .error e =>
    let shown := Octets.toText (command.headD [])
    let status := match e with
      | .forbidden => 126
      | .isDirectory => 126
      | _ => 127
    let words := openWords e "not found"
    let words := if shown.isEmpty then SystemError.forbidden.words else words
    let t := match caller with
      | .command => t.complainAs s!"{shown}: {words}"
      | .exec => t.complainAs s!"exec: {shown}: {words}"
      | .utility name => t.complain s!"{name}: '{shown}': {e.words}"
    if t.process.isAlive then t.finish (.exited status) else t

/-- Does what a utility does. -/
def carryOut (t : Turn) (name : String) (deed : Deed) : Turn :=
  match deed with
  | .finish e => t.conclude e
  | .change disk e => (t.setDisk disk).conclude e
  | .filter f => (f.complaints.foldl complain t).push [.filter f [] 0]
  | .share disk paths complaints =>
    (complaints.foldl complain (t.setDisk disk)).push
      [.share paths (if complaints.isEmpty then 0 else 1)]
  | .sleep d => t.sleep d
  | .sleepForever => t.waitFor .forever
  | .send signal targets =>
    let (t, found) := t.sendAll signal targets
    if !t.process.isAlive then t
    else if found then t.conclude .silent
    else
      let shown := Text.joinWith " " (targets.map toString)
      t.conclude (.fail 1 s!"kill: ({shown}): No such process")
  | .become environment command => t.becomeOr (.utility name) environment command
  | .limit d command =>
    let frame := Frame.become (.utility name) t.process.shell.environment command
    let (t, child) := t.fork [frame] t.process.handles
    (t.push [.limit child false]).waitFor (.childUntil child (t.scene.now + d))

/-- Goes on with a filter. -/
def runFilter (t : Turn) (f : Filter) (input : Octets) (written : Nat) : Turn :=
  let (t, more, ended) := if f.takesInput then t.takeInput else (t, [], true)
  let input := input ++ more
  let p := f.progress input ended
  let t := t.write 1 (p.output.drop written)
  if !t.process.isAlive then t
  else
    match p.status with
    | some status => t.finish (.exited status)
    | none =>
      if ended then t.finish (.exited f.status)
      else (t.push [.filter f input (max written p.output.length)]).waitForInput

/-- Passes on what can be read. -/
def passOn (t : Turn) (paths : List Path) (status : Nat) : Turn :=
  let (t, more, ended) := t.takeInput
  let bytes := Octets.toBytes more
  let disk := paths.foldl (fun disk path => disk.append path bytes) t.scene.disk
  let t := { t with scene := { t.scene with disk } }.write 1 more
  if !t.process.isAlive then t
  else if ended then t.finish (.exited status)
  else (t.push [.share paths status]).waitForInput

/-! ## Children -/

/-- The exit code by which a shell knows how a process has ended. -/
def codeOf : ExitStatus → Nat
  | .exited code => code
  | .signalled number => 128 + number

/-- Tells what killed a child, unless that is nothing to talk about. -/
def reportDeath (t : Turn) : ExitStatus → Turn
  | .exited _ => t
  | .signalled number =>
    if number = 2 || number = Signal.pipeNumber then t else t.complain (Signal.description number)

/-- Waits for a child in the foreground. -/
def awaitFrame (t : Turn) (child : ProcessId) (counts : Bool) : Turn :=
  match t.ended? child with
  | none => (t.push [.await child counts]).waitFor (.child child)
  | some status =>
    let t := t.forget child
    let t := t.reportDeath status
    if counts then t.noticeEnds.done (codeOf status) else t

/-- Waits for a child in the background. A signal ends the waiting. -/
def jobFrame (t : Turn) (child : ProcessId) (tells : Bool) : Turn :=
  match t.ended? child with
  | some status =>
    let isNews := t.processes.any fun p => p.id = child && !p.isNoticed
    let t := (t.forget child).noticeEnds
    (if tells && isNews then t.reportDeath status else t).done (codeOf status)
  | none =>
    match t.process.pending with
    | signal :: _ => t.done (128 + signal)
    | [] => (t.push [.job child tells]).waitFor (.job child)

/-- Ends a program that was given a limited time when it has ended or the time is over. -/
def limitFrame (t : Turn) (child : ProcessId) (isOver : Bool) : Turn :=
  match t.ended? child with
  | some status =>
    let isKilled := decide (status = .signalled ExitStatus.killNumber)
    t.finish (if !isOver then status else .exited (if isKilled then codeOf status else 124))
  | none =>
    let t := if isOver then t else (t.send ExitStatus.endNumber child).1
    (t.push [.limit child true]).waitFor (.child child)

/-- The end of a text without its line feeds. -/
def dropLineFeeds (s : Octets) : Octets := Text.dropEnd (· = '\n') s

/-- Runs a command when the script is done whose output belongs into its words. -/
def fillFrame (t : Turn) (pipe : PipeId) (child : ProcessId) (c : Shell.Command)
    (mode : RunMode) : Turn :=
  if ((t.scene.pipe? pipe).map fun p => p.hasWriter t.processes).getD false then
    (t.push [.fill pipe child c mode]).waitFor (.close pipe)
  else
    match t.ended? child with
    | none => (t.push [.fill pipe child c mode]).waitFor (.child child)
    | some status =>
      let (scene, content) := t.scene.takeContent pipe
      let scene := scene.updatePipe pipe fun p => { p with hasOuterReader := false }
      let t := (({ t with scene }.forget child).reportDeath status).noticeEnds
      let t := t.updateShell ({ · with scriptStatus := some (codeOf status) })
      let printed := dropLineFeeds (content.filter (· ≠ '\x00'))
      match c.fill? printed with
      | some c => t.push [.run c mode]
      | none => t.runFilled mode c

/-! ## Scripts -/

/-- Reads on in a script, up to the end of a line. -/
def readFrame (t : Turn) (script : Octets) (line : Nat) (isLast : Bool) : Turn :=
  match Shell.nextCommand.run ⟨script, line⟩ with
  | .error fault =>
    (t.update fun p => { p with line := fault.line }).fatal fault.cause.message
  | .ok (none, _) => t
  | .ok (some c, place) =>
    if place.rest.isEmpty then
      let isLast := isLast && script.getLast? ≠ some '\n' && t.process.frames.isEmpty
      t.push [.run c ⟨isLast, false⟩]
    else t.push [.run c ⟨false, false⟩, .read place.rest place.line isLast]

/-- Reads a script from the input, which is run when all of it is there. -/
def readInputFrame (t : Turn) (begun : Octets) : Turn :=
  let (t, more, ended) := t.takeInput
  if ended then t.push [.read (begun ++ more) 1 false]
  else (t.push [.readInput (begun ++ more)]).waitForInput

/-- The first line of a text, and what follows it if the line has an end. Backslashes quote the
characters after them, or join two lines, unless the line is raw. -/
def cutLine (isRaw : Bool) : Octets → Octets × Option Octets
  | [] => ([], none)
  | [c] => if c = '\n' then ([], some []) else ([c], none)
  | c :: d :: rest =>
    if c = '\n' then ([], some (d :: rest))
    else if c = '\\' && !isRaw then
      let (line, after) := cutLine isRaw rest
      (if d = '\n' then line else d :: line, after)
    else
      let (line, after) := cutLine isRaw (d :: rest)
      (c :: line, after)

/-- Sets variables to the fields of a line; the last one gets all that is left. -/
def assignFields (separators : Octets) (s : Shell.State) : List Octets → Octets → Shell.State
  | [], _ => s
  | name :: names, line =>
    let isGap := fun c : Char => (c = ' ' || c = '\t') && separators.contains c
    let line := line.dropWhile isGap
    if names.isEmpty then
      s.assign name (Text.dropEnd isGap line)
    else
      let field := line.takeWhile fun c => !separators.contains c
      let rest := (line.drop field.length).dropWhile isGap
      let rest := match rest with
        | c :: more => if separators.contains c && !isGap c then more else rest
        | [] => []
      assignFields separators (s.assign name field) names rest

/-- Reads a line of the input into variables. -/
def readLineFrame (t : Turn) (names : List Octets) (isRaw : Bool) (begun : Octets) : Turn :=
  let (t, more, ended) := t.takeInput
  let assigned := fun (t : Turn) (line : Octets) (status : Nat) =>
    (t.updateShell fun s => assignFields s.separators s names line).done status
  match cutLine isRaw (begun ++ more) with
  | (line, some rest) => assigned (t.returnInput rest) line 0
  | (line, none) =>
    if ended then assigned t line 1
    else (t.push [.readLine names isRaw (begun ++ more)]).waitForInput

/-! ## Frames -/

/-- Does what a frame says that was taken off. -/
def doFrame (t : Turn) : Frame → Turn
  | .step s => t.step s
  | .utility name =>
    t.carryOut name
      (Utility.deed name t.process.shell.arguments t.disk t.process.shell.environment)
  | .become caller environment command => t.becomeOr caller environment command
  | .filter f input written => t.runFilter f input written
  | .share paths status => t.passOn paths status
  | .limit child isOver => t.limitFrame child isOver
  | .read script line isLast => t.readFrame script line isLast
  | .readInput begun => t.readInputFrame begun
  | .run c mode => t.run mode c
  | .next onSuccess c mode =>
    if decide (t.status = 0) = onSuccess then t.push [.run c mode] else t
  | .choose body other mode =>
    if t.status = 0 then t.push [.run body mode] else (t.done 0).push [.run other mode]
  | .negate => t.done (if t.status = 0 then 1 else 0)
  | .test untilSuccess test body status isTested =>
    if decide (t.status = 0) = untilSuccess then t.done status
    else t.push [.run body ⟨false, isTested⟩, .again untilSuccess test body isTested]
  | .again untilSuccess test body isTested =>
    t.push [.run test ⟨false, true⟩, .test untilSuccess test body t.status isTested]
  | .each _ [] _ _ => t
  | .each name (value :: rest) body isTested =>
    (t.updateShell (·.assign name value)).push
      [.run body ⟨false, isTested⟩, .each name rest body isTested]
  | .fill pipe child c mode => t.fillFrame pipe child c mode
  | .await child counts => t.awaitFrame child counts
  | .job child tells => t.jobFrame child tells
  | .readLine names isRaw begun => t.readLineFrame names isRaw begun
  | .giveBack handles => t.update fun p => { p with handles }
  | .unassign values => t.restoreVariables values
  | .leave arguments values => t.undo (.leave arguments values)
  | .check => if t.status = 0 then t else t.exit t.status
  | .status n => t.done n
  | .exit n => t.exit n
  | .refuse complaint n =>
    let t := t.complain complaint
    if t.process.isAlive then t.finish (.exited n) else t

/-- Puts what is to be done about signals that have come in front of all else. -/
def handleSignals (t : Turn) : Turn :=
  match t.process.pending with
  | [] => t
  | signal :: rest =>
    let t := t.update fun p => { p with pending := rest }
    match t.process.shell.traps.lookup signal with
    | some script => t.push [.read script 1 false, .status t.status]
    | none => t

/-- Does what the first frame says, or ends the process if there is none. -/
def work (t : Turn) : Turn :=
  match t.process.frames with
  | [] => t.exit t.status
  | f :: rest => (t.update fun p => { p with frames := rest }).doFrame f

/-- Lets a process that is ready go on. One that waited for a mark waits for a moment more. -/
def act (t : Turn) : Turn :=
  match t.process.wait with
  | .mark _ => t.sleep scriptMoment
  | .job _ => (t.waitFor .nothing).work
  | _ =>
    let t := t.waitFor .nothing
    if t.process.pending.isEmpty then t.work else t.handleSignals

end Turn

end SolverPortfolio
