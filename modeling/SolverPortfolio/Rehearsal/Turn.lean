import SolverPortfolio.Rehearsal.Process
import SolverPortfolio.Shell.Expansion

/-
# Turns of processes

A turn is a process that goes on, together with the other processes and what
they all share. In a turn a process writes, begins other processes, sends
signals, and ends.

Main definitions: `Turn`, `Turn.write`, `Turn.finish`, `Turn.fork`,
`Turn.send`.
-/

namespace SolverPortfolio

/-- A process whose turn it is, between those that were begun before and after it. -/
structure Turn where
  scene : Scene
  before : List Process
  process : Process
  after : List Process

namespace Turn

/-- All processes. -/
def processes (t : Turn) : List Process := t.before ++ t.process :: t.after

/-- Changes the process. -/
def update (t : Turn) (f : Process → Process) : Turn := { t with process := f t.process }

/-- Changes what the shell remembers. -/
def updateShell (t : Turn) (f : Shell.State → Shell.State) : Turn :=
  t.update fun p => { p with shell := f p.shell }

/-- The files as the process sees them. -/
def disk (t : Turn) : Disk := t.scene.disk.seenFrom t.process.directory

/-- Changes the files. -/
def setDisk (t : Turn) (disk : Disk) : Turn :=
  { t with scene := { t.scene with disk := disk.seenFrom Path.home } }

/-! ## Frames -/

/-- Puts frames in front of the others. -/
def push (t : Turn) (frames : List Frame) : Turn :=
  t.update fun p => { p with frames := frames ++ p.frames }

/-- Makes the process wait. -/
def waitFor (t : Turn) (w : Wait) : Turn := t.update fun p => { p with wait := w }

/-- Makes the process wait for a duration. -/
def sleep (t : Turn) (d : Duration) : Turn := t.waitFor (.time (t.scene.now + d))

/-- Sets the exit code of the last command. -/
def done (t : Turn) (status : Nat) : Turn := t.updateShell (·.done status)

/-- The exit code of the last command. -/
def status (t : Turn) : Nat := t.process.shell.status

/-- Ends the process. -/
def finish (t : Turn) (status : ExitStatus) : Turn := t.update (·.finish status)

/-- Exit codes have eight bits. -/
def exitCode (n : Nat) : Nat := n % 256

/-- Ends the process with an exit code, after what is to be run at the end. -/
def exit (t : Turn) (status : Nat) : Turn :=
  match t.process.shell.traps.lookup 0 with
  | none => t.finish (.exited (exitCode status))
  | some script =>
    (t.updateShell fun s => { s with traps := s.traps.filter (·.1 ≠ 0), status }).update fun p =>
      { p with frames := [.read script 1 false, .exit status] }

/-! ## Writing -/

/-- Writes octets to a stream. One who writes to a pipe without a reader gets a signal. -/
def write (t : Turn) (stream : Nat) (s : Octets) : Turn :=
  if s.isEmpty then t
  else
    match t.process.handles.get stream with
    | .nothing => t
    | .reader _ => t
    | .file path =>
      { t with scene := { t.scene with disk := t.scene.disk.append path (Octets.toBytes s) } }
    | .writer id =>
      if ((t.scene.pipe? id).map fun pipe => pipe.hasReader t.processes).getD false then
        { t with scene := t.scene.updatePipe id fun p => { p with content := p.content ++ s } }
      else t.update (·.receive Signal.pipeNumber)

/-- Writes a line of text to the stream for errors. -/
def complain (t : Turn) (line : String) : Turn := t.write 2 (Octets.ofString (line ++ "\n"))

/-- Complains as a shell does: with its name and the line of the script. -/
def complainAs (t : Turn) (message : String) : Turn :=
  t.complain s!"{Octets.toText t.process.shell.name}: {t.process.line}: {message}"

/-- Complains, and sets the exit code of the last command. -/
def fail (t : Turn) (status : Nat) (message : String) : Turn := (t.complainAs message).done status

/-- Complains, and ends the shell. -/
def fatal (t : Turn) (message : String) : Turn :=
  let t := t.complainAs message
  if t.process.isAlive then t.exit 2 else t

/-! ## Reading -/

/-- The pipe that is the input. -/
def inputPipe? (t : Turn) : Option PipeId :=
  match t.process.handles.get 0 with
  | .reader id => some id
  | _ => none

/-- Takes what can be read from the input, and tells whether that is all. -/
def takeInput (t : Turn) : Turn × Octets × Bool :=
  match t.inputPipe? with
  | none => (t, [], true)
  | some id =>
    let ended := ((t.scene.pipe? id).map fun pipe => !pipe.hasWriter t.processes).getD true
    let (scene, content) := t.scene.takeContent id
    ({ t with scene }, content, ended)

/-- Gives something back to the input, to be read again. -/
def returnInput (t : Turn) (s : Octets) : Turn :=
  match t.inputPipe? with
  | none => t
  | some id =>
    { t with scene := t.scene.updatePipe id fun p => { p with content := s ++ p.content } }

/-- Makes the process wait for input. -/
def waitForInput (t : Turn) : Turn :=
  match t.inputPipe? with
  | none => t
  | some id => t.waitFor (.content id)

/-- A pipe from which a text can be read. -/
def newDocument (t : Turn) (s : Octets) : Turn × PipeId :=
  let (scene, id) := t.scene.newPipe s false false
  ({ t with scene }, id)

/-! ## Children -/

/-- Begins a child with frames and streams of its own. What is run when a signal comes is not run
in the child; what is ignored stays so. -/
def fork (t : Turn) (frames : List Frame) (handles : Handles) : Turn × ProcessId :=
  let id := t.scene.nextProcess
  let p := t.process
  let child : Process :=
    { p with
      id
      parent := some p.id
      handles
      frames
      shell := { p.shell with traps := [] }
      wait := .nothing
      pending := []
      isNoticed := false }
  ({ t with scene := { t.scene with nextProcess := id + 1 }, after := t.after ++ [child] }, id)

/-- How a process has ended. A process that is not there any more counts as one that succeeded. -/
def ended? (t : Turn) (id : ProcessId) : Option ExitStatus :=
  match t.processes.find? (·.id == id) with
  | some p => p.ended
  | none => some (.exited 0)

/-- Notices which children have ended. -/
def noticeEnds (t : Turn) : Turn :=
  let notice := fun p : Process =>
    if p.parent = some t.process.id && !p.isAlive then { p with isNoticed := true } else p
  { t with before := t.before.map notice, after := t.after.map notice }

/-- Forgets a child that has ended. -/
def forget (t : Turn) (id : ProcessId) : Turn :=
  let isKept := fun p : Process => p.id ≠ id || p.isAlive
  { t with before := t.before.filter isKept, after := t.after.filter isKept }

/-! ## Signals -/

/-- Is a process meant by a number? Zero means one's own group, and negative numbers other
groups. -/
def isTarget (t : Turn) (target : Int) (p : Process) : Bool :=
  if 0 < target then p.id = target.toNat
  else if target = 0 then p.group = t.process.group
  else p.group = target.natAbs

/-- Sends a signal, and tells whether it had a target. -/
def send (t : Turn) (signal : Nat) (target : Int) : Turn × Bool :=
  let reach := fun p : Process =>
    if p.isAlive && t.isTarget target p then p.receive signal else p
  let found := t.processes.any fun p => p.isAlive && t.isTarget target p
  ({ t with
      before := t.before.map reach
      process := reach t.process
      after := t.after.map reach }, found)

/-- Sends a signal to targets, and tells whether all of them were there. -/
def sendAll (t : Turn) (signal : Nat) (targets : List Int) : Turn × Bool :=
  targets.foldl
    (fun (t, all) target =>
      let (t, found) := t.send signal target
      (t, all && found))
    (t, true)

/-! ## Words -/

/-- Fills in words, which may change the variables or fail. -/
def expand {α : Type} (t : Turn) (e : Shell.Expanding α) : Except String (α × Turn) :=
  match e.run t.process.shell with
  | .ok (a, shell) => .ok (a, t.update fun p => { p with shell })
  | .error message => .error message

end Turn

end SolverPortfolio
