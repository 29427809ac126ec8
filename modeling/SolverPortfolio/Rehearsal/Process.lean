import SolverPortfolio.Command
import SolverPortfolio.Shell.State
import SolverPortfolio.Utility.Basic
import SolverPortfolio.Utility.Signal

/-
# Processes of a rehearsal

A process is a list of frames, which say what is still to be done, the next one
first. Processes write to files and to pipes, and read from pipes; a pipe comes
to its end when it is empty and nobody can write to it any more. A process may
have to wait for a point in time, for a mark, for a pipe or for its children.

Main definitions: `Handle`, `Pipe`, `Frame`, `Wait`, `Process`, `Scene`.
-/

namespace SolverPortfolio

/-! ## Pipes -/

/-- A pipe, by its number. -/
abbrev PipeId := Nat

/-- Bytes on their way from writers to readers. -/
structure Pipe where
  id : PipeId
  content : Octets
  /-- Is it read by one who is not a process of the machine? -/
  hasOuterReader : Bool
  /-- Is it written to by one who is not a process of the machine? -/
  hasOuterWriter : Bool

/-- What a stream of a process is connected with. -/
inductive Handle where
  | nothing
  | reader (pipe : PipeId)
  | writer (pipe : PipeId)
  /-- The end of a file. -/
  | file (path : Path)
  deriving DecidableEq

/-- The streams of a process, by their numbers. -/
abbrev Handles := List (Nat × Handle)

namespace Handles

/-- What a stream is connected with. -/
def get (h : Handles) (stream : Nat) : Handle := (h.lookup stream).getD .nothing

/-- Connects a stream with something. -/
def set (h : Handles) (stream : Nat) (handle : Handle) : Handles :=
  (stream, handle) :: h.filter fun x => x.1 ≠ stream

/-- A stream is connected with what it was connected with. -/
theorem get_set_self (h : Handles) (stream : Nat) (handle : Handle) :
    (h.set stream handle).get stream = handle := by
  simp [set, get]

/-- The streams of a process: the input, the output, and the stream for errors. -/
def standard (input output errors : Handle) : Handles := [(0, input), (1, output), (2, errors)]

end Handles

/-! ## What is still to be done -/

/-- How a command is run. -/
structure RunMode where
  /-- Is it the last thing that the shell does? -/
  isLast : Bool
  /-- Is it tested how it ends, so that a failure does not end the shell? -/
  isTested : Bool

/-- Who wants a process to go on as another program, and complains if there is no such program. -/
inductive Caller where
  | command
  | exec
  | utility (name : String)

/-- Something that a process has still to do. -/
inductive Frame where
  /-- Takes a step of a scripted solver. -/
  | step (s : ScriptStep)
  /-- Does what a utility does. -/
  | utility (name : String)
  /-- Goes on as another program, which gets some variables. -/
  | become (caller : Caller) (environment : Environment) (command : List Octets)
  /-- Goes on with a filter, given the input so far and the length of what was written. -/
  | filter (f : Filter) (input : Octets) (written : Nat)
  /-- Passes on the input to the output and to files. -/
  | share (paths : List Path) (status : Nat)
  /-- Ends a program that was given a limited time, and waits for its end if the time is over. -/
  | limit (child : ProcessId) (isOver : Bool)
  /-- Reads on in a script. The shell may end with it. -/
  | read (script : Octets) (line : Nat) (isLast : Bool)
  /-- Reads a script from the input. -/
  | readInput (begun : Octets)
  | run (c : Shell.Command) (mode : RunMode)
  /-- Runs a command if the one before it has succeeded, or if it has failed. -/
  | next (onSuccess : Bool) (c : Shell.Command) (mode : RunMode)
  /-- Runs one of two commands. -/
  | choose (body other : Shell.Command) (mode : RunMode)
  | negate
  /-- Runs the body of a loop if the test allows it. The exit code is that of the body before. -/
  | test (untilSuccess : Bool) (test body : Shell.Command) (status : Nat) (isTested : Bool)
  /-- Goes back to the test of a loop. -/
  | again (untilSuccess : Bool) (test body : Shell.Command) (isTested : Bool)
  /-- Runs the body of a loop for the values that are left. -/
  | each (name : Octets) (values : List Octets) (body : Shell.Command) (isTested : Bool)
  /-- Runs a command when the script is done whose output belongs into its words. -/
  | fill (pipe : PipeId) (child : ProcessId) (c : Shell.Command) (mode : RunMode)
  /-- Waits for a child; its exit code may be taken over. -/
  | await (child : ProcessId) (counts : Bool)
  /-- Waits for a child in the background, or until a signal comes. What killed the child may be
  told. -/
  | job (child : ProcessId) (tells : Bool)
  /-- Reads a line of the input into variables. -/
  | readLine (names : List Octets) (isRaw : Bool) (begun : Octets)
  | giveBack (handles : Handles)
  /-- Gives variables the values that they had before. -/
  | unassign (values : List (Octets × Option Octets))
  /-- Leaves a function, whose local variables had other values before. -/
  | leave (arguments : List Octets) (values : List (Octets × Option Octets))
  /-- Ends the shell after a failure. -/
  | check
  | status (n : Nat)
  | exit (n : Nat)
  /-- Complains, and ends the process. -/
  | refuse (complaint : String) (n : Nat)

/-- What a process waits for. -/
inductive Wait where
  | nothing
  | time (t : Instant)
  | mark (name : String)
  /-- Something to be read from a pipe, or its end. -/
  | content (pipe : PipeId)
  /-- The end of a pipe. -/
  | close (pipe : PipeId)
  | child (id : ProcessId)
  /-- A child, or a signal. -/
  | job (id : ProcessId)
  /-- A child, or a point in time. -/
  | childUntil (id : ProcessId) (t : Instant)
  | forever
  deriving DecidableEq

/-! ## Processes -/

/-- A process of a rehearsal. -/
structure Process where
  id : ProcessId
  /-- The process group, named by its first process. -/
  group : ProcessId
  parent : Option ProcessId
  handles : Handles
  frames : List Frame
  /-- What the shell remembers; other programs use some of it. -/
  shell : Shell.State
  /-- The line of the script. -/
  line : Nat
  directory : Path
  wait : Wait
  stopped : Bool
  /-- The signals that are ignored. -/
  ignored : List Nat
  /-- The signals that have come and that a script is to be run for. -/
  pending : List Nat
  ended : Option ExitStatus
  /-- Has the parent noticed the end, although it waited for another process? -/
  isNoticed : Bool

/-- What processes share. -/
structure Scene where
  now : Instant
  disk : Disk
  marks : List String
  /-- The signals sent to the run, in order. -/
  signals : List RunSignal
  pipes : List Pipe
  nextProcess : ProcessId
  nextPipe : PipeId

namespace Process

/-- Has a process not ended? -/
def isAlive (p : Process) : Bool := p.ended.isNone

/-- Is a stream of a process connected with something, or will it be again? -/
def holds (p : Process) (handle : Handle) : Bool :=
  p.isAlive && (p.handles.any (·.2 = handle) || p.frames.any fun f =>
    match f with
    | .giveBack handles => handles.any (·.2 = handle)
    | _ => false)

/-- Ends a process, which lets go of all that it held. -/
def finish (p : Process) (status : ExitStatus) : Process :=
  { p with ended := some (p.ended.getD status), frames := [], handles := [] }

/-- A process that has ended does not end again. -/
theorem finish_of_ended {p : Process} {s : ExitStatus} (h : p.ended = some s) (t : ExitStatus) :
    (p.finish t).ended = some s := by
  simp [finish, h]

/-- Lets a signal act on a process. -/
def receive (p : Process) (signal : Nat) : Process :=
  if !p.isAlive || signal = 0 then p
  else if signal = ExitStatus.killNumber then p.finish (.signalled signal)
  else if signal = Signal.stopNumber then { p with stopped := true }
  else
    let wakes := decide (signal = Signal.wakeNumber)
    let p := if wakes then { p with stopped := false } else p
    if p.ignored.contains signal then p
    else if (p.shell.traps.lookup signal).isSome then { p with pending := p.pending ++ [signal] }
    else if wakes || Signal.isHarmless signal then p
    else if Signal.isStop signal then { p with stopped := true }
    else p.finish (.signalled signal)

/-- The point in time that a process waits for. -/
def wakeTime? (p : Process) : Option Instant :=
  if p.isAlive && !p.stopped then
    match p.wait with
    | .time t => some t
    | .childUntil _ t => some t
    | _ => none
  else none

end Process

/-! ## Who reads and writes -/

/-- Can anybody still read from a pipe? -/
def Pipe.hasReader (p : Pipe) (processes : List Process) : Bool :=
  p.hasOuterReader || processes.any (·.holds (.reader p.id))

/-- Can anybody still write to a pipe? -/
def Pipe.hasWriter (p : Pipe) (processes : List Process) : Bool :=
  p.hasOuterWriter || processes.any (·.holds (.writer p.id))

/-- Has a pipe come to its end? -/
def Pipe.isClosed (p : Pipe) (processes : List Process) : Bool :=
  p.content.isEmpty && !p.hasWriter processes

namespace Scene

/-- The pipe with a given number. -/
def pipe? (s : Scene) (id : PipeId) : Option Pipe := s.pipes.find? (·.id == id)

/-- Changes a pipe. -/
def updatePipe (s : Scene) (id : PipeId) (f : Pipe → Pipe) : Scene :=
  { s with pipes := s.pipes.map fun p => if p.id = id then f p else p }

/-- Makes a pipe with something in it. -/
def newPipe (s : Scene) (content : Octets) (hasOuterReader hasOuterWriter : Bool) :
    Scene × PipeId :=
  ({ s with
      pipes := ⟨s.nextPipe, content, hasOuterReader, hasOuterWriter⟩ :: s.pipes
      nextPipe := s.nextPipe + 1 },
    s.nextPipe)

/-- Takes what is in a pipe. -/
def takeContent (s : Scene) (id : PipeId) : Scene × Octets :=
  (s.updatePipe id fun p => { p with content := [] }, ((s.pipe? id).map (·.content)).getD [])

/-- Forgets the pipes that nobody is connected with any more. -/
def dropPipes (s : Scene) (processes : List Process) : Scene :=
  { s with pipes := s.pipes.filter fun p => p.hasReader processes || p.hasWriter processes }

/-- Can a process go on now? -/
def isReady (s : Scene) (processes : List Process) (p : Process) : Bool :=
  let hasEnded := fun id =>
    ((processes.find? (·.id == id)).map fun q => !q.isAlive).getD true
  p.isAlive && !p.stopped && match p.wait with
    | .nothing => true
    | .time t => decide (t ≤ s.now)
    | .mark name => s.marks.contains name
    | .content id =>
      ((s.pipe? id).map fun pipe => !pipe.content.isEmpty || !pipe.hasWriter processes).getD true
    | .close id => ((s.pipe? id).map fun pipe => !pipe.hasWriter processes).getD true
    | .child id => hasEnded id
    | .job id => hasEnded id || !p.pending.isEmpty
    | .childUntil id t => hasEnded id || decide (t ≤ s.now)
    | .forever => false

end Scene

end SolverPortfolio
