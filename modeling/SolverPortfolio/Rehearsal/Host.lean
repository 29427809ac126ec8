import SolverPortfolio.ProcessTree
import SolverPortfolio.Rehearsal.Work

/-
# The host of a rehearsal

A host has a clock, a disk and processes. Time passes only when no process can
go on, so that work itself takes no time.

Main definitions: `Host`, `Host.spawn`, `Host.actFirst?`, `Host.endGroup`,
`Host.capture?`, `Host.ask`.
-/

namespace SolverPortfolio

/-- A machine for rehearsals. -/
structure Host where
  scene : Scene
  /-- The processes, in the order in which they were begun. -/
  processes : List Process
  nextFile : Nat

namespace Host

/-- The programs that every machine has. -/
def programs : List (Path × Node) :=
  let shells := ["sh", "dash", "bash"].map fun name => (name, Program.shell)
  let utilities := Utility.names.map fun name => (name, Program.utility name)
  (utilities ++ shells).flatMap fun (name, program) =>
    [(["bin", name], .program program), (["usr", "bin", name], .program program)]

/-- A machine on which nothing has happened. -/
def new (disk : Disk) : Host :=
  { scene :=
      { now := 0
        disk := { disk with nodes := disk.nodes ++ programs }
        marks := []
        signals := []
        pipes := []
        nextProcess := 1000
        nextPipe := 0 }
    processes := []
    nextFile := 1 }

/-- The memory of a machine, in bytes. -/
def totalMemory : Nat := Nat.pow 2 35

/-- The memory that a process of a rehearsal counts for, in bytes. -/
def processMemory : Nat := Nat.pow 2 21

/-- The time. -/
def now (h : Host) : Instant := h.scene.now

/-- The files. -/
def disk (h : Host) : Disk := h.scene.disk

/-- Changes the files. -/
def updateDisk (h : Host) (f : Disk → Disk) : Host :=
  { h with scene := { h.scene with disk := f h.scene.disk } }

/-- A path for a new file, which is empty. -/
def newFile (h : Host) (suffix : String) : Host × String :=
  let path := s!"/tmp/portfolio-{h.nextFile}.{suffix}"
  ({ h with nextFile := h.nextFile + 1 }.updateDisk (·.write path ByteArray.empty), path)

/-! ## Pipes -/

/-- Makes a pipe. -/
def newPipe (h : Host) (hasOuterReader hasOuterWriter : Bool) : Host × PipeId :=
  let (scene, id) := h.scene.newPipe [] hasOuterReader hasOuterWriter
  ({ h with scene }, id)

/-- Takes what is in a pipe. -/
def takeContent (h : Host) (id : PipeId) : Host × Octets :=
  let (scene, content) := h.scene.takeContent id
  ({ h with scene }, content)

/-- Has a pipe come to its end? -/
def isClosed (h : Host) (id : PipeId) : Bool :=
  ((h.scene.pipe? id).map fun p => p.isClosed h.processes).getD true

/-- Is there something in a pipe? -/
def hasContent (h : Host) (id : PipeId) : Bool :=
  ((h.scene.pipe? id).map fun p => !p.content.isEmpty).getD false

/-- Can anybody still read from a pipe? -/
def hasReader (h : Host) (id : PipeId) : Bool :=
  ((h.scene.pipe? id).map fun p => p.hasReader h.processes).getD false

/-- Writes to a pipe. -/
def giveContent (h : Host) (id : PipeId) (s : Octets) : Host :=
  { h with scene := h.scene.updatePipe id fun p => { p with content := p.content ++ s } }

/-- Lets go of the ends of a pipe that are held from outside. -/
def release (h : Host) (id : PipeId) : Host :=
  { h with scene := h.scene.updatePipe id fun p =>
      { p with hasOuterReader := false, hasOuterWriter := false } }

/-! ## Processes -/

/-- The process with a given number. -/
def process? (h : Host) (id : ProcessId) : Option Process :=
  h.processes.find? (·.id == id)

/-- Sends a signal to a process. -/
def signalProcess (h : Host) (id : ProcessId) (signal : Nat) : Host :=
  { h with processes := h.processes.map fun p => if p.id = id then p.receive signal else p }

/-- Sends a signal to the processes of a group. -/
def signalGroup (h : Host) (group : ProcessId) (signal : Nat) : Host :=
  { h with processes := h.processes.map fun p =>
      if p.group = group then p.receive signal else p }

/-- The variables that programs get. -/
def environment : List (Octets × Octets) :=
  [("PATH".toList, "/usr/local/bin:/usr/bin:/bin".toList), ("HOME".toList, "/root".toList),
    ("PWD".toList, "/home".toList)]

/-- Begins a command with given streams, in the group of a given process or in a group of its
own. -/
def spawn (h : Host) (c : Command) (group : Option ProcessId) (handles : Handles) :
    Except SystemError (Host × ProcessId) :=
  if (c.program :: c.arguments).any (·.contains '\x00') then .error .zeroInCommand
  else
    match h.disk.program c.program with
    | .error e => .error e
    | .ok program =>
      let id := h.scene.nextProcess
      let b := program.begin h.disk (Octets.ofString c.program)
        (c.arguments.map Octets.ofString) environment id none
      let p : Process :=
        { id
          group := group.getD id
          parent := none
          handles
          frames := b.frames
          shell := b.shell
          line := 1
          directory := Path.home
          wait := .nothing
          stopped := false
          ignored := []
          pending := []
          ended := none
          isNoticed := false }
      .ok ({ h with
        scene := { h.scene with nextProcess := id + 1 }
        processes := h.processes ++ [p] }, id)

/-- How a process ended, if it has. -/
def ended? (h : Host) (id : ProcessId) : Option ExitStatus :=
  (h.process? id).bind (·.ended)

/-- The processes that use memory. -/
def snapshot (h : Host) : ProcessSnapshot :=
  (h.processes.filter (·.isAlive)).map fun p => ⟨p.id, none, processMemory⟩

/-- Splits processes at the first one that is ready. -/
def splitReady (s : Scene) (all : List Process) :
    List Process → List Process → Option (List Process × Process × List Process)
  | _, [] => none
  | before, p :: rest =>
    if s.isReady all p then some (before.reverse, p, rest)
    else splitReady s all (p :: before) rest

/-- Lets the first process go on that can. -/
def actFirst? (h : Host) : Option Host :=
  (splitReady h.scene h.processes [] h.processes).map fun (before, process, after) =>
    let t := Turn.act ⟨h.scene, before, process, after⟩
    let processes := t.processes
    { h with scene := t.scene.dropPipes processes, processes }

/-- The points in time that processes wait for. -/
def wakeTimes (h : Host) : List Instant := h.processes.filterMap (·.wakeTime?)

/-- Moves the clock on to a point in time. -/
def moveTo (h : Host) (t : Instant) : Host :=
  { h with scene := { h.scene with now := max h.now t } }

/-! ## Groups -/

/-- Stops a group until it is woken. -/
def stopGroup (h : Host) (group : ProcessId) : Host := h.signalGroup group Signal.stopNumber

/-- Lets a stopped group go on. -/
def wakeGroup (h : Host) (group : ProcessId) : Host := h.signalGroup group Signal.wakeNumber

/-- Asks a group to end, and lets it go on if it was stopped. -/
def endGroup (h : Host) (group : ProcessId) : Host :=
  (h.signalGroup group ExitStatus.endNumber).wakeGroup group

/-- Kills a group. -/
def killGroup (h : Host) (group : ProcessId) : Host := h.signalGroup group ExitStatus.killNumber

/-- Kills a process, but none of its children. -/
def killProcess (h : Host) (id : ProcessId) : Host := h.signalProcess id ExitStatus.killNumber

/-! ## Running a command to its end -/

/-- Lets processes go on, at most `fuel` times, until something is so or none can go on. -/
def runUntil (isDone : Host → Bool) : Nat → Host → Host
  | 0, h => h
  | fuel + 1, h =>
    if isDone h then h
    else
      match h.actFirst? with
      | some h => runUntil isDone fuel h
      | none =>
        match h.wakeTimes.min? with
        | some t => runUntil isDone fuel (h.moveTo t)
        | none => h

/-- How many times processes go on before a command counts as one that runs for ever. -/
def patience : Nat := 1000000

/-- Runs a command to its end and to that of its output, and gives back its status and what it has
printed; nothing if it runs for ever. -/
def capture? (h : Host) (c : Command) :
    Except SystemError (Host × Option (ExitStatus × Octets)) :=
  let (h, output) := h.newPipe true false
  match h.spawn c none (Handles.standard .nothing (.writer output) .nothing) with
  | .error e => .error e
  | .ok (h, id) =>
    let isDone := fun h : Host =>
      (h.ended? id).isSome && ((h.scene.pipe? output).map fun p =>
        !p.hasWriter h.processes).getD true
    let h := runUntil isDone patience h
    if isDone h then
      let (h, printed) := h.takeContent output
      .ok (h.release output, (h.ended? id).map fun status => (status, printed))
    else .ok (h, none)

/-- Makes an inquiry, which has no answer if its command runs for ever. -/
def ask {ε α : Type} (h : Host) (q : Inquiry ε α) :
    Host × Option (Except (InquiryError ε) α) :=
  match h.capture? q.command with
  | .error cause => (h, some (.error (.notStarted cause)))
  | .ok (h, none) => (h, none)
  | .ok (h, some (status, printed)) =>
    (h, some (q.answer status (Octets.toBytes printed).toList))

end Host

end SolverPortfolio
