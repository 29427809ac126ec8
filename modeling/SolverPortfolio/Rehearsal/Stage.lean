import SolverPortfolio.Conversion
import SolverPortfolio.Rehearsal.Lines
import SolverPortfolio.Supervision.Shutdown

/-
# Stages

A stage is a run on a host of its own: the effects of the run begin and end
processes there, and what the processes print comes back as messages.

Main definitions: `LaunchTask`, `Stage`, `Stage.carryOut`, `Stage.handle`,
`Stage.drain`.
-/

namespace SolverPortfolio

/-- What is read from the processes of a launch. -/
structure LaunchStreams where
  output : Tap
  errors : Tap
  /-- The copying of what a solver prints to its filter, and what the filter complains about. -/
  filtering : Option (Copying × Tap)

namespace LaunchStreams

/-- Is there something to be read from the processes of a launch? -/
def isReady (streams : LaunchStreams) (h : Host) : Bool :=
  streams.output.isReady h || streams.errors.isReady h ||
    match streams.filtering with
    | some (copying, errors) => copying.isReady h || errors.isReady h
    | none => false

/-- Has all been read that counts as output? -/
def isFinished (streams : LaunchStreams) : Bool :=
  !streams.output.isOpen && (streams.filtering.map fun f => !f.1.goesOn).getD true

end LaunchStreams

/-- How far a launch has come. -/
inductive LaunchStage where
  | requested
  | converting (process : ProcessId) (conversion : Conversion) (errors : Tap)
  | streaming (process : ProcessId) (streams : LaunchStreams) (reader : StreamReader)
  | finished

/-- A launch that was asked for. -/
structure LaunchTask where
  request : LaunchRequest
  stage : LaunchStage

/-- A run on a host of its own. -/
structure Stage where
  host : Host
  run : Run Float
  model : String
  data : Option String
  cache : ConversionCache
  tasks : List LaunchTask
  /-- The messages that the run has not taken up yet. -/
  inbox : List Message
  /-- When groups that were given up are killed. -/
  kills : List (Instant × ProcessId)
  nextTick : Instant
  /-- What was printed, the latest first. -/
  printed : List String
  /-- What was reported, the latest first. -/
  notices : List Notice

namespace Stage

/-! ## Effects -/

/-- The time. -/
def now (s : Stage) : Instant := s.host.now

/-- Reports something. -/
def note (s : Stage) (n : Notice) : Stage := { s with notices := n :: s.notices }

/-- Sends the run a message. -/
def send (s : Stage) (m : Message) : Stage := { s with inbox := s.inbox ++ [m] }

/-- How long after it was given up a group is killed: the killing is a moment late, so that the
run itself notices the end of the grace period first. -/
def killDelay : Duration := gracePeriod + Duration.ofMillis 5

/-- Carries out an effect. -/
def carryOut (s : Stage) : Effect → Stage
  | .launch request => { s with tasks := s.tasks ++ [⟨request, .requested⟩] }
  | .pause process => { s with host := s.host.stopGroup process }
  | .wake process => { s with host := s.host.wakeGroup process }
  | .release process =>
    { s with
      host := s.host.endGroup process
      kills := s.kills ++ [(s.now + killDelay, process)] }
  | .kill process => { s with host := s.host.killGroup process }
  | .print line => { s with printed := line :: s.printed }
  | .notice n => s.note n

/-- Carries out what the run has asked for. -/
def settle (s : Stage) : Stage :=
  s.run.effects.reverse.foldl carryOut { s with run := { s.run with effects := [] } }

/-- Lets the run take up an event. -/
def handle (s : Stage) (e : RunEvent) : Stage :=
  { s with run := s.run.handle e s.now }.settle

/-! ## Streams -/

/-- Reports lines of a stream for errors. -/
def noteLines (s : Stage) (label : String) (lines : List ReadLine) : Stage :=
  lines.foldl
    (fun s line => match line with
      | .ok line => s.note (.warning s!"{label}: {line}")
      | .error _ => s)
    s

/-- Reads lines that a solver has printed, and sends what they say to the run. -/
def readLines (s : Stage) (request : LaunchRequest) (reader : StreamReader) :
    List ReadLine → Stage × StreamReader
  | [] => (s, reader)
  | .error fault :: rest =>
    (s.note (.error s!"failed to read solver stdout: {fault.message}")).readLines request reader
      rest
  | .ok line :: rest =>
    let (reader, event) := reader.feed line.toList
    let s := match event with
      | .error e => s.note (.error e.message)
      | .ok none => s
      | .ok (some event) => s.send (.output request.worker request.generation event)
    s.readLines request reader rest

/-- In front of what a solver writes to the stream for errors. -/
def solverLabel (request : LaunchRequest) : String :=
  s!"solver '{request.solver.name}' stderr"

/-- In front of what a conversion writes to the stream for errors. -/
def conversionLabel (request : LaunchRequest) : String :=
  s!"conversion for '{request.solver.name}'"

/-- Reads a stream for errors. -/
def drainErrors (s : Stage) (label : String) (tap : Tap) : Stage × Tap :=
  let (host, tap, lines) := tap.drain s.host
  ({ s with host }.noteLines label lines, tap)

/-- Reads what the processes of a launch have written. -/
def drain (s : Stage) (task : LaunchTask) : Stage × LaunchTask :=
  let label := solverLabel task.request
  match task.stage with
  | .converting process conversion errors =>
    let (s, errors) := s.drainErrors (conversionLabel task.request) errors
    (s, { task with stage := .converting process conversion errors })
  | .streaming process streams reader =>
    let (s, errors) := s.drainErrors label streams.errors
    let (s, filtering) : Stage × Option (Copying × Tap) := match streams.filtering with
      | none => (s, none)
      | some (copying, filterErrors) =>
        let (host, copying) := copying.advance s.host
        let (s, filterErrors) := { s with host }.drainErrors label filterErrors
        (s, some (copying, filterErrors))
    let (host, output, lines) := streams.output.drain s.host
    let (s, reader) := { s with host }.readLines task.request reader lines
    (s, { task with stage := .streaming process ⟨output, errors, filtering⟩ reader })
  | _ => (s, task)

/-- Is there something to be read for a launch? -/
def canDrain (s : Stage) (task : LaunchTask) : Bool :=
  match task.stage with
  | .converting _ _ errors => errors.isReady s.host
  | .streaming _ streams _ => streams.isReady s.host
  | _ => false

end Stage

end SolverPortfolio
