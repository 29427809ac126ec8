import SolverPortfolio.Incumbent
import SolverPortfolio.Memory
import SolverPortfolio.Schedule.Parallel
import SolverPortfolio.Supervision.Launch

/-
# Runs

The state of a run: its workers, the queue of the shared core, the slot being
served and the best value known. What a run asks of the outside world, such as
launching a process or printing a line, is kept as a list of effects; nothing
else leaves a run.

Main definitions: `RunSettings`, `Effect`, `Run`, `Run.start`, `Run.launch`,
`Run.endWorker`.
-/

namespace SolverPortfolio

/-- How a run is conducted. -/
structure RunSettings where
  timeout : Duration
  /-- How long after a solution a worker is suspended rather than ended. -/
  waitTime : Duration
  /-- How long a worker may be quiet while others know better values. -/
  restartTime : Duration
  maxRestarts : Nat
  /-- The percentage of the memory that each solver may use. -/
  memoryPercent : Float
  monitorInterval : Duration
  allSolutions : Bool
  freeSearch : Bool
  /-- Does every restart change between free search and the search of the model? -/
  switchSearch : Bool

/-- What a run asks of the outside world. -/
inductive Effect where
  | launch (request : LaunchRequest)
  /-- Stops a process group until it is woken. -/
  | pause (process : ProcessId)
  /-- Lets a stopped process group go on. -/
  | wake (process : ProcessId)
  /-- Gives a process group up: it is asked to end, and killed after a grace period. -/
  | release (process : ProcessId)
  /-- Kills a process group at once. -/
  | kill (process : ProcessId)
  | print (line : String)
  | notice (n : Notice)
  deriving Repr, DecidableEq

/-- The slot of the shared core that is being served. -/
structure CurrentSlot where
  worker : WorkerId
  deadline : Instant
  deriving Repr, DecidableEq

/-- The state of a run. -/
structure Run (α : Type) where
  settings : RunSettings
  tracked : String
  table : SolverTable
  memory : MemoryLimit
  deadline : Instant
  incumbent : Incumbent
  /-- All workers, in the order in which they were added. -/
  workers : List Worker
  /-- The processes launched and not yet ended, by worker and generation. -/
  running : List ((WorkerId × Nat) × ProcessId)
  /-- The slots of the shared core still to be served. -/
  queue : Schedule α
  current : Option CurrentSlot
  /-- Unused time of slots that ended early, handed to the next slot. -/
  carry : Duration
  /-- The suspended workers of the shared core, in the order of suspension. -/
  suspended : List WorkerId
  /-- The objective value of the last solution printed. -/
  lastPrinted : Option Objective
  /-- The number of solutions printed. -/
  solutions : Nat
  aborted : Bool
  /-- Is the run paused from outside? -/
  paused : Bool
  /-- What the run asked for, the latest first. -/
  effects : List Effect

namespace Run

variable {α : Type}

/-- What a run solves. -/
def goal (r : Run α) : Goal := r.incumbent.goal

/-! ## Effects -/

/-- Asks for an effect. -/
def emit (r : Run α) (e : Effect) : Run α := { r with effects := e :: r.effects }

/-- Reports something. -/
def note (r : Run α) (n : Notice) : Run α := r.emit (.notice n)

/-- Asks for the release of a process if there is one. -/
def releaseProcess (r : Run α) : Option ProcessId → Run α
  | some process => r.emit (.release process)
  | none => r

/-! ## Workers -/

/-- The worker with a given number. -/
def worker? (r : Run α) (id : WorkerId) : Option Worker := r.workers[id]?

/-- The name of a worker. -/
def nameOf (r : Run α) (id : WorkerId) : String := ((r.worker? id).map (·.name)).getD ""

/-- Changes one worker. -/
def updateWorker (r : Run α) (id : WorkerId) (f : Worker → Worker) : Run α :=
  { r with workers := r.workers.modify id f }

/-- Adds a worker at the end. -/
def addWorker (r : Run α) (name : String) (placement : Placement) : Run α :=
  let w := Worker.new r.workers.length name placement r.settings.freeSearch
  { r with workers := r.workers ++ [w] }

/-- Ends a worker and gives up its process. -/
def endWorker (r : Run α) (id : WorkerId) (cause : TerminationCause) : Run α :=
  match r.worker? id with
  | none => r
  | some w => (r.updateWorker id (·.terminate cause)).releaseProcess w.process

/-- Is a worker live? -/
def isLive (r : Run α) (id : WorkerId) : Bool :=
  match r.worker? id with
  | some w => w.isLive
  | none => false

/-- The time left. -/
def remaining (r : Run α) (now : Instant) : Duration := r.deadline - now

/-- The request that brings up the current generation of a worker. -/
def request (r : Run α) (w : Worker) (solver : Solver) (now : Instant) : LaunchRequest :=
  { worker := w.id
    generation := w.generation
    solver
    goal := r.goal
    tracked := r.tracked
    bound := r.incumbent.best
    allSolutions := r.settings.allSolutions
    freeSearch := w.freeSearch
    timeoutSeconds := (r.remaining now).ceilSeconds }

/-- Asks for the launch of a worker; one whose solver is not in the table ends at once. -/
def launch (r : Run α) (id : WorkerId) (now : Instant) : Run α :=
  match r.worker? id with
  | none => r
  | some w =>
    match r.table.find? w.name with
    | none =>
      (r.note (.error s!"solver '{w.name}' is not in the solver table")).endWorker id
        .conversionFailure
    | some solver =>
      let r := if w.phase = .ready then r.updateWorker id (·.startConverting) else r
      r.emit (.launch (r.request w solver now))

/-! ## What the steps change -/

@[simp] theorem effects_emit (r : Run α) (e : Effect) : (r.emit e).effects = e :: r.effects := rfl

/-- Asking for an effect leaves the workers as they are. -/
@[simp] theorem workers_emit (r : Run α) (e : Effect) : (r.emit e).workers = r.workers := rfl

/-- A report leaves the workers as they are. -/
@[simp] theorem workers_note (r : Run α) (n : Notice) : (r.note n).workers = r.workers := rfl

/-- Giving up a process leaves the workers as they are. -/
@[simp] theorem workers_releaseProcess (r : Run α) (process : Option ProcessId) :
    (r.releaseProcess process).workers = r.workers := by
  cases process <;> rfl

/-- A change of one worker adds and removes none. -/
@[simp] theorem length_updateWorker (r : Run α) (id : WorkerId) (f : Worker → Worker) :
    (r.updateWorker id f).workers.length = r.workers.length := by
  simp [updateWorker]

/-- A change reaches one worker and no other. -/
theorem worker?_updateWorker (r : Run α) (id other : WorkerId) (f : Worker → Worker) :
    (r.updateWorker id f).worker? other
      = if id = other then (r.worker? other).map f else r.worker? other := by
  simp only [worker?, updateWorker, List.getElem?_modify]
  split <;> simp

/-- A worker is added at the end. -/
@[simp] theorem length_addWorker (r : Run α) (name : String) (placement : Placement) :
    (r.addWorker name placement).workers.length = r.workers.length + 1 := by
  simp [addWorker]

/-- The added worker has done nothing yet. -/
theorem worker?_addWorker_self (r : Run α) (name : String) (placement : Placement) :
    (r.addWorker name placement).worker? r.workers.length
      = some (.new r.workers.length name placement r.settings.freeSearch) := by
  simp [worker?, addWorker]

/-- The workers that were there before stay as they are when one is added. -/
theorem worker?_addWorker_of_lt {r : Run α} {id : WorkerId} (h : id < r.workers.length)
    (name : String) (placement : Placement) :
    (r.addWorker name placement).worker? id = r.worker? id := by
  simp only [worker?, addWorker]
  exact List.getElem?_append_left h

/-! ## The end of a run -/

/-- Is there nothing left to run or to wait for? -/
def isExhausted (r : Run α) : Bool :=
  r.current.isNone && r.queue.isEmpty && r.workers.all fun w => !w.isLive

/-! ## The begin of a run -/

/-- A run that has not begun. -/
def idle (settings : RunSettings) (goal : Goal) (tracked : String) (table : SolverTable)
    (memory : MemoryLimit) (start : Instant) : Run α :=
  { settings, tracked, table, memory
    deadline := start + settings.timeout
    incumbent := Incumbent.start goal
    workers := []
    running := []
    queue := []
    current := none
    carry := 0
    suspended := []
    lastPrinted := none
    solutions := 0
    aborted := false
    paused := false
    effects := [] }

/-- Adds and launches a worker. -/
def addAndLaunch (r : Run α) (name : String) (placement : Placement) (now : Instant) : Run α :=
  (r.addWorker name placement).launch r.workers.length now

end Run

end SolverPortfolio
