import SolverPortfolio.Duration
import SolverPortfolio.ProcessTree
import SolverPortfolio.SolverStream

/-
# Workers

A worker is one use of a solver in a run. It converts the model, solves it with
a process of its own, may be suspended and resumed, may be restarted with a new
process, and ends for good for the first cause that is given. Every restart
begins a new generation, so that what an older process still says can be told
apart.

Main definitions: `Phase`, `TerminationCause`, `Worker`,
`Worker.slotExpiry`, `Worker.stagnation`.
-/

namespace SolverPortfolio

/-- Where a worker stands in its life. -/
inductive Phase where
  | ready
  | converting
  | solving
  | suspended
  | restarting
  | terminated
  deriving Repr, DecidableEq

/-- Does a worker own a core, or take turns on the shared one? -/
inductive Placement where
  | dedicated
  | queued
  deriving Repr, DecidableEq

/-- Why a worker ended. -/
inductive TerminationCause where
  | completed (status : SearchStatus)
  /-- The process ended without saying that its search is complete. -/
  | finished
  | conversionFailure
  /-- The process failed, with its exit code if it was not ended by a signal. -/
  | crashed (code : Option Int)
  | memoryLimitExceeded
  | restartsExhausted
  | slotExpired
  | cancelled
  deriving Repr, DecidableEq

/-- May a later slot of the same solver start it again? -/
def TerminationCause.allowsRelaunch : TerminationCause → Bool
  | memoryLimitExceeded => false
  | conversionFailure => false
  | restartsExhausted => false
  | _ => true

/-- What becomes of a solving worker whose slot runs out. -/
inductive SlotExpiry where
  | suspend
  | terminate
  deriving Repr, DecidableEq

/-- What becomes of a worker at a tick of the monitor. -/
inductive Stagnation where
  | healthy
  | restart
  | exhausted
  deriving Repr, DecidableEq

/-- The place of a worker in the order in which the workers of a run were added. -/
abbrev WorkerId := Nat

/-- One use of a solver in a run. -/
structure Worker where
  id : WorkerId
  name : String
  placement : Placement
  phase : Phase
  /-- The number of processes begun before the current one. -/
  generation : Nat
  restarts : Nat
  suspensions : Nat
  freeSearch : Bool
  started : Option Instant
  lastSolution : Option Instant
  best : Option Objective
  /-- The last bound that a process was launched with. -/
  injected : Option Objective
  termination : Option TerminationCause
  process : Option ProcessId
  deriving Repr, DecidableEq

namespace Worker

/-- A worker that has done nothing yet. -/
def new (id : WorkerId) (name : String) (placement : Placement) (freeSearch : Bool) : Worker :=
  { id, name, placement, phase := .ready, generation := 0, restarts := 0, suspensions := 0,
    freeSearch, started := none, lastSolution := none, best := none, injected := none,
    termination := none, process := none }

/-- Has the worker not ended yet? -/
def isLive (w : Worker) : Bool := decide (w.phase ≠ .terminated)

/-- Begins to convert the model. -/
def startConverting (w : Worker) : Worker := { w with phase := .converting }

/-- Takes up a process that was launched with a bound, or without one. -/
def launched (w : Worker) (now : Instant) (process : ProcessId) (injected : Option Objective) :
    Worker :=
  { w with
    phase := .solving
    started := some now
    lastSolution := none
    injected := injected <|> w.injected
    process := some process }

/-- Records a solution, and says whether it improves on the worker's own best value. -/
def recordSolution (w : Worker) (now : Instant) (goal : Goal) (objective : Option Objective) :
    Worker × Bool :=
  let w := { w with lastSolution := some now }
  match objective with
  | none => (w, true)
  | some value =>
    if goal.isBetter w.best value then ({ w with best := some value }, true) else (w, false)

/-- The best value that the current process is known to improve on. -/
def effectiveBest (w : Worker) (goal : Goal) : Option Objective :=
  match w.best, w.injected with
  | some best, some injected =>
    if goal.isBetter (some best) injected then some injected else some best
  | some best, none => some best
  | none, injected => injected

/-- A worker whose slot runs out keeps its progress if it found a solution a short time ago. -/
def slotExpiry (w : Worker) (now : Instant) (waitTime : Duration) : SlotExpiry :=
  match w.lastSolution with
  | some time => if now - time ≤ waitTime then .suspend else .terminate
  | none => .terminate

/-- Is the best value of the run better than anything the current process knows about? -/
def isObsolete (w : Worker) (goal : Goal) (global : Objective) : Bool :=
  match w.effectiveBest goal with
  | some own => goal.isBetter (some own) global
  | none => true

/-- Has the process been launched, and found nothing for a given time? -/
def isQuiet (w : Worker) (now : Instant) (restartTime : Duration) : Bool :=
  match w.lastSolution <|> w.started with
  | some since => decide (restartTime ≤ now - since)
  | none => false

/-- A worker that solves an optimization problem stagnates if the best value of the run is better
than anything it knows about and it has been quiet for the restart time. -/
def stagnation (w : Worker) (now : Instant) (goal : Goal) (global : Option Objective)
    (restartTime : Duration) (maxRestarts : Nat) : Stagnation :=
  match global with
  | none => .healthy
  | some global =>
    if w.phase = .solving ∧ goal.isOptimization ∧ w.isObsolete goal global
        ∧ w.isQuiet now restartTime then
      if w.restarts < maxRestarts then .restart else .exhausted
    else .healthy

/-- Suspends the worker. -/
def suspend (w : Worker) : Worker :=
  { w with phase := .suspended, suspensions := w.suspensions + 1 }

/-- Resumes the worker. -/
def resume (w : Worker) : Worker := { w with phase := .solving }

/-- Gives up the current process for a new generation, which searches freely where the old one did
not, and the other way round, if `switchSearch` is set. -/
def beginRestart (w : Worker) (switchSearch : Bool) : Worker :=
  { w with
    phase := .restarting
    restarts := w.restarts + 1
    generation := w.generation + 1
    freeSearch := w.freeSearch != switchSearch
    process := none }

/-- Ends the worker; of several causes the first is kept. -/
def terminate (w : Worker) (cause : TerminationCause) : Worker :=
  { w with
    phase := .terminated
    termination := w.termination <|> some cause
    process := none }

/-! ## What the steps of a life change -/

/-- A new worker is live. -/
@[simp] theorem isLive_new (id : WorkerId) (name : String) (placement : Placement)
    (freeSearch : Bool) : (new id name placement freeSearch).isLive = true := rfl

/-- A worker that was ended is not live. -/
@[simp] theorem isLive_terminate (w : Worker) (cause : TerminationCause) :
    (w.terminate cause).isLive = false := rfl

/-- The first cause given to a worker is kept. -/
theorem termination_terminate (w : Worker) (cause : TerminationCause) :
    (w.terminate cause).termination = (w.termination <|> some cause) := rfl

/-- A worker that has ended keeps its cause. -/
theorem terminate_terminate (w : Worker) (first second : TerminationCause) :
    (w.terminate first).terminate second = w.terminate first := by
  unfold terminate
  cases w.termination <;> rfl

/-- A worker that was ended holds no process. -/
@[simp] theorem process_terminate (w : Worker) (cause : TerminationCause) :
    (w.terminate cause).process = none := rfl

/-- A restart begins the next generation. -/
@[simp] theorem generation_beginRestart (w : Worker) (switchSearch : Bool) :
    (w.beginRestart switchSearch).generation = w.generation + 1 := rfl

/-- A restart is counted. -/
@[simp] theorem restarts_beginRestart (w : Worker) (switchSearch : Bool) :
    (w.beginRestart switchSearch).restarts = w.restarts + 1 := rfl

/-- A restart holds no process until it is launched. -/
@[simp] theorem process_beginRestart (w : Worker) (switchSearch : Bool) :
    (w.beginRestart switchSearch).process = none := rfl

/-- A worker launched without a bound keeps the one of an earlier launch. -/
theorem injected_launched (w : Worker) (now : Instant) (process : ProcessId)
    (injected : Option Objective) :
    (w.launched now process injected).injected = (injected <|> w.injected) := rfl

/-- A solution without objective value leaves the best value as it is. -/
@[simp] theorem recordSolution_none (w : Worker) (now : Instant) (goal : Goal) :
    w.recordSolution now goal none = ({ w with lastSolution := some now }, true) := rfl

/-- The best value after a solution. -/
theorem best_recordSolution (w : Worker) (now : Instant) (goal : Goal) (value : Objective) :
    (w.recordSolution now goal (some value)).1.best
      = if goal.isBetter w.best value then some value else w.best := by
  simp only [recordSolution]
  split <;> rfl

/-- Recording a solution changes nothing but the time of the last one and the best value. -/
theorem exists_recordSolution (w : Worker) (now : Instant) (goal : Goal)
    (objective : Option Objective) :
    ∃ best, (w.recordSolution now goal objective).1
      = { w with lastSolution := some now, best } := by
  unfold recordSolution
  split
  · exact ⟨w.best, rfl⟩
  · dsimp only
    split
    · exact ⟨_, rfl⟩
    · exact ⟨w.best, rfl⟩

/-- Recording a solution leaves the number of a worker as it is. -/
theorem id_recordSolution (w : Worker) (now : Instant) (goal : Goal)
    (objective : Option Objective) : (w.recordSolution now goal objective).1.id = w.id := by
  obtain ⟨best, h⟩ := w.exists_recordSolution now goal objective
  rw [h]

/-- A worker that is not solving does not stagnate. -/
theorem stagnation_of_phase_ne {w : Worker} (h : w.phase ≠ .solving) (now : Instant) (goal : Goal)
    (global : Option Objective) (restartTime : Duration) (maxRestarts : Nat) :
    w.stagnation now goal global restartTime maxRestarts = .healthy := by
  cases global <;> simp [stagnation, h]

end Worker

end SolverPortfolio
