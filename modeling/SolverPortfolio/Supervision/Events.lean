import SolverPortfolio.Supervision.Queue

/-
# The events of a run

A run changes when a launched process says something, when the slot being
served runs out, when the monitor ticks, and when a signal comes from outside.
Each message names the worker and the generation it is about; what an outdated
generation says has no effect but on the list of running processes.

Main definitions: `Message`, `RunSignal`, `RunEvent`, `Run.receive`,
`Run.monitor`, `Run.signal`, `Run.handle`.
-/

namespace SolverPortfolio

/-- What the outside world says about one generation of a worker. -/
inductive Message where
  | launched (worker : WorkerId) (generation : Nat) (process : ProcessId)
      (injected : Option Objective)
  | launchFailed (worker : WorkerId) (generation : Nat)
  | output (worker : WorkerId) (generation : Nat) (event : StreamEvent)
  | exited (worker : WorkerId) (generation : Nat) (success : Bool) (code : Option Int)
  deriving Repr, DecidableEq

/-- What the user asks of a run. -/
inductive RunSignal where
  | abort
  | suspend
  | resume
  deriving Repr, DecidableEq

/-- What changes a run. -/
inductive RunEvent where
  | message (m : Message)
  | slotExpired
  /-- The monitor looks at the memory that the processes use. -/
  | tick (usage : ProcessId → Nat)
  | signal (s : RunSignal)

/-- The text of a value that may be missing. -/
def showOption : Option Int → String
  | some value => s!"Some({value})"
  | none => "None"

namespace Run

variable {α : Type} [Timed α]

/-! ## Solutions -/

/-- Prints a solution and the line after it. -/
def printSolution (r : Run α) (s : Solution) : Run α :=
  let assignment := String.ofList (Text.trimEnd s.assignment.toList)
  let r := { r with solutions := r.solutions + 1 }
  let r := if assignment.isEmpty then r else r.emit (.print assignment)
  r.emit (.print solutionTerminator)

/-- Offers a value as the best one. -/
def offerBound (r : Run α) (w : Worker) (value : Objective) : Run α :=
  let (incumbent, accepted) := r.incumbent.offer value
  let r := { r with incumbent }
  if accepted then r.note (.info s!"new best bound {value} from solver '{w.name}'") else r

/-- Takes up a solution. Without an objective the first one wins the run, unless all are wanted;
with an objective a solution is printed if it has the best value known and was not the last one
printed. -/
def acceptSolution (r : Run α) (w : Worker) (s : Solution) (now : Instant) : Run α :=
  let r := r.updateWorker w.id fun w => (w.recordSolution now r.goal s.objective).1
  if r.goal = .satisfy then
    if r.settings.allSolutions then r.printSolution s
    else
      let (incumbent, first) := r.incumbent.declareWinner w.name .satisfied
      let r := { r with incumbent }
      if first then
        ((r.printSolution s).terminate w.id .finished now).note
          (.info s!"solver '{w.name}' found a solution")
      else r
  else
    match s.objective with
    | some value =>
      if r.incumbent.best = some value ∧ r.lastPrinted ≠ some value then
        { r with lastPrinted := some value }.printSolution s
      else r
    | none =>
      let r := r.note (.warning s!"solver '{w.name}' reported a solution without objective value")
      if r.solutions = 0 then r.printSolution s else r

/-! ## Proofs -/

/-- What the completed search of a worker proves. Where there is an objective, no solution of a
model with an injected bound means that the best value known is optimal. -/
def proofOf (r : Run α) (w : Worker) : SearchStatus → Option Proof
  | .unknown => none
  | .unbounded => some .unbounded
  | .optimal => some .optimal
  | .unsatisfiable =>
    if r.goal = .satisfy then some .unsatisfiable
    else if w.injected.isSome then some .optimal
    else if r.incumbent.best.isNone then some .unsatisfiable
    else none

/-- Does a completed search contradict a solution that is known? -/
def contradicts (r : Run α) (w : Worker) (status : SearchStatus) : Bool :=
  decide (status = .unsatisfiable) && (r.proofOf w status).isNone

/-- The line that closes the output of a run. -/
def closingLine : Proof → String
  | .satisfied => SearchStatus.line .optimal
  | .optimal => SearchStatus.line .optimal
  | .unsatisfiable => SearchStatus.line .unsatisfiable
  | .unbounded => SearchStatus.line .unbounded

/-- Declares a worker the winner, and closes the output if it is the first one. -/
def declareProof (r : Run α) (w : Worker) (proof : Proof) : Run α :=
  let (incumbent, first) := r.incumbent.declareWinner w.name proof
  let r := { r with incumbent }
  if first then
    (r.note (.info s!"solver '{w.name}' proved {proof.word}")).emit (.print (closingLine proof))
  else r

/-- Takes up the end of a search. -/
def completeSearch (r : Run α) (w : Worker) (status : SearchStatus) (now : Instant) : Run α :=
  let r := if r.contradicts w status then
      r.note (.warning s!"solver '{w.name}' reports unsatisfiable but a solution is known")
    else r
  let r := match r.proofOf w status with
    | some proof => r.declareProof w proof
    | none => r
  r.terminate w.id (.completed status) now

/-! ## Messages -/

/-- Notes that a generation of a worker has a process. -/
def addRunning (r : Run α) (key : WorkerId × Nat) (process : ProcessId) : Run α :=
  { r with running := r.running.filter (fun p => p.1 ≠ key) ++ [(key, process)] }

/-- Notes that a generation of a worker has no process any more. -/
def removeRunning (r : Run α) (key : WorkerId × Nat) : Run α :=
  { r with running := r.running.filter fun p => p.1 ≠ key }

/-- Takes up what a worker printed. -/
def acceptOutput (r : Run α) (w : Worker) (event : StreamEvent) (now : Instant) : Run α :=
  match event with
  | .bound value => r.offerBound w value
  | .solution s => r.acceptSolution w s now
  | .completed status => r.completeSearch w status now

/-- Takes up a process for the worker that waits for it; a process that nobody waits for is given
up. While the run is paused, the process is stopped at once. -/
def acceptLaunch (r : Run α) (w : Worker) (generation : Nat) (process : ProcessId)
    (injected : Option Objective) (now : Instant) : Run α :=
  if w.generation = generation ∧ (w.phase = .converting ∨ w.phase = .restarting) then
    let r := if r.paused then r.emit (.pause process) else r
    r.updateWorker w.id (·.launched now process injected)
  else r.emit (.release process)

/-- Takes up the end of a process that nobody ended. -/
def acceptExit (r : Run α) (w : Worker) (success : Bool) (code : Option Int) (now : Instant) :
    Run α :=
  if success then
    (r.note (.info s!"solver '{w.name}' finished")).terminate w.id .finished now
  else
    (r.note (.error s!"solver '{w.name}' crashed with exit code {showOption code}")).terminate
      w.id (.crashed code) now

/-- Takes up a message. -/
def receive (r : Run α) (m : Message) (now : Instant) : Run α :=
  match m with
  | .launched id generation process injected =>
    let r := r.addRunning (id, generation) process
    match r.worker? id with
    | none => r
    | some w => r.acceptLaunch w generation process injected now
  | .launchFailed id generation =>
    match r.worker? id with
    | none => r
    | some w =>
      if w.generation = generation ∧ w.isLive then r.terminate id .conversionFailure now else r
  | .output id generation event =>
    match r.worker? id with
    | none => r
    | some w =>
      if w.generation = generation ∧ w.isLive then r.acceptOutput w event now else r
  | .exited id generation success code =>
    let r := r.removeRunning (id, generation)
    match r.worker? id with
    | none => r
    | some w =>
      if w.generation = generation ∧ (w.phase = .solving ∨ w.phase = .suspended) then
        r.acceptExit w success code now
      else r

/-! ## The monitor -/

/-- The live workers whose processes use too much memory, with the bytes they use. -/
def overLimit (r : Run α) (usage : ProcessId → Nat) : List (WorkerId × Nat) :=
  (r.workers.filter (·.isLive)).filterMap fun w =>
    match w.process with
    | none => none
    | some process =>
      if r.memory.exceededBy (usage process) then some (w.id, usage process) else none

/-- Ends a worker that uses too much memory. -/
def evict (r : Run α) (id : WorkerId) (usage : Nat) (now : Instant) : Run α :=
  let usages := s!"{usage} bytes of memory, above the limit of {r.memory.bytes} bytes"
  (r.note (.error s!"solver '{r.nameOf id}' uses {usages}")).terminate id .memoryLimitExceeded now

/-- Restarts a worker with the best bound known. -/
def restart (r : Run α) (id : WorkerId) (now : Instant) : Run α :=
  match r.worker? id with
  | none => r
  | some old =>
    let r := (r.updateWorker id (·.beginRestart r.settings.switchSearch)).releaseProcess old.process
    let bound := showOption r.incumbent.best
    let count := s!"{old.restarts + 1}/{r.settings.maxRestarts}"
    (r.note (.info s!"restarting solver '{old.name}' ({count}) with bound {bound}")).launch id now

/-- Restarts a worker that stagnates against the best value `best`, or ends it when it was
restarted too often. -/
def checkStagnation (r : Run α) (best : Option Objective) (id : WorkerId) (now : Instant) : Run α :=
  match r.worker? id with
  | none => r
  | some w =>
    match w.stagnation now r.goal best r.settings.restartTime r.settings.maxRestarts with
    | .healthy => r
    | .restart => r.restart id now
    | .exhausted =>
      (r.note (.warning s!"solver '{w.name}' stagnated after {w.restarts} restarts")).terminate
        id .restartsExhausted now

/-- A tick of the monitor: first the memory of all workers, then, if there is an objective, the
progress of each. -/
def monitor (r : Run α) (usage : ProcessId → Nat) (now : Instant) : Run α :=
  let r := (r.overLimit usage).foldl (fun r (id, bytes) => r.evict id bytes now) r
  if r.goal.isOptimization then
    (List.range r.workers.length).foldl
      (fun s id => s.checkStagnation r.incumbent.best id now) r
  else r

/-! ## Signals -/

/-- The processes of the workers that are solving. -/
def solvingProcesses (r : Run α) : List ProcessId :=
  (r.workers.filter fun w => w.phase = .solving).filterMap (·.process)

/-- Takes up a signal. -/
def signal (r : Run α) : RunSignal → Run α
  | .abort =>
    let r := r.note (.warning "run aborted by signal")
    { r with aborted := true, incumbent := r.incumbent.cancel }
  | .suspend =>
    r.solvingProcesses.foldl (fun r process => r.emit (.pause process)) { r with paused := true }
  | .resume =>
    r.solvingProcesses.foldl (fun r process => r.emit (.wake process)) { r with paused := false }

/-- Takes up an event. -/
def handle (r : Run α) (e : RunEvent) (now : Instant) : Run α :=
  match e with
  | .message m => r.receive m now
  | .slotExpired => r.expireSlot now
  | .tick usage => r.monitor usage now
  | .signal s => r.signal s

end Run

end SolverPortfolio
