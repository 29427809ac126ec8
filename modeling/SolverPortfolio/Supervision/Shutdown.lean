import SolverPortfolio.Supervision.Events
import SolverPortfolio.Text.Quoted

/-
# The end of a run

When a run ends, all workers are ended and their processes are given a grace
period. Those that are still running are then killed and given some more time.
The report says how the run ended and what became of each worker.

Main definitions: `RunOutcome`, `RunReport`, `Run.outcome`, `Run.close`,
`Run.reap`, `Run.killRest`, `Run.finish`, `Run.report`.
-/

namespace SolverPortfolio

/-- How long processes that were given up may take to end before they are killed. -/
def gracePeriod : Duration := Duration.ofMillis 500

/-- How long killed processes may take to end before the run returns. -/
def reapTimeout : Duration := Duration.ofWholeSeconds 2

/-- How a run ended. -/
inductive RunOutcome where
  | proved (winner : Winner)
  /-- The time was over. -/
  | deadline
  /-- Every worker ended without a proof. -/
  | exhausted
  | aborted
  deriving Repr, DecidableEq

namespace RunOutcome

/-- The text shown for an outcome. -/
def text : RunOutcome → String
  | proved w =>
    s!"Proved(Winner \x7b solver: {Text.quote w.solver}, proof: {w.proof.word} \x7d)"
  | deadline => "Deadline"
  | exhausted => "Exhausted"
  | aborted => "Aborted"

/-- Did the run end with a proof? -/
def isProved : RunOutcome → Bool
  | proved _ => true
  | _ => false

end RunOutcome

/-- What became of a run. -/
structure RunReport where
  outcome : RunOutcome
  best : Option Objective
  /-- The number of solutions printed. -/
  solutions : Nat
  /-- All workers, in the order in which they were added. -/
  workers : List Worker
  deriving Repr, DecidableEq

namespace Run

variable {α : Type} [Timed α]

/-- How a run that ends now has ended. -/
def outcome (r : Run α) (now : Instant) : RunOutcome :=
  match r.incumbent.winner with
  | some winner => .proved winner
  | none =>
    if r.aborted || r.incumbent.cancelled then .aborted
    else if r.deadline ≤ now then .deadline
    else .exhausted

/-- Cancels the run and ends all live workers. -/
def close (r : Run α) : Run α :=
  let r := { r with incumbent := r.incumbent.cancel }
  (r.workers.filter (·.isLive)).foldl (fun r w => r.endWorker w.id .cancelled) r

/-- Takes up a message after the end of the run: a process launched too late is given up. -/
def reapMessage (r : Run α) : Message → Run α
  | .launched id generation process _ =>
    (r.addRunning (id, generation) process).emit (.release process)
  | .exited id generation _ _ => r.removeRunning (id, generation)
  | _ => r

/-- Takes up messages until no process is running, and keeps the others. -/
def reap (r : Run α) : List Message → Run α × List Message
  | [] => (r, [])
  | m :: rest => if r.running.isEmpty then (r, m :: rest) else (r.reapMessage m).reap rest

/-- Kills the processes that are still running. -/
def killRest (r : Run α) : Run α :=
  r.running.foldl
    (fun s ((id, _), process) =>
      let name := s.nameOf id
      (s.note (.warning s!"killing solver '{name}' (pid {process}) after the grace period")).emit
        (.kill process))
    r

/-- Closes the output of a run without answer, and reports how it ended. -/
def finish (r : Run α) (outcome : RunOutcome) : Run α :=
  let r := if r.running.isEmpty then r
    else r.note (.warning s!"{r.running.length} solver processes were not reaped")
  let r := if r.solutions = 0 ∧ !outcome.isProved then
      r.emit (.print (SearchStatus.line .unknown))
    else r
  r.note (.info s!"run ended: {outcome.text}")

/-- What became of the run. -/
def report (r : Run α) (outcome : RunOutcome) : RunReport :=
  { outcome, best := r.incumbent.best, solutions := r.solutions, workers := r.workers }

end Run

end SolverPortfolio
