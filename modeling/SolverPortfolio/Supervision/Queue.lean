import SolverPortfolio.Supervision.Run

/-
# The queue of the shared core

One slot of the shared core is served at a time. A slot that ends early hands
its unused time to the next one. Once all slots are served, the time that is
left is shared equally by the workers that are still suspended.

Main definitions: `Run.nextSlot`, `Run.serveSlot`, `Run.serve?`, `Run.advance`,
`Run.terminate`, `Run.expireSlot`, `Run.start`.
-/

namespace SolverPortfolio

/-- The shortest time worth starting a solver for. -/
def shortestSlot : Duration := Duration.ofMillis 10

namespace Run

variable {α : Type} [Timed α]

/-- The worker of the shared core that was added last for a solver. -/
def lastQueued? (r : Run α) (solver : String) : Option Worker :=
  (r.workers.filter fun w => w.placement = .queued ∧ w.name = solver).getLast?

/-- Is a worker suspended? -/
def isSuspended (r : Run α) (id : WorkerId) : Bool :=
  match r.worker? id with
  | some w => decide (w.phase = .suspended)
  | none => false

/-- The slots that share the time left among the suspended workers. -/
def sharedSlots (r : Run α) (now : Instant) : Schedule α :=
  r.suspended.map fun id =>
    ⟨r.nameOf id, Timed.share (r.remaining now) r.suspended.length⟩

/-- Takes the next slot. When the queue is empty, it is refilled for the suspended workers if the
time that is left is worth it. -/
def nextSlot (r : Run α) (now : Instant) : Option (Slot α) × Run α :=
  match r.queue with
  | slot :: rest => (some slot, { r with queue := rest })
  | [] =>
    let r := { r with suspended := r.suspended.filter r.isSuspended }
    if r.remaining now < shortestSlot then (none, r)
    else
      match r.sharedSlots now with
      | [] => (none, r)
      | slot :: rest => (some slot, { r with queue := rest })

/-- Lets a suspended worker go on. -/
def resumeWorker (r : Run α) (w : Worker) : Run α :=
  let r := match w.process with
    | some process => r.emit (.wake process)
    | none => r
  let r := r.updateWorker w.id (·.resume)
  { r with suspended := r.suspended.filter (· ≠ w.id) }.note
    (.info s!"resumed solver '{w.name}'")

/-- What becomes of a slot: the next one has its turn, or the search for a slot to serve ends. -/
inductive Served (α : Type) where
  | passed (r : Run α)
  | settled (r : Run α)

/-- Serves a slot with a new worker, unless that ends at once. -/
def serveNewWorker (r : Run α) (slot : Slot α) (allotted : Duration) (deadline now : Instant) :
    Served α :=
  let id := r.workers.length
  let r := r.addAndLaunch slot.solver .queued now
  if r.isLive id then .settled { r with current := some ⟨id, deadline⟩ }
  else .passed { r with carry := r.carry + allotted }

/-- Serves a slot: with the live worker of its solver, with a new worker, or not at all. -/
def serveSlot (r : Run α) (slot : Slot α) (now : Instant) : Served α :=
  if Timed.isPositive slot.seconds then
    let remaining := r.remaining now
    if remaining < shortestSlot then .settled r
    else
      let allotted := ((Timed.duration? slot.seconds).getD remaining).saturatingAdd r.carry
      let deadline := now + min allotted remaining
      let r := { r with carry := 0 }
      match r.lastQueued? slot.solver with
      | none => r.serveNewWorker slot allotted deadline now
      | some w =>
        if w.isLive then
          let r := if w.phase = .suspended then r.resumeWorker w else r
          .settled { r with current := some ⟨w.id, deadline⟩ }
        else if w.termination.any (·.allowsRelaunch) then
          r.serveNewWorker slot allotted deadline now
        else
          let r := r.note (.info s!"skipping slot of terminated solver '{slot.solver}'")
          .passed { r with carry := r.carry + allotted }
  else .passed (r.note (.info s!"solver '{slot.solver}' has no time allocated"))

/-- Takes slots until one is settled, or nothing if `fuel` turns are not enough. -/
def serve? : Nat → Run α → Instant → Option (Run α)
  | 0, _, _ => none
  | fuel + 1, r, now =>
    match r.nextSlot now with
    | (none, r) => some r
    | (some slot, r) =>
      match r.serveSlot slot now with
      | .settled r => some r
      | .passed r => serve? fuel r now

/-- Goes on to the next slot that can be served. Each turn takes a slot from the queue, and a
refilled queue is settled by its first slot, so that the slots known now and one turn more are
enough. -/
def advance (r : Run α) (now : Instant) : Run α :=
  let r := { r with current := none }
  if r.incumbent.cancelled then r
  else (serve? (r.queue.length + r.suspended.length + 2) r now).getD r

/-- Ends a worker, and hands the rest of its slot to the next one. -/
def terminate (r : Run α) (id : WorkerId) (cause : TerminationCause) (now : Instant) : Run α :=
  let r := r.endWorker id cause
  match r.current with
  | none => r
  | some slot =>
    if slot.worker = id then { r with carry := r.carry + (slot.deadline - now) }.advance now
    else r

/-- Suspends the worker of a slot that runs out. -/
def suspendWorker (r : Run α) (w : Worker) : Run α :=
  let r := match w.process with
    | some process => r.emit (.pause process)
    | none => r
  let r := r.updateWorker w.id (·.suspend)
  { r with suspended := r.suspended ++ [w.id] }.note (.info s!"suspended solver '{w.name}'")

/-- Ends the slot being served when its time is over. Its worker is suspended if it has lately
found a solution, and ended otherwise. -/
def expireSlot (r : Run α) (now : Instant) : Run α :=
  match r.current with
  | none => r
  | some slot =>
    let r := { r with current := none }
    match r.worker? slot.worker with
    | none => r.advance now
    | some w =>
      let keeps := w.phase = .solving ∧ w.slotExpiry now r.settings.waitTime = .suspend
      let r := if keeps then r.suspendWorker w
        else (r.note (.info s!"slot of solver '{w.name}' expired")).endWorker w.id .slotExpired
      r.advance now

/-- Begins a run: launches the solvers with a core of their own, then serves the shared core. -/
def start (r : Run α) (schedule : ParallelSchedule α) (now : Instant) : Run α :=
  let r := schedule.dedicated.foldl (fun r name => r.addAndLaunch name .dedicated now) r
  { r with queue := schedule.shared }.advance now

end Run

end SolverPortfolio
