import SolverPortfolio.Rehearsal.Launching

/-
# Rehearsals

At one point in time the run goes first: the end of its time, then messages, the
slot being served, the monitor and signals. Launches and processes go on when
the run has nothing to do, and the clock moves when nobody has.

Main definitions: `Stage.step?`, `Stage.shutDown`, `RehearsalPlan`, `Transcript`,
`rehearse`.
-/

namespace SolverPortfolio

namespace Stage

/-! ## Time -/

/-- Kills the groups whose time has come, if there are any. -/
def killDue? (s : Stage) : Option Stage :=
  let due := s.kills.filter fun k => k.1 ≤ s.now
  if due.isEmpty then none
  else some { s with
    host := due.foldl (fun h k => h.killGroup k.2) s.host
    kills := s.kills.filter fun k => s.now < k.1 }

/-- Lets the first process go on that can. -/
def actFirst? (s : Stage) : Option Stage :=
  s.host.actFirst?.map fun host => { s with host }

/-- What goes on besides the run. -/
def background? (s : Stage) : Option Stage :=
  s.killDue? <|> s.drainFirst? [] s.tasks <|> s.advanceFirst? [] s.tasks <|> s.actFirst?

/-- Moves the clock to the next point in time at which something is due, at the latest to a given
one. -/
def moveOn (s : Stage) (due : List Instant) (latest : Instant) : Stage :=
  let times := due ++ s.kills.map (·.1) ++ s.host.wakeTimes
  { s with host := s.host.moveTo (times.foldl min latest) }

/-- The tick of the monitor, and the time of the next one; ticks that were missed are left out. -/
def tick (s : Stage) : Stage :=
  let interval := s.run.settings.monitorInterval
  let missed := (s.now - s.nextTick) / interval
  { s with nextTick := s.nextTick + (missed + 1) * interval }.handle
    (.tick fun process => (s.host.snapshot.treeMemoryWord process).toNat)

/-- Is the time of the slot being served over? -/
def slotIsOver (s : Stage) : Bool :=
  match s.run.current with
  | some slot => decide (slot.deadline ≤ s.now)
  | none => false

/-- One step of a rehearsal, or nothing if the run has come to its end. -/
def step? (s : Stage) : Option Stage :=
  if s.run.isExhausted || s.run.incumbent.cancelled || s.run.deadline ≤ s.now then none
  else some <|
    match s.inbox with
    | m :: rest => { s with inbox := rest }.handle (.message m)
    | [] =>
      if s.slotIsOver then s.handle .slotExpired
      else if s.nextTick ≤ s.now then s.tick
      else
        match s.host.scene.signals with
        | signal :: rest =>
          { s with host := { s.host with scene := { s.host.scene with signals := rest } } }.handle
            (.signal signal)
        | [] =>
          s.background?.getD
            (s.moveOn (s.nextTick :: (s.run.current.map (·.deadline)).toList) s.run.deadline)

/-- Steps of a rehearsal, until the run has come to its end. -/
def conduct : Nat → Stage → Stage
  | 0, s => s
  | fuel + 1, s =>
    match s.step? with
    | some s => conduct fuel s
    | none => s

/-! ## The end -/

/-- Lets a launch go that has not begun a solver. -/
def cancelTask (task : LaunchTask) : LaunchTask :=
  match task.stage with
  | .requested => { task with stage := .finished }
  | .converting _ _ _ => { task with stage := .finished }
  | _ => task

/-- Kills the commands of the conversions that are under way. -/
def killConversions (s : Stage) : Host :=
  s.tasks.foldl
    (fun h task => match task.stage with
      | .converting process _ _ => h.killProcess process
      | _ => h)
    s.host

/-- Waits until no process is running, at most until a given time. -/
def reapUntil (latest : Instant) : Nat → Stage → Stage
  | 0, s => s
  | fuel + 1, s =>
    if s.run.running.isEmpty then s
    else
      match s.inbox with
      | _ :: _ =>
        let (run, inbox) := s.run.reap s.inbox
        reapUntil latest fuel ({ s with run, inbox }.settle)
      | [] =>
        if latest ≤ s.now then s
        else reapUntil latest fuel (s.background?.getD (s.moveOn [] latest))

/-- Ends the run and its processes. -/
def shutDown (s : Stage) (patience : Nat) : Stage × RunReport :=
  let outcome := s.run.outcome s.now
  let s := { s with
    host := s.killConversions
    run := s.run.close
    tasks := s.tasks.map cancelTask }.settle
  let s := reapUntil (s.now + gracePeriod) patience s
  let s := { s with run := s.run.killRest }.settle
  let s := reapUntil (s.now + reapTimeout) patience s
  let s := { s with run := s.run.finish outcome }.settle
  (s, s.run.report outcome)

end Stage

/-- What is rehearsed. -/
structure RehearsalPlan where
  settings : RunSettings
  goal : Goal
  tracked : String
  table : SolverTable
  schedule : ParallelSchedule Float
  model : String
  data : Option String

/-- What a rehearsal shows. -/
structure Transcript where
  report : RunReport
  /-- What was printed, in order. -/
  printed : List String
  /-- What was reported, in order. -/
  notices : List Notice

/-- The begin of a rehearsal. -/
def Stage.begin (h : Host) (plan : RehearsalPlan) : Stage :=
  let memory : MemoryLimit := ⟨Host.totalMemory, plan.settings.memoryPercent⟩
  let idle : Run Float :=
    Run.idle plan.settings plan.goal plan.tracked plan.table memory h.now
  let announced := idle.note (.info s!"running schedule {plan.schedule.render}")
  Stage.settle
    { host := h
      run := announced.start plan.schedule h.now
      model := plan.model
      data := plan.data
      cache := .empty
      tasks := []
      inbox := []
      kills := []
      nextTick := h.now
      printed := []
      notices := [] }

/-- Rehearses a run. -/
def rehearse (h : Host) (plan : RehearsalPlan) : Transcript :=
  let s := Stage.conduct Host.patience (Stage.begin h plan)
  let (s, report) := s.shutDown Host.patience
  { report, printed := s.printed.reverse, notices := s.notices.reverse }

end SolverPortfolio
