import SolverPortfolio.Supervision.Events
import Mathlib.Tactic.Simps.Basic

/-
# What a run never looks at

No decision of a run depends on the processes recorded as running, nor on what it has
asked for before. Whatever is done to a run that has other processes running and has
asked for other things before is the same as what is done to the run itself.

Main definitions: `Run.amid`, `Run.core`, `RunEvent.record`.
Main statements: `Run.handle_amid`, `Run.core_handle`, `Run.running_handle`.
-/

namespace SolverPortfolio

/-- The processes recorded as running after a message. -/
def Message.record (m : Message) (running : List ((WorkerId × Nat) × ProcessId)) :
    List ((WorkerId × Nat) × ProcessId) :=
  match m with
  | .launched id generation process _ =>
    running.filter (fun p => p.1 ≠ (id, generation)) ++ [((id, generation), process)]
  | .exited id generation _ _ => running.filter fun p => p.1 ≠ (id, generation)
  | _ => running

/-- The processes recorded as running after an event. -/
def RunEvent.record (e : RunEvent) (running : List ((WorkerId × Nat) × ProcessId)) :
    List ((WorkerId × Nat) × ProcessId) :=
  match e with
  | .message m => m.record running
  | _ => running

namespace Run

variable {α : Type}

/-- A run with other processes running, which asked for more before. -/
@[simps]
def amid (r : Run α) (running : List ((WorkerId × Nat) × ProcessId)) (before : List Effect) :
    Run α :=
  { r with running, effects := r.effects ++ before }

/-- The run that is left of a slot, with other processes running, which asked for more before. -/
def Served.amid (served : Served α) (running : List ((WorkerId × Nat) × ProcessId))
    (before : List Effect) : Served α :=
  match served with
  | .passed r => .passed (r.amid running before)
  | .settled r => .settled (r.amid running before)

variable (r : Run α) (running : List ((WorkerId × Nat) × ProcessId)) (before : List Effect)

theorem ite_amid (c : Prop) [Decidable c] (r r' : Run α) :
    (if c then r.amid running before else r'.amid running before)
      = (if c then r else r').amid running before := by
  split <;> rfl

/-! ## Effects and workers -/

@[simp] theorem emit_amid (e : Effect) :
    (r.amid running before).emit e = (r.emit e).amid running before := rfl

@[simp] theorem note_amid (n : Notice) :
    (r.amid running before).note n = (r.note n).amid running before := rfl

@[simp] theorem releaseProcess_amid (process : Option ProcessId) :
    (r.amid running before).releaseProcess process
      = (r.releaseProcess process).amid running before := by
  cases process <;> rfl

@[simp] theorem worker?_amid (id : WorkerId) :
    (r.amid running before).worker? id = r.worker? id := rfl

@[simp] theorem updateWorker_amid (id : WorkerId) (f : Worker → Worker) :
    (r.amid running before).updateWorker id f = (r.updateWorker id f).amid running before := rfl

@[simp] theorem endWorker_amid (id : WorkerId) (cause : TerminationCause) :
    (r.amid running before).endWorker id cause = (r.endWorker id cause).amid running before := by
  simp only [endWorker, worker?_amid]
  cases r.worker? id <;> simp

@[simp] theorem isLive_amid (id : WorkerId) :
    (r.amid running before).isLive id = r.isLive id := rfl

@[simp] theorem launch_amid (id : WorkerId) (now : Instant) :
    (r.amid running before).launch id now = (r.launch id now).amid running before := by
  simp only [launch, worker?_amid]
  cases r.worker? id with
  | none => rfl
  | some w =>
    dsimp only
    rw [amid_table]
    cases r.table.find? w.name with
    | none => simp
    | some solver =>
      dsimp only
      split <;> rfl

@[simp] theorem addAndLaunch_amid (name : String) (placement : Placement) (now : Instant) :
    (r.amid running before).addAndLaunch name placement now
      = (r.addAndLaunch name placement now).amid running before :=
  launch_amid (r.addWorker name placement) running before r.workers.length now

/-! ## The queue -/

@[simp] theorem resumeWorker_amid (w : Worker) :
    (r.amid running before).resumeWorker w = (r.resumeWorker w).amid running before := by
  unfold resumeWorker
  cases w.process <;> rfl

@[simp] theorem suspendWorker_amid (w : Worker) :
    (r.amid running before).suspendWorker w = (r.suspendWorker w).amid running before := by
  unfold suspendWorker
  cases w.process <;> rfl

@[simp] theorem lastQueued?_amid (solver : String) :
    (r.amid running before).lastQueued? solver = r.lastQueued? solver := rfl

variable [Timed α]

omit [Timed α] in
@[simp] theorem isSuspended_amid : (r.amid running before).isSuspended = r.isSuspended := rfl

theorem nextSlot_amid (now : Instant) :
    (r.amid running before).nextSlot now
      = ((r.nextSlot now).1, (r.nextSlot now).2.amid running before) := by
  cases hq : r.queue with
  | cons slot rest =>
    simp only [nextSlot, amid_queue, hq]
    rfl
  | nil =>
    simp [nextSlot, hq, remaining, sharedSlots, nameOf, worker?]
    split
    · rfl
    · split <;> rfl

omit [Timed α] in
theorem serveNewWorker_amid (slot : Slot α) (allotted : Duration) (deadline now : Instant) :
    (r.amid running before).serveNewWorker slot allotted deadline now
      = (r.serveNewWorker slot allotted deadline now).amid running before := by
  simp only [serveNewWorker, addAndLaunch_amid, isLive_amid, amid_workers]
  split <;> rfl

omit [Timed α] in
@[simp] theorem remaining_amid (now : Instant) :
    (r.amid running before).remaining now = r.remaining now := rfl

theorem serveSlot_amid (slot : Slot α) (now : Instant) :
    (r.amid running before).serveSlot slot now
      = (r.serveSlot slot now).amid running before := by
  have hcarry : { r.amid running before with carry := 0 }
      = ({ r with carry := 0 } : Run α).amid running before := rfl
  by_cases hpos : Timed.isPositive slot.seconds
  · by_cases hlate : r.remaining now < shortestSlot
    · have hlate' : (r.amid running before).remaining now < shortestSlot := hlate
      simp only [serveSlot, if_pos hpos, if_pos hlate, if_pos hlate']
      rfl
    · simp only [serveSlot, if_pos hpos, if_neg hlate, remaining_amid, hcarry, amid_carry,
        lastQueued?_amid]
      cases Run.lastQueued? { r with carry := 0 } slot.solver with
      | none => exact serveNewWorker_amid _ running before _ _ _ now
      | some w =>
        dsimp only
        split
        · split
          · simp only [resumeWorker_amid]
            rfl
          · rfl
        · split
          · exact serveNewWorker_amid _ running before _ _ _ now
          · rfl
  · simp only [serveSlot, if_neg hpos]
    rfl

theorem serve?_amid (fuel : Nat) (now : Instant) :
    serve? fuel (r.amid running before) now
      = (serve? fuel r now).map (·.amid running before) := by
  induction fuel generalizing r with
  | zero => rfl
  | succ fuel ih =>
    simp only [serve?, nextSlot_amid]
    generalize r.nextSlot now = next
    obtain ⟨slot, r'⟩ := next
    cases slot with
    | none => rfl
    | some slot =>
      simp only [serveSlot_amid]
      cases r'.serveSlot slot now with
      | settled r'' => rfl
      | passed r'' => exact ih r''

@[simp] theorem advance_amid (now : Instant) :
    (r.amid running before).advance now = (r.advance now).amid running before := by
  -- The run that has left its slot is looked at in place of the one with other processes.
  show (if r.incumbent.cancelled then Run.amid { r with current := none } running before
    else (serve? (r.queue.length + r.suspended.length + 2)
      (Run.amid { r with current := none } running before) now).getD
        (Run.amid { r with current := none } running before)) = _
  rw [serve?_amid]
  unfold advance
  dsimp only
  split
  · rfl
  · cases serve? (r.queue.length + r.suspended.length + 2) { r with current := none } now <;> rfl

@[simp] theorem terminate_amid (id : WorkerId) (cause : TerminationCause) (now : Instant) :
    (r.amid running before).terminate id cause now
      = (r.terminate id cause now).amid running before := by
  simp only [terminate, endWorker_amid, amid_current]
  generalize r.endWorker id cause = r
  split
  · rfl
  · next slot hslot =>
    split
    · exact advance_amid { r with carry := r.carry + (slot.deadline - now) } running before now
    · rfl

@[simp] theorem expireSlot_amid (now : Instant) :
    (r.amid running before).expireSlot now = (r.expireSlot now).amid running before := by
  have hleave : { r.amid running before with current := none }
      = ({ r with current := none } : Run α).amid running before := rfl
  simp only [expireSlot, amid_current]
  split
  · rfl
  · simp only [hleave, worker?_amid]
    split
    · exact advance_amid _ running before now
    · simp only [amid_settings, suspendWorker_amid, note_amid, endWorker_amid]
      split <;> exact advance_amid _ running before now

/-! ## Output -/

omit [Timed α] in
@[simp] theorem printSolution_amid (s : Solution) :
    (r.amid running before).printSolution s = (r.printSolution s).amid running before := by
  unfold printSolution
  dsimp only
  split <;> rfl

omit [Timed α] in
@[simp] theorem offerBound_amid (w : Worker) (value : Objective) :
    (r.amid running before).offerBound w value = (r.offerBound w value).amid running before := by
  simp only [offerBound, amid_incumbent]
  split <;> rfl

@[simp] theorem acceptSolution_amid (w : Worker) (s : Solution) (now : Instant) :
    (r.amid running before).acceptSolution w s now
      = (r.acceptSolution w s now).amid running before := by
  simp only [acceptSolution]
  generalize hr' : r.updateWorker w.id (fun w => (w.recordSolution now r.goal s.objective).1) = r'
  have hupdate : (r.amid running before).updateWorker w.id
      (fun w => (w.recordSolution now (r.amid running before).goal s.objective).1)
      = r'.amid running before := by rw [← hr']; rfl
  rw [hupdate]
  by_cases hgoal : r'.goal = .satisfy
  · have hgoal' : (r'.amid running before).goal = .satisfy := hgoal
    rw [if_pos hgoal, if_pos hgoal']
    by_cases hall : r'.settings.allSolutions
    · have hall' : (r'.amid running before).settings.allSolutions := hall
      rw [if_pos hall, if_pos hall', printSolution_amid]
    · have hall' : ¬ (r'.amid running before).settings.allSolutions := hall
      rw [if_neg hall, if_neg hall']
      simp only [amid_incumbent]
      split
      · rw [← note_amid, ← terminate_amid, ← printSolution_amid]
        rfl
      · rfl
  · have hgoal' : ¬ (r'.amid running before).goal = .satisfy := hgoal
    rw [if_neg hgoal, if_neg hgoal']
    split
    · next value =>
      simp only [amid_incumbent, amid_lastPrinted]
      split
      · rw [← printSolution_amid]
        rfl
      · rfl
    · simp only [note_amid, amid_solutions, printSolution_amid, ite_amid]

omit [Timed α] in
@[simp] theorem proofOf_amid (w : Worker) (status : SearchStatus) :
    (r.amid running before).proofOf w status = r.proofOf w status := rfl

omit [Timed α] in
@[simp] theorem declareProof_amid (w : Worker) (proof : Proof) :
    (r.amid running before).declareProof w proof
      = (r.declareProof w proof).amid running before := by
  simp only [declareProof, amid_incumbent]
  split <;> rfl

@[simp] theorem completeSearch_amid (w : Worker) (status : SearchStatus) (now : Instant) :
    (r.amid running before).completeSearch w status now
      = (r.completeSearch w status now).amid running before := by
  have hsame : (r.amid running before).contradicts w status = r.contradicts w status := rfl
  unfold completeSearch
  rw [hsame]
  by_cases hc : r.contradicts w status
  · simp only [if_pos hc, note_amid, proofOf_amid]
    split
    · rw [declareProof_amid, terminate_amid]
    · rw [terminate_amid]
  · simp only [if_neg hc, proofOf_amid]
    split
    · rw [declareProof_amid, terminate_amid]
    · rw [terminate_amid]

theorem acceptOutput_amid (w : Worker) (event : StreamEvent) (now : Instant) :
    (r.amid running before).acceptOutput w event now
      = (r.acceptOutput w event now).amid running before := by
  cases event <;> simp [acceptOutput]

/-! ## Messages -/

omit [Timed α] in
theorem acceptLaunch_amid (w : Worker) (generation : Nat) (process : ProcessId)
    (injected : Option Objective) (now : Instant) :
    (r.amid running before).acceptLaunch w generation process injected now
      = (r.acceptLaunch w generation process injected now).amid running before := by
  simp only [acceptLaunch, amid_paused]
  split
  · split <;> rfl
  · rfl

theorem acceptExit_amid (w : Worker) (success : Bool) (code : Option Int) (now : Instant) :
    (r.amid running before).acceptExit w success code now
      = (r.acceptExit w success code now).amid running before := by
  cases success <;> simp [acceptExit]

theorem receive_amid (m : Message) (now : Instant) :
    (r.amid running before).receive m now
      = (r.receive m now).amid (m.record running) before := by
  cases m with
  | launched id generation process injected =>
    have hadd : (r.amid running before).addRunning (id, generation) process
        = (r.addRunning (id, generation) process).amid
            ((Message.launched id generation process injected).record running) before := rfl
    simp only [receive, hadd, worker?_amid]
    split
    · rfl
    · exact acceptLaunch_amid _ _ before _ generation process injected now
  | launchFailed id generation =>
    simp only [receive, worker?_amid]
    split
    · rfl
    · split
      · exact terminate_amid r running before id _ now
      · rfl
  | output id generation event =>
    simp only [receive, worker?_amid]
    split
    · rfl
    · split
      · exact acceptOutput_amid r running before _ event now
      · rfl
  | exited id generation success code =>
    have hremove : (r.amid running before).removeRunning (id, generation)
        = (r.removeRunning (id, generation)).amid
            ((Message.exited id generation success code).record running) before := rfl
    simp only [receive, hremove, worker?_amid]
    split
    · rfl
    · split
      · exact acceptExit_amid _ _ before _ success code now
      · rfl

/-! ## The monitor and signals -/

omit [Timed α] in
@[simp] theorem overLimit_amid (usage : ProcessId → Nat) :
    (r.amid running before).overLimit usage = r.overLimit usage := rfl

omit [Timed α] in
theorem nameOf_amid (id : WorkerId) : (r.amid running before).nameOf id = r.nameOf id := rfl

@[simp] theorem evict_amid (id : WorkerId) (usage : Nat) (now : Instant) :
    (r.amid running before).evict id usage now = (r.evict id usage now).amid running before := by
  simp [evict, nameOf_amid]

omit [Timed α] in
@[simp] theorem restart_amid (id : WorkerId) (now : Instant) :
    (r.amid running before).restart id now = (r.restart id now).amid running before := by
  simp only [restart, worker?_amid]
  split
  · rfl
  · simp

@[simp] theorem checkStagnation_amid (best : Option Objective) (id : WorkerId) (now : Instant) :
    (r.amid running before).checkStagnation best id now
      = (r.checkStagnation best id now).amid running before := by
  simp only [checkStagnation, worker?_amid]
  split
  · rfl
  · simp only [amid_settings, goal, amid_incumbent]
    split
    · rfl
    · simp
    · simp

@[simp] theorem monitor_amid (usage : ProcessId → Nat) (now : Instant) :
    (r.amid running before).monitor usage now = (r.monitor usage now).amid running before := by
  have hevict : (r.overLimit usage).foldl (fun r x => r.evict x.1 x.2 now) (r.amid running before)
      = ((r.overLimit usage).foldl (fun r x => r.evict x.1 x.2 now) r).amid running before :=
    List.foldl_hom (fun r : Run α => r.amid running before)
      fun r x => evict_amid r running before x.1 x.2 now
  simp only [monitor, overLimit_amid, hevict]
  generalize (r.overLimit usage).foldl (fun r x => r.evict x.1 x.2 now) r = r
  by_cases hgoal : r.goal.isOptimization
  · have hgoal' : (r.amid running before).goal.isOptimization := hgoal
    rw [if_pos hgoal, if_pos hgoal']
    exact List.foldl_hom (fun r : Run α => r.amid running before)
      fun r' id => checkStagnation_amid r' running before r.incumbent.best id now
  · have hgoal' : ¬ (r.amid running before).goal.isOptimization := hgoal
    rw [if_neg hgoal, if_neg hgoal']

omit [Timed α] in
@[simp] theorem signal_amid (s : RunSignal) :
    (r.amid running before).signal s = (r.signal s).amid running before := by
  have hemit (f : ProcessId → Effect) (l : List ProcessId) (r : Run α) :
      l.foldl (fun r process => r.emit (f process)) (r.amid running before)
        = (l.foldl (fun r process => r.emit (f process)) r).amid running before :=
    List.foldl_hom (fun r : Run α => r.amid running before) fun r process => emit_amid r _ _ _
  cases s with
  | abort => rfl
  | suspend => exact hemit .pause r.solvingProcesses { r with paused := true }
  | resume => exact hemit .wake r.solvingProcesses { r with paused := false }

/-- An event is answered in the same way whatever is running and was asked for. -/
theorem handle_amid (e : RunEvent) (now : Instant) :
    (r.amid running before).handle e now = (r.handle e now).amid (e.record running) before := by
  cases e with
  | message m => exact receive_amid r running before m now
  | slotExpired => exact expireSlot_amid r running before now
  | tick usage => exact monitor_amid r running before usage now
  | signal s => exact signal_amid r running before s

/-! ## The core of a run -/

omit [Timed α] in
/-- All of a run but the record of the running processes and what it asked for. -/
def core (r : Run α) : Run α := { r with running := [], effects := [] }

omit [Timed α] in
/-- A run is its core with what is running and what it asked for. -/
theorem amid_core : r.core.amid r.running r.effects = r := rfl

omit [Timed α] in
@[simp] theorem core_amid : (r.amid running before).core = r.core := rfl

/-- What becomes of the core of a run is up to its core. -/
theorem core_handle (e : RunEvent) (now : Instant) :
    (r.handle e now).core = (r.core.handle e now).core := by
  rw [← congrArg (fun r => core (handle r e now)) r.amid_core, handle_amid, core_amid]

/-- What becomes of the record of the running processes is up to this record. -/
theorem running_handle (e : RunEvent) (now : Instant) :
    (r.handle e now).running = e.record r.running :=
  congrArg Run.running (handle_amid r.core r.running r.effects e now)

end Run

end SolverPortfolio
