import SolverPortfolio.Proofs.Move
import SolverPortfolio.Supervision.Events

/-
# What an event does to a run

A run answers an event with one response, which depends on the event, and then
does what is to be done when workers have ended or a slot has run out.
`Run.Response` lists the responses with all that is known when they are given;
`Run.handle_follows` says that there are no others. A tick of the monitor is
different in that it may end and restart several workers.

Main definitions: `Message.key`, `Solution.prints`, `Run.Shows`, `Run.Response`,
`Run.Intervention`, `Run.Round`, `Run.Watch`.
Main statements: `Run.handle_follows`.
-/

namespace SolverPortfolio

/-- The worker and the generation that a message is about. -/
def Message.key : Message → WorkerId × Nat
  | .launched id generation _ _ => (id, generation)
  | .launchFailed id generation => (id, generation)
  | .output id generation _ => (id, generation)
  | .exited id generation _ _ => (id, generation)

/-- The lines that print a solution, the latest first. -/
def Solution.prints (s : Solution) : List Effect :=
  let assignment := String.ofList (Text.trimEnd s.assignment.toList)
  if assignment.isEmpty then [.print solutionTerminator]
  else [.print solutionTerminator, .print assignment]

namespace Run

variable {α : Type}

/-- Is a solution of a problem with an objective printed? It is if it has the best value known and
was not the last one printed, or if it has no value and is the first one. -/
def Shows (r : Run α) (s : Solution) : Prop :=
  match s.objective with
  | some value => r.incumbent.best = some value ∧ r.lastPrinted ≠ some value
  | none => r.solutions = 0

/-- The running processes when a generation of a worker has another one, or none any more. -/
def runningWithout (r : Run α) (key : WorkerId × Nat) : List ((WorkerId × Nat) × ProcessId) :=
  r.running.filter fun p => p.1 ≠ key

/-- What an event that is no tick changes at once. -/
inductive Response (now : Instant) (r : Run α) : RunEvent → Run α → Prop where
  /-- A process is taken up by the worker that waits for it. -/
  | launched {w : Worker} (process : ProcessId) (injected : Option Objective)
      (hw : r.worker? w.id = some w) (hp : w.phase = .converting ∨ w.phase = .restarting) :
      Response now r (.message (.launched w.id w.generation process injected)) { r with
        workers := r.workers.modify w.id (·.launched now process injected)
        running := r.runningWithout (w.id, w.generation) ++ [((w.id, w.generation), process)]
        effects := (if r.paused then [.pause process] else []) ++ r.effects }
  /-- A process is given up, because nobody waits for it. -/
  | refused {w : Worker} {generation : Nat} (process : ProcessId) (injected : Option Objective)
      (hw : r.worker? w.id = some w)
      (h : ¬ (w.generation = generation ∧ (w.phase = .converting ∨ w.phase = .restarting))) :
      Response now r (.message (.launched w.id generation process injected)) { r with
        running := r.runningWithout (w.id, generation) ++ [((w.id, generation), process)]
        effects := .release process :: r.effects }
  /-- A worker ends, because its launch failed. -/
  | failed {w : Worker} (hw : r.worker? w.id = some w) (hl : w.isLive) :
      Response now r (.message (.launchFailed w.id w.generation)) { r with
        workers := r.workers.modify w.id (·.terminate .conversionFailure)
        effects := w.process.toList.map .release ++ r.effects }
  | failedLate {w : Worker} {generation : Nat} (hw : r.worker? w.id = some w)
      (h : ¬ (w.generation = generation ∧ w.isLive)) :
      Response now r (.message (.launchFailed w.id generation)) r
  /-- What an outdated process or the process of an ended worker prints is not heard. -/
  | outputLate {w : Worker} {generation : Nat} (event : StreamEvent)
      (hw : r.worker? w.id = some w) (h : ¬ (w.generation = generation ∧ w.isLive)) :
      Response now r (.message (.output w.id generation event)) r
  /-- A value is offered as the best one. -/
  | bound {w : Worker} (value : Objective) (notes : List Notice) (hw : r.worker? w.id = some w)
      (hl : w.isLive) :
      Response now r (.message (.output w.id w.generation (.bound value))) { r with
        incumbent := (r.incumbent.offer value).1
        effects := notes.map .notice ++ r.effects }
  /-- A solution of a problem with an objective is recorded and printed. -/
  | shown {w : Worker} (s : Solution) (notes : List Notice) (hw : r.worker? w.id = some w)
      (hl : w.isLive) (hg : r.goal ≠ .satisfy) (hs : r.Shows s) :
      Response now r (.message (.output w.id w.generation (.solution s))) { r with
        workers := r.workers.modify w.id fun w => (w.recordSolution now r.goal s.objective).1
        lastPrinted := s.objective <|> r.lastPrinted
        solutions := r.solutions + 1
        effects := s.prints ++ (notes.map .notice ++ r.effects) }
  /-- A solution of a problem with an objective is recorded only. -/
  | recorded {w : Worker} (s : Solution) (notes : List Notice) (hw : r.worker? w.id = some w)
      (hl : w.isLive) (hg : r.goal ≠ .satisfy) (hs : ¬ r.Shows s) :
      Response now r (.message (.output w.id w.generation (.solution s))) { r with
        workers := r.workers.modify w.id fun w => (w.recordSolution now r.goal s.objective).1
        effects := notes.map .notice ++ r.effects }
  /-- All solutions of a problem without objective are wanted. -/
  | counted {w : Worker} (s : Solution) (hw : r.worker? w.id = some w) (hl : w.isLive)
      (hg : r.goal = .satisfy) (ha : r.settings.allSolutions) :
      Response now r (.message (.output w.id w.generation (.solution s))) { r with
        workers := r.workers.modify w.id fun w => (w.recordSolution now r.goal s.objective).1
        solutions := r.solutions + 1
        effects := s.prints ++ r.effects }
  /-- The first solution of a problem without objective wins the run. -/
  | satisfied {w : Worker} (s : Solution) (hw : r.worker? w.id = some w) (hl : w.isLive)
      (hg : r.goal = .satisfy) (hn : r.incumbent.winner = none) :
      Response now r (.message (.output w.id w.generation (.solution s))) { r with
        incumbent := (r.incumbent.declareWinner w.name .satisfied).1
        workers := (r.workers.modify w.id fun w =>
          (w.recordSolution now r.goal s.objective).1).modify w.id (·.terminate .finished)
        solutions := r.solutions + 1
        effects := w.process.toList.map .release ++ (s.prints ++ r.effects) }
  /-- A solution of a problem without objective comes too late. -/
  | surplus {w : Worker} (s : Solution) (hw : r.worker? w.id = some w) (hl : w.isLive)
      (hg : r.goal = .satisfy) (hn : r.incumbent.winner ≠ none) :
      Response now r (.message (.output w.id w.generation (.solution s))) { r with
        workers := r.workers.modify w.id fun w => (w.recordSolution now r.goal s.objective).1 }
  /-- A complete search proves something, and wins the run. -/
  | proved {w : Worker} {status : SearchStatus} {proof : Proof} (n : Notice)
      (hw : r.worker? w.id = some w) (hl : w.isLive) (hp : r.proofOf w status = some proof)
      (hn : r.incumbent.winner = none) :
      Response now r (.message (.output w.id w.generation (.completed status))) { r with
        incumbent := (r.incumbent.declareWinner w.name proof).1
        workers := r.workers.modify w.id (·.terminate (.completed status))
        effects := w.process.toList.map .release ++
          (.print (closingLine proof) :: .notice n :: r.effects) }
  /-- A complete search proves nothing, or comes too late. -/
  | completed {w : Worker} {status : SearchStatus} (notes : List Notice)
      (hw : r.worker? w.id = some w) (hl : w.isLive)
      (hp : r.proofOf w status = none ∨ r.incumbent.winner ≠ none) :
      Response now r (.message (.output w.id w.generation (.completed status))) { r with
        workers := r.workers.modify w.id (·.terminate (.completed status))
        effects := w.process.toList.map .release ++ (notes.map .notice ++ r.effects) }
  /-- A worker ends with its process. -/
  | exited {w : Worker} {success : Bool} {code : Option Int} (n : Notice)
      (hw : r.worker? w.id = some w) (hp : w.phase = .solving ∨ w.phase = .suspended) :
      Response now r (.message (.exited w.id w.generation success code)) { r with
        running := r.runningWithout (w.id, w.generation)
        workers := r.workers.modify w.id
          (·.terminate (if success then .finished else .crashed code))
        effects := w.process.toList.map .release ++ (.notice n :: r.effects) }
  | exitedLate {w : Worker} {generation : Nat} (success : Bool) (code : Option Int)
      (hw : r.worker? w.id = some w)
      (h : ¬ (w.generation = generation ∧ (w.phase = .solving ∨ w.phase = .suspended))) :
      Response now r (.message (.exited w.id generation success code)) { r with
        running := r.runningWithout (w.id, generation) }
  /-- No worker has a slot that could run out. -/
  | idle (h : ∀ slot w, r.current = some slot → r.worker? slot.worker ≠ some w) :
      Response now r .slotExpired r
  /-- The slot of a worker that lately found a solution runs out. -/
  | suspended {w : Worker} {slot : CurrentSlot} (n : Notice) (hc : r.current = some slot)
      (hs : slot.worker = w.id) (hw : r.worker? w.id = some w) (hp : w.phase = .solving)
      (he : w.slotExpiry now r.settings.waitTime = .suspend) :
      Response now r .slotExpired { r with
        current := none
        workers := r.workers.modify w.id (·.suspend)
        suspended := r.suspended ++ [w.id]
        effects := .notice n :: (w.process.toList.map .pause ++ r.effects) }
  /-- The slot of any other worker runs out. -/
  | expired {w : Worker} {slot : CurrentSlot} (n : Notice) (hc : r.current = some slot)
      (hs : slot.worker = w.id) (hw : r.worker? w.id = some w)
      (he : ¬ (w.phase = .solving ∧ w.slotExpiry now r.settings.waitTime = .suspend)) :
      Response now r .slotExpired { r with
        current := none
        workers := r.workers.modify w.id (·.terminate .slotExpired)
        effects := w.process.toList.map .release ++ (.notice n :: r.effects) }
  | aborted (n : Notice) :
      Response now r (.signal .abort) { r with
        aborted := true
        incumbent := r.incumbent.cancel
        effects := .notice n :: r.effects }
  | paused :
      Response now r (.signal .suspend) { r with
        paused := true
        effects := (r.solvingProcesses.map .pause).reverse ++ r.effects }
  | woken :
      Response now r (.signal .resume) { r with
        paused := false
        effects := (r.solvingProcesses.map .wake).reverse ++ r.effects }

/-- What the monitor does to a worker. -/
inductive Intervention (now : Instant) (r : Run α) : Run α → Prop where
  /-- A worker ends, and its process is given up. -/
  | finish {w : Worker} (cause : TerminationCause) (hw : r.worker? w.id = some w) :
      Intervention now r { r with
        workers := r.workers.modify w.id (·.terminate cause)
        effects := w.process.toList.map .release ++ r.effects }
  /-- A worker that stagnates, and was not restarted too often, is restarted. -/
  | restart {w : Worker} {best : Option Objective} (n : Notice) (hw : r.worker? w.id = some w)
      (hs : w.stagnation now r.goal best r.settings.restartTime r.settings.maxRestarts = .restart) :
      Intervention now r { r with
        workers := r.workers.modify w.id (·.beginRestart r.settings.switchSearch)
        effects := (r.table.find? w.name).toList.map (fun solver =>
            .launch (r.request (w.beginRestart r.settings.switchSearch) solver now)) ++
          (.notice n :: (w.process.toList.map .release ++ r.effects)) }

/-- What a tick of the monitor does: moves and interventions, one after another. -/
abbrev Round (now : Instant) : Run α → Run α → Prop :=
  Relation.ReflTransGen fun r r' => Move now r r' ∨ Intervention now r r'

/-- Moves make up a round. -/
theorem Moves.round {now : Instant} {r r' : Run α} (h : Moves now r r') : Round now r r' :=
  Relation.ReflTransGen.mono (fun _ _ hm => Or.inl hm) _ _ h

/-- A numbered run stays so when the monitor intervenes. -/
theorem Intervention.numbered {now : Instant} {r r' : Run α} (h : Intervention now r r')
    (hr : r.Numbered) : r'.Numbered := by
  cases h with
  | finish cause hw => exact hr.modify rfl fun _ => rfl
  | restart n hw hs => exact hr.modify rfl fun _ => rfl

/-- A numbered run stays so in a round. -/
theorem Round.numbered {now : Instant} {r r' : Run α} (h : Round now r r') (hr : r.Numbered) :
    r'.Numbered := by
  induction h with
  | refl => exact hr
  | tail _ hm ih => exact hm.elim (fun hm => hm.numbered ih) (fun hm => hm.numbered ih)

/-! ## Printing -/

/-- Printing a solution counts it and prints its lines. -/
theorem printSolution_eq (r : Run α) (s : Solution) :
    r.printSolution s
      = { r with solutions := r.solutions + 1, effects := s.prints ++ r.effects } := by
  unfold printSolution Solution.prints
  dsimp only
  split <;> rfl

/-- Suspending a worker changes that worker, and pauses its process. -/
theorem suspendWorker_eq (r : Run α) (w : Worker) :
    r.suspendWorker w = { r with
      workers := r.workers.modify w.id (·.suspend)
      suspended := r.suspended ++ [w.id]
      effects := .notice (.info s!"suspended solver '{w.name}'") ::
        (w.process.toList.map .pause ++ r.effects) } := by
  unfold suspendWorker
  cases w.process <;> rfl

/-- Effects that are asked for one after another. -/
theorem foldl_emit {β : Type} (f : β → Effect) (l : List β) (r : Run α) :
    l.foldl (fun r x => r.emit (f x)) r
      = { r with effects := (l.map f).reverse ++ r.effects } := by
  induction l generalizing r with
  | nil => rfl
  | cons x l ih =>
    rw [List.foldl_cons, ih]
    simp [emit]

/-! ## Signals -/

/-- The response to a signal. -/
theorem response_signal (r : Run α) (s : RunSignal) (now : Instant) :
    Response now r (.signal s) (r.signal s) := by
  cases s with
  | abort => exact Response.aborted (.warning "run aborted by signal")
  | suspend =>
    simp only [signal, foldl_emit]
    exact Response.paused
  | resume =>
    simp only [signal, foldl_emit]
    exact Response.woken

/-! ## Messages -/

/-- The response to a value that is announced. -/
theorem response_bound {r : Run α} {w : Worker} (hw : r.worker? w.id = some w) (hl : w.isLive)
    (value : Objective) (now : Instant) :
    Response now r (.message (.output w.id w.generation (.bound value)))
      (r.offerBound w value) := by
  unfold offerBound
  dsimp only
  split
  · exact Response.bound value [.info s!"new best bound {value} from solver '{w.name}'"] hw hl
  · exact Response.bound value [] hw hl

variable [Timed α]

/-- What follows the end of a worker, begun with what the response has changed before. -/
theorem follows_of_endWorker {r r₁ : Run α} {w : Worker} {cause : TerminationCause}
    {now : Instant} (hw : r.worker? w.id = some w)
    (h : r₁ = { r with
      workers := r.workers.modify w.id (·.terminate cause)
      effects := w.process.toList.map .release ++ r.effects }) :
    Follows now r₁ (r.terminate w.id cause now) := by
  rw [h, ← endWorker_eq hw]
  exact r.follows_terminate w.id cause now

/-- The response to a process that was launched. -/
theorem response_launched {r : Run α} {w : Worker} (hw : r.worker? w.id = some w)
    (generation : Nat) (process : ProcessId) (injected : Option Objective) (now : Instant) :
    Response now r (.message (.launched w.id generation process injected))
      (r.receive (.launched w.id generation process injected) now) := by
  have hw' : (r.addRunning (w.id, generation) process).worker? w.id = some w := hw
  simp only [receive, hw', acceptLaunch]
  split
  · next h =>
    obtain ⟨rfl, hp⟩ := h
    have hresp : Response now r _ _ := Response.launched process injected hw hp
    cases hpaused : r.paused <;>
      simpa [addRunning, hpaused, emit, updateWorker, runningWithout] using hresp
  · next h => exact Response.refused process injected hw h

/-- The response to a launch that failed. -/
theorem response_launchFailed {r : Run α} {w : Worker}
    (hw : r.worker? w.id = some w) (generation : Nat) (now : Instant) :
    ∃ r₁, Response now r (.message (.launchFailed w.id generation)) r₁ ∧
      Follows now r₁ (r.receive (.launchFailed w.id generation) now) := by
  simp only [receive, hw]
  split
  · next h =>
    obtain ⟨rfl, hl⟩ := h
    exact ⟨_, Response.failed hw hl, follows_of_endWorker hw rfl⟩
  · next h => exact ⟨r, Response.failedLate hw h, Relation.ReflTransGen.refl⟩

/-- The response to the end of a process. -/
theorem response_exited {r : Run α} {w : Worker}
    (hw : r.worker? w.id = some w) (generation : Nat) (success : Bool) (code : Option Int)
    (now : Instant) :
    ∃ r₁, Response now r (.message (.exited w.id generation success code)) r₁ ∧
      Follows now r₁ (r.receive (.exited w.id generation success code) now) := by
  have hw' : (r.removeRunning (w.id, generation)).worker? w.id = some w := hw
  simp only [receive, hw']
  split
  · next h =>
    obtain ⟨rfl, hp⟩ := h
    unfold acceptExit
    cases success with
    | true => exact ⟨_, Response.exited (.info s!"solver '{w.name}' finished") hw hp,
        follows_of_endWorker (r := note (r.removeRunning _) _) hw rfl⟩
    | false => exact ⟨_, Response.exited
        (.error s!"solver '{w.name}' crashed with exit code {showOption code}") hw hp,
        follows_of_endWorker (r := note (r.removeRunning _) _) hw rfl⟩
  · next h => exact ⟨_, Response.exitedLate success code hw h, Relation.ReflTransGen.refl⟩

/-! ## Output -/

/-- The response to a solution where there is an objective. -/
theorem response_solution {r : Run α} {w : Worker} (hw : r.worker? w.id = some w) (hl : w.isLive)
    (hg : r.goal ≠ .satisfy) (s : Solution) (now : Instant) :
    Response now r (.message (.output w.id w.generation (.solution s)))
      (r.acceptSolution w s now) := by
  have hg' (f : Worker → Worker) : (r.updateWorker w.id f).goal ≠ .satisfy := hg
  have hshown (notes : List Notice) (h : r.Shows s) : Response now r _ _ :=
    Response.shown s notes hw hl hg h
  have hrecorded (notes : List Notice) (h : ¬ r.Shows s) : Response now r _ _ :=
    Response.recorded s notes hw hl hg h
  simp only [acceptSolution, if_neg (hg' _), printSolution_eq]
  cases hs : s.objective with
  | some value =>
    simp only [Shows, hs] at hshown hrecorded
    dsimp only
    split
    · next h => exact hshown [] h
    · next h => exact hrecorded [] h
  | none =>
    simp only [Shows, hs] at hshown hrecorded
    dsimp only
    split
    · next h =>
      exact hshown [.warning s!"solver '{w.name}' reported a solution without objective value"] h
    · next h =>
      exact hrecorded [.warning s!"solver '{w.name}' reported a solution without objective value"] h

/-- The response to a solution where there is no objective. -/
theorem response_satisfying {r : Run α} {w : Worker}
    (hw : r.worker? w.id = some w) (hl : w.isLive) (hg : r.goal = .satisfy) (s : Solution)
    (now : Instant) :
    ∃ r₁, Response now r (.message (.output w.id w.generation (.solution s))) r₁ ∧
      Follows now r₁ (r.acceptSolution w s now) := by
  have hg' (f : Worker → Worker) : (r.updateWorker w.id f).goal = .satisfy := hg
  simp only [acceptSolution, if_pos (hg' _), Incumbent.declareWinner_snd, printSolution_eq]
  split
  · next ha => exact ⟨_, Response.counted s hw hl hg ha, Relation.ReflTransGen.refl⟩
  · split
    · next hn =>
      have hn' : r.incumbent.winner = none := Option.isNone_iff_eq_none.mp hn
      obtain ⟨best, hbest⟩ := w.exists_recordSolution now r.goal s.objective
      refine ⟨_, Response.satisfied s hw hl hg hn', Relation.ReflTransGen.tail ?_ (Follow.report _)⟩
      have hself : (r.workers.modify w.id fun w =>
          (w.recordSolution now r.goal s.objective).1)[w.id]?
          = some { w with lastSolution := some now, best } := by
        rw [List.getElem?_modify_eq, show r.workers[w.id]? = some w from hw, ← hbest]
        rfl
      exact follows_of_endWorker (w := { w with lastSolution := some now, best }) hself rfl
    · next hn =>
      have hn' : r.incumbent.winner ≠ none := fun h => hn (Option.isNone_iff_eq_none.mpr h)
      refine ⟨_, Response.surplus s hw hl hg hn', ?_⟩
      rw [show (r.updateWorker w.id _).incumbent = r.incumbent from rfl,
        Incumbent.declareWinner_of_ne_none hn']
      exact Relation.ReflTransGen.refl

/-- The response to the end of a search. -/
theorem response_completed {r : Run α} {w : Worker}
    (hw : r.worker? w.id = some w) (hl : w.isLive) (status : SearchStatus) (now : Instant) :
    ∃ r₁, Response now r (.message (.output w.id w.generation (.completed status))) r₁ ∧
      Follows now r₁ (r.completeSearch w status now) := by
  unfold completeSearch
  by_cases hc : r.contradicts w status
  · have hp : r.proofOf w status = none := by
      simp only [contradicts, Bool.and_eq_true, Option.isNone_iff_eq_none] at hc
      exact hc.2
    have hp' (n : Notice) : (r.note n).proofOf w status = none := hp
    simp only [if_pos hc, hp']
    exact ⟨_, Response.completed
      [.warning s!"solver '{w.name}' reports unsatisfiable but a solution is known"] hw hl
      (Or.inl hp), follows_of_endWorker (r := note r _) hw rfl⟩
  · simp only [if_neg hc]
    cases hp : r.proofOf w status with
    | none => exact ⟨_, Response.completed [] hw hl (Or.inl hp), follows_of_endWorker hw rfl⟩
    | some proof =>
      simp only [declareProof, Incumbent.declareWinner_snd]
      split
      · next hn =>
        have hn' : r.incumbent.winner = none := Option.isNone_iff_eq_none.mp hn
        have hdeclared : Response now r _ _ := Response.proved
          (.info s!"solver '{w.name}' proved {proof.word}") hw hl hp hn'
        exact ⟨_, hdeclared, follows_of_endWorker (r := emit (note { r with incumbent := _ } _) _)
          hw rfl⟩
      · next hn =>
        have hn' : r.incumbent.winner ≠ none := fun h => hn (Option.isNone_iff_eq_none.mpr h)
        have hkeep := Incumbent.declareWinner_of_ne_none hn' w.name proof
        rw [hkeep]
        exact ⟨_, Response.completed [] hw hl (Or.inr hn'), follows_of_endWorker hw rfl⟩

/-- The response to what a worker prints. -/
theorem response_output {r : Run α} {w : Worker}
    (hw : r.worker? w.id = some w) (generation : Nat) (event : StreamEvent) (now : Instant) :
    ∃ r₁, Response now r (.message (.output w.id generation event)) r₁ ∧
      Follows now r₁ (r.receive (.output w.id generation event) now) := by
  simp only [receive, hw]
  split
  · next h =>
    obtain ⟨rfl, hl⟩ := h
    cases event with
    | bound value => exact ⟨_, response_bound hw hl value now, Relation.ReflTransGen.refl⟩
    | solution s =>
      by_cases hg : r.goal = .satisfy
      · exact response_satisfying hw hl hg s now
      · exact ⟨_, response_solution hw hl hg s now, Relation.ReflTransGen.refl⟩
    | completed status => exact response_completed hw hl status now
  · next h => exact ⟨r, Response.outputLate event hw h, Relation.ReflTransGen.refl⟩

/-! ## The end of a slot, and ticks -/

/-- The response to the end of a slot, after which the run goes on to the next one. -/
theorem response_slotExpired {r : Run α} (hr : r.Numbered) (now : Instant) :
    ∃ r₁, Response now r .slotExpired r₁ ∧
      (r.current = none ∧ r.expireSlot now = r₁ ∨
        r.current ≠ none ∧ r.expireSlot now = r₁.advance now ∧
          ∀ slot w, r₁.current = some slot → r₁.worker? slot.worker ≠ some w) := by
  unfold expireSlot
  split
  · next hc =>
    exact ⟨r, Response.idle (fun slot w h => by rw [hc] at h; cases h), Or.inl ⟨hc, rfl⟩⟩
  · next slot hc =>
    have hne : r.current ≠ none := by simp [hc]
    dsimp only
    split
    · next hw =>
      have hidle : ∀ slot w, r.current = some slot → r.worker? slot.worker ≠ some w := by
        intro slot' w h
        cases hc.symm.trans h
        rw [show r.worker? slot.worker = none from hw]
        simp
      exact ⟨r, Response.idle hidle, Or.inr ⟨hne, rfl, hidle⟩⟩
    · next w hw =>
      have hid : slot.worker = w.id := (hr _ w hw).symm
      have hself : r.worker? w.id = some w := by
        rw [← hid]
        exact hw
      split
      · next hkeeps =>
        have hresponse : Response now r _ _ := Response.suspended
          (.info s!"suspended solver '{w.name}'") hc hid hself hkeeps.1 hkeeps.2
        rw [suspendWorker_eq]
        exact ⟨_, hresponse, Or.inr ⟨hne, rfl, fun _ _ h => by cases h⟩⟩
      · next hkeeps =>
        have hresponse : Response now r _ _ := Response.expired
          (.info s!"slot of solver '{w.name}' expired") hc hid hself hkeeps
        have heq := endWorker_eq (r := note { r with current := none }
          (.info s!"slot of solver '{w.name}' expired")) hself .slotExpired
        rw [heq]
        exact ⟨_, hresponse, Or.inr ⟨hne, rfl, fun _ _ h => by cases h⟩⟩

/-! ## Ticks -/

/-- What the monitor does at a tick: it intervenes, and does what is to be done when workers have
ended, one thing after another. -/
abbrev Watch (now : Instant) : Run α → Run α → Prop :=
  Relation.ReflTransGen fun r r' => Follow now r r' ∨ Intervention now r r'

/-- What follows the end of workers may be a part of a tick. -/
theorem Follows.watch {now : Instant} {r r' : Run α} (h : Follows now r r') : Watch now r r' :=
  Relation.ReflTransGen.mono (fun _ _ hf => Or.inl hf) _ _ h

/-- What the monitor does is a round. -/
theorem Watch.round {now : Instant} {r r' : Run α} (h : Watch now r r') (hr : r.Numbered) :
    Round now r r' := by
  induction h with
  | refl => exact Relation.ReflTransGen.refl
  | tail _ hnext ih =>
    rcases hnext with hf | hi
    · exact ih.trans (Moves.round (hf.moves (ih.numbered hr)))
    · exact ih.tail (Or.inr hi)

/-- A numbered run stays so, whatever the monitor does. -/
theorem Watch.numbered {now : Instant} {r r' : Run α} (h : Watch now r r') (hr : r.Numbered) :
    r'.Numbered :=
  (h.round hr).numbered hr

/-- The monitor may end a worker. -/
theorem watch_endWorker {r : Run α} (hr : r.Numbered) (id : WorkerId) (cause : TerminationCause)
    (now : Instant) : Watch now r (r.endWorker id cause) := by
  cases hw : r.worker? id with
  | none =>
    rw [endWorker, hw]
  | some w =>
    rw [endWorker_eq hw]
    obtain rfl := hr id w hw
    exact Relation.ReflTransGen.single (Or.inr (Intervention.finish cause hw))

/-- The monitor may end a worker with a report, whatever the queue does next. -/
theorem watch_terminate {r : Run α} (hr : r.Numbered) (n : Notice) (id : WorkerId)
    (cause : TerminationCause) (now : Instant) :
    Watch now r ((r.note n).terminate id cause now) := by
  have hnote : Watch now r (r.note n) := Relation.ReflTransGen.single (Or.inl (Follow.report n))
  have hend := watch_endWorker (r := r.note n) hr id cause now
  have hnext := (r.note n).follows_terminate id cause now
  exact (hnote.trans hend).trans (Follows.watch hnext)

/-- The monitor may restart a worker; one whose solver is unknown is restarted and ends at once. -/
theorem watch_restart {r : Run α} (hr : r.Numbered) {w : Worker} (hw : r.worker? w.id = some w)
    {best : Option Objective} {now : Instant}
    (hs : w.stagnation now r.goal best r.settings.restartTime r.settings.maxRestarts = .restart) :
    Watch now r (r.restart w.id now) := by
  have hrestart (n : Notice) : Watch now r _ :=
    Relation.ReflTransGen.single (Or.inr (Intervention.restart n hw hs))
  have hself : (r.workers.modify w.id (·.beginRestart r.settings.switchSearch))[w.id]?
      = some (w.beginRestart r.settings.switchSearch) := by
    rw [List.getElem?_modify_eq, show r.workers[w.id]? = some w from hw]
    rfl
  have hphase : (w.beginRestart r.settings.switchSearch).phase ≠ .ready := by
    simp [Worker.beginRestart]
  have hname : (w.beginRestart r.settings.switchSearch).name = w.name := rfl
  rw [restart, hw]
  simp only [releaseProcess_updateWorker, launch, worker?, note, emit, hself, hname]
  -- A restart keeps the name, so that the solver is the one looked up before.
  cases hf : r.table.find? w.name with
  | none =>
    simp only [hf, Option.toList_none, List.map_nil, List.nil_append] at hrestart
    dsimp only
    generalize Notice.info _ = n
    generalize Notice.error _ = n'
    refine (hrestart n).trans (Relation.ReflTransGen.head (Or.inl (Follow.report n')) ?_)
    refine watch_endWorker ?_ _ _ now
    exact hr.modify (f := (·.beginRestart r.settings.switchSearch)) rfl fun _ => rfl
  | some solver =>
    simp only [hf, Option.toList_some, List.map_cons, List.map_nil, List.singleton_append]
      at hrestart
    simp only [if_neg hphase]
    exact hrestart (.info _)

/-- The monitor looks after the progress of a worker. -/
theorem watch_checkStagnation {r : Run α} (hr : r.Numbered) (best : Option Objective)
    (id : WorkerId) (now : Instant) : Watch now r (r.checkStagnation best id now) := by
  unfold checkStagnation
  split
  · exact Relation.ReflTransGen.refl
  · next w hw =>
    obtain rfl := hr id w hw
    split
    · exact Relation.ReflTransGen.refl
    · next hs => exact watch_restart hr hw hs
    · exact watch_terminate hr _ _ _ now

/-- The monitor may do something for each element of a list. -/
theorem watch_foldl {β : Type} {f : Run α → β → Run α} {now : Instant}
    (hf : ∀ r x, r.Numbered → Watch now r (f r x)) (l : List β) {r : Run α} (hr : r.Numbered) :
    Watch now r (l.foldl f r) := by
  induction l generalizing r with
  | nil => exact Relation.ReflTransGen.refl
  | cons x l ih =>
    have hfirst := hf r x hr
    exact hfirst.trans (ih (hfirst.numbered hr))

/-- What the monitor does at a tick. -/
theorem watch_monitor {r : Run α} (hr : r.Numbered) (usage : ProcessId → Nat) (now : Instant) :
    Watch now r (r.monitor usage now) := by
  unfold monitor
  dsimp only
  -- First the workers that use too much memory are evicted, then all are looked after.
  have hevict : Watch now r ((r.overLimit usage).foldl (fun r p => r.evict p.1 p.2 now) r) := by
    refine watch_foldl ?_ _ hr
    intro r p hr
    exact watch_terminate hr _ _ _ now
  split
  · refine hevict.trans (watch_foldl ?_ _ (hevict.numbered hr))
    intro r id hr
    exact watch_checkStagnation hr _ id now
  · exact hevict

/-! ## All events -/

/-- A run answers a tick with what the monitor does, and any other event with a response. After the
end of a slot it goes on to the next one, and after any other event it does what is to be done when
workers have ended. -/
theorem handle_follows {r : Run α} (hr : r.Numbered) (e : RunEvent) (now : Instant)
    (hknown : ∀ m, e = .message m → ∃ w, r.worker? m.key.1 = some w) :
    (∃ usage, e = .tick usage ∧ Watch now r (r.handle e now)) ∨
      ∃ r₁, Response now r e r₁ ∧
        (Follows now r₁ (r.handle e now) ∧ (e = .slotExpired → r.current = none) ∨
          e = .slotExpired ∧ r.current ≠ none ∧ r.handle e now = r₁.advance now ∧
            ∀ slot w, r₁.current = some slot → r₁.worker? slot.worker ≠ some w) := by
  cases e with
  | tick usage => exact Or.inl ⟨usage, rfl, watch_monitor hr usage now⟩
  | slotExpired =>
    obtain ⟨r₁, hresponse, ⟨hc, heq⟩ | ⟨hc, heq, hidle⟩⟩ := response_slotExpired hr now
    · refine Or.inr ⟨r₁, hresponse, Or.inl ⟨?_, fun _ => hc⟩⟩
      rw [handle, heq]
    · exact Or.inr ⟨r₁, hresponse, Or.inr ⟨rfl, hc, heq, hidle⟩⟩
  | signal s =>
    exact Or.inr ⟨_, response_signal r s now,
      Or.inl ⟨Relation.ReflTransGen.refl, fun h => by cases h⟩⟩
  | message m =>
    obtain ⟨w, hw⟩ := hknown m rfl
    have hmessage : ∃ r₁, Response now r (.message m) r₁ ∧ Follows now r₁ (r.receive m now) := by
      cases m with
      | launched id generation process injected =>
        obtain rfl := hr id w hw
        exact ⟨_, response_launched hw generation process injected now, Relation.ReflTransGen.refl⟩
      | launchFailed id generation =>
        obtain rfl := hr id w hw
        exact response_launchFailed hw generation now
      | output id generation event =>
        obtain rfl := hr id w hw
        exact response_output hw generation event now
      | exited id generation success code =>
        obtain rfl := hr id w hw
        exact response_exited hw generation success code now
    obtain ⟨r₁, hresponse, hf⟩ := hmessage
    exact Or.inr ⟨r₁, hresponse, Or.inl ⟨hf, fun h => by cases h⟩⟩

end Run

end SolverPortfolio
