import SolverPortfolio.Proofs.Backdrop
import SolverPortfolio.Proofs.Reaping

/-
# The end of a rehearsal

A rehearsal ends its run as any run is ended: what is in the inbox is read first, then
what the launches send meanwhile. Launches and processes go on besides the run and never
change it; what they have to say comes through the inbox.

Main statements: `Stage.run_background?`, `Stage.exists_run_reapUntil`,
`Stage.exists_run_shutDown`.
-/

namespace SolverPortfolio

namespace Run

variable {α : Type} (r : Run α)

/-- The end of the output is only asked for. -/
theorem forget_finish (outcome : RunOutcome) : (r.finish outcome).forget = r.forget := by
  unfold finish
  dsimp only
  split <;> split <;> rfl

/-- What was carried out makes no difference for what is read. -/
theorem forget_reap (messages : List Message) :
    (r.forget.reap messages).1.forget = (r.reap messages).1.forget := by
  induction messages generalizing r with
  | nil => rfl
  | cons m rest ih =>
    have hm : (r.forget.reapMessage m).forget = (r.reapMessage m).forget := by cases m <;> rfl
    by_cases hnone : r.running.isEmpty
    · rw [reap, reap, if_pos hnone, if_pos (show r.forget.running.isEmpty from hnone)]
      rfl
    · rw [reap, reap, if_neg hnone, if_neg (show ¬ r.forget.running.isEmpty from hnone), ← ih, hm,
        ih]

/-- Messages that stay unread are no reason to read others. -/
theorem reap_unread_append {unread : List Message} (h : unread ≠ [] → r.running = [])
    (rest : List Message) : (r.reap (unread ++ rest)).1 = (r.reap rest).1 := by
  by_cases hunread : unread = []
  · rw [hunread, List.nil_append]
  · rw [r.reap_of_running_eq_nil (h hunread), r.reap_of_running_eq_nil (h hunread)]

/-- Messages are read one part after the other. -/
theorem reap_append (before rest : List Message) :
    (r.reap (before ++ rest)).1 = ((r.reap before).1.reap rest).1 := by
  obtain ⟨-, -, -, -, hend⟩ := r.exists_read_reap before
  rw [← reap_unread_append _ hend rest]
  clear hend
  induction before generalizing r with
  | nil => rfl
  | cons m before ih =>
    by_cases hnone : r.running.isEmpty
    · rw [reap, if_pos hnone]
    · rw [List.cons_append, reap, reap, if_neg hnone, if_neg hnone]
      exact ih _

/-- Whatever is asked for at its end, a run comes to what it reads. -/
theorem forget_shutDown (now : Instant) (early late : List Message) :
    (r.shutDown now early late).1.forget = ((r.close.reap early).1.reap late).1.forget := by
  obtain ⟨-, -, -, -, hunread⟩ := r.close.exists_read_reap early
  rw [← running_killRest] at hunread
  rw [shutDown, forget_finish, reap_unread_append _ hunread, ← forget_reap, forget_killRest,
    forget_reap]

end Run

namespace Stage

variable (s : Stage)

/-! ## What goes on besides the run -/

@[simp] theorem run_note (n : Notice) : (s.note n).run = s.run := rfl

@[simp] theorem run_send (m : Message) : (s.send m).run = s.run := rfl

@[simp] theorem run_noteLines (label : String) (lines : List ReadLine) :
    (s.noteLines label lines).run = s.run :=
  congrArg Prod.fst (s.backdrop_noteLines label lines)

theorem run_drain (task : LaunchTask) : (s.drain task).1.run = s.run :=
  congrArg Prod.fst (s.backdrop_drain task)

theorem run_drainFirst? (before : List LaunchTask) (tasks : List LaunchTask) :
    ∀ s' ∈ s.drainFirst? before tasks, s'.run = s.run := by
  induction tasks generalizing before with
  | nil => simp [drainFirst?]
  | cons task rest ih =>
    unfold drainFirst?
    split
    · simp [run_drain]
    · exact ih _

@[simp] theorem run_failLaunch (request : LaunchRequest) (message : String) :
    (s.failLaunch request message).1.run = s.run := rfl

theorem run_launchSolver (request : LaunchRequest) (c : Conversion) :
    (s.launchSolver request c).1.run = s.run :=
  congrArg Prod.fst (s.backdrop_launchSolver request c)

theorem run_advanceLaunch? (task : LaunchTask) :
    ∀ x ∈ s.advanceLaunch? task, x.1.run = s.run := by
  intro x hx
  unfold advanceLaunch? at hx
  cases hstage : task.stage with
  | requested =>
    simp only [hstage, Option.mem_def, Option.some.injEq] at hx
    subst hx
    split
    · exact s.run_launchSolver _ _
    · split <;> rfl
  | converting process c errors =>
    simp only [hstage, Option.mem_def, Option.map_eq_some_iff] at hx
    obtain ⟨status, -, rfl⟩ := hx
    split
    · exact run_noteLines _ _ _
    · rw [run_launchSolver, run_noteLines]
  | streaming process streams reader =>
    simp only [hstage] at hx
    split at hx
    · cases hx
    · obtain ⟨status, -, rfl⟩ := Option.map_eq_some_iff.mp hx
      exact run_noteLines _ _ _
  | finished =>
    rw [hstage] at hx
    cases hx

theorem run_advanceFirst? (before : List LaunchTask) (tasks : List LaunchTask) :
    ∀ s' ∈ s.advanceFirst? before tasks, s'.run = s.run := by
  induction tasks generalizing before with
  | nil => simp [advanceFirst?]
  | cons task rest ih =>
    have htask := s.run_advanceLaunch? task
    unfold advanceFirst?
    split
    · next s' task' h =>
      rw [h] at htask
      simpa using htask
    · exact ih _

/-- Launches and processes go on without the run. -/
theorem run_background? : ∀ s' ∈ s.background?, s'.run = s.run := by
  intro s' hs'
  simp only [background?, Option.mem_def, Option.orElse_eq_orElse, Option.orElse_eq_or,
    Option.or_eq_some_iff] at hs'
  rcases hs' with hkill | ⟨-, hdrain | ⟨-, hadvance | ⟨-, hact⟩⟩⟩
  · unfold killDue? at hkill
    dsimp only at hkill
    split at hkill
    · cases hkill
    · cases hkill
      rfl
  · exact s.run_drainFirst? _ _ s' hdrain
  · exact s.run_advanceFirst? _ _ s' hadvance
  · obtain ⟨host, -, rfl⟩ := Option.map_eq_some_iff.mp hact
    rfl

/-! ## The end -/

/-- What a run asks for is carried out without changing anything else of it. -/
theorem run_settle : s.settle.run = s.run.forget := by
  refine List.foldlRecOn (motive := fun s' : Stage => s'.run = s.run.forget) _ _ rfl
    fun s' hs e _ => ?_
  cases e <;> exact hs

/-- Messages come from launches only. -/
theorem inbox_settle : s.settle.inbox = s.inbox := by
  refine List.foldlRecOn (motive := fun s' : Stage => s'.inbox = s.inbox) _ _ rfl
    fun s' hs e _ => ?_
  cases e <;> exact hs

/-- What is read while a rehearsal waits for its processes begins with the inbox. -/
theorem exists_run_reapUntil (latest : Instant) (fuel : Nat) :
    ∃ read, (0 < fuel → s.inbox <+: read) ∧
      (reapUntil latest fuel s).run.forget = (s.run.reap read).1.forget := by
  induction fuel generalizing s with
  | zero => exact ⟨[], fun h => absurd h (Nat.lt_irrefl 0), rfl⟩
  | succ fuel ih =>
    unfold reapUntil
    by_cases hnone : s.run.running.isEmpty
    · rw [if_pos hnone]
      refine ⟨s.inbox, fun _ => List.prefix_rfl, ?_⟩
      rw [s.run.reap_of_running_eq_nil (List.isEmpty_iff.mp hnone)]
    · rw [if_neg hnone]
      cases hinbox : s.inbox with
      | nil =>
        dsimp only
        split
        · exact ⟨[], fun _ => List.prefix_rfl, rfl⟩
        · have hrun : (s.background?.getD (s.moveOn [] latest)).run = s.run := by
            have hgoes := s.run_background?
            cases hb : s.background? with
            | none => rfl
            | some s' => exact hgoes s' hb
          obtain ⟨read, -, hread⟩ := ih (s.background?.getD (s.moveOn [] latest))
          rw [hrun] at hread
          exact ⟨read, fun _ => List.nil_prefix, hread⟩
      | cons m rest =>
        dsimp only
        rw [← hinbox]
        obtain ⟨read, -, hread⟩ := ih (settle { s with
          run := (s.run.reap s.inbox).1
          inbox := (s.run.reap s.inbox).2 })
        rw [run_settle, Run.forget_reap, ← Run.reap_append] at hread
        exact ⟨s.inbox ++ read, fun _ => List.prefix_append _ _, hread⟩

/-- A rehearsal ends its run in the way of any run, and what is in the inbox is read first. -/
theorem exists_run_shutDown (patience : Nat) :
    ∃ early late, (0 < patience → s.inbox <+: early) ∧
      (s.shutDown patience).1.run = (s.run.shutDown s.now early late).1.forget ∧
      (s.shutDown patience).2
        = (s.run.shutDown s.now early late).1.report (s.run.outcome s.now) := by
  -- The stages after the closing, the grace period, the killing and the last wait.
  let closed := settle { s with
    host := s.killConversions
    run := s.run.close
    tasks := s.tasks.map cancelTask }
  let waited := reapUntil (closed.now + gracePeriod) patience closed
  let killed := settle { waited with run := waited.run.killRest }
  let ended := reapUntil (killed.now + reapTimeout) patience killed
  have hclosed : closed.run = s.run.close.forget := run_settle _
  have hkept : closed.inbox = s.inbox := inbox_settle _
  have hkilled : killed.run = waited.run.killRest.forget := run_settle _
  obtain ⟨early, hinbox, hwaited⟩ :=
    closed.exists_run_reapUntil (closed.now + gracePeriod) patience
  obtain ⟨late, -, hended⟩ := killed.exists_run_reapUntil (killed.now + reapTimeout) patience
  rw [hclosed, Run.forget_reap] at hwaited
  rw [hkilled, Run.forget_reap] at hended
  have hfinal : ended.run.forget = (s.run.shutDown s.now early late).1.forget := by
    rw [hended, ← Run.forget_reap, Run.forget_killRest, hwaited, Run.forget_reap,
      Run.forget_shutDown]
  have hrun : (s.shutDown patience).1.run = (s.run.shutDown s.now early late).1.forget := by
    show (settle { ended with run := ended.run.finish (s.run.outcome s.now) }).run = _
    rw [run_settle, ← hfinal]
    exact Run.forget_finish _ _
  refine ⟨early, late, hkept ▸ hinbox, hrun, ?_⟩
  show (s.shutDown patience).1.run.report (s.run.outcome s.now) = _
  rw [hrun]
  rfl

end Stage

end SolverPortfolio
