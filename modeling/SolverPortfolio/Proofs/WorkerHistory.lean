import Mathlib.Data.List.DropRight
import Mathlib.Data.List.Induction
import Mathlib.Logic.Function.Iterate
import SolverPortfolio.Proofs.History
import SolverPortfolio.Proofs.OwnBound

/-
# Histories of a worker

A worker is told of launches, solutions, suspensions, restarts and its end, in any order, and
asked what becomes of it. All that it knows then can be told from what was said: its best value
is the optimum of the values recorded, its cause the first one given, its counters count, its
bound is the last one that a launch came with, and the time of its last solution counts from the
latest launch on. So its answer to the monitor is a function of the history, too.

Main definitions: `Worker.Act`, `Worker.after`, `Worker.sinceLaunch`, `Worker.quietSince?`,
`Worker.Chronicle`.
Main statements: `Worker.Chronicle.concat`, `Worker.chronicle_after`,
`Worker.Chronicle.stagnation_ne_healthy_iff`, `Worker.history_chronicled`.
-/

namespace SolverPortfolio

namespace Worker

/-! ## What is said to a worker -/

/-- What a worker is told or asked. -/
inductive Act where
  | startConverting
  | launched (now : Instant) (process : ProcessId) (injected : Option Objective)
  | recordSolution (now : Instant) (objective : Option Objective)
  | suspend
  | resume
  | beginRestart (switchSearch : Bool)
  | terminate (cause : TerminationCause)
  | askLive
  | askExpiry (now : Instant) (waitTime : Duration)
  | askStagnation (now : Instant) (global : Option Objective) (restartTime : Duration)
      (maxRestarts : Nat)
  deriving Repr, DecidableEq

namespace Act

/-- The phase that an act leads to. -/
def phase? : Act → Option Phase
  | startConverting => some .converting
  | launched .. => some .solving
  | suspend => some .suspended
  | resume => some .solving
  | beginRestart _ => some .restarting
  | terminate _ => some .terminated
  | _ => none

/-- The objective value that is recorded. -/
def objective? : Act → Option Objective
  | recordSolution _ objective => objective
  | _ => none

/-- The time of a solution. -/
def solved? : Act → Option Instant
  | recordSolution now _ => some now
  | _ => none

/-- The time of a launch. -/
def launched? : Act → Option Instant
  | launched now .. => some now
  | _ => none

/-- The bound that a launch comes with. -/
def injected? : Act → Option Objective
  | launched _ _ injected => injected
  | _ => none

/-- The cause for which a worker is ended. -/
def cause? : Act → Option TerminationCause
  | terminate cause => some cause
  | _ => none

/-- Is a restart begun? -/
def restarts : Act → Bool
  | beginRestart _ => true
  | _ => false

/-- Is a restart begun that changes the way of searching? -/
def switches : Act → Bool
  | beginRestart switchSearch => switchSearch
  | _ => false

/-- Is the worker suspended? -/
def suspends : Act → Bool
  | suspend => true
  | _ => false

end Act

/-- What an act makes of a worker; to be asked changes nothing. -/
def act (goal : Goal) (w : Worker) : Act → Worker
  | .startConverting => w.startConverting
  | .launched now process injected => w.launched now process injected
  | .recordSolution now objective => (w.recordSolution now goal objective).1
  | .suspend => w.suspend
  | .resume => w.resume
  | .beginRestart switchSearch => w.beginRestart switchSearch
  | .terminate cause => w.terminate cause
  | .askLive => w
  | .askExpiry .. => w
  | .askStagnation .. => w

/-- A worker after some acts. -/
def after (goal : Goal) (w : Worker) (acts : List Act) : Worker := acts.foldl (act goal) w

/-! ## What one act changes -/

/-- All that an act changes, but for the process. -/
theorem act_eq (goal : Goal) (w : Worker) (a : Act) : w.act goal a =
    { w with
      phase := a.phase?.getD w.phase
      best := a.objective?.filter (goal.isBetter w.best) <|> w.best
      termination := w.termination.or a.cause?
      restarts := w.restarts + [a].countP Act.restarts
      generation := w.generation + [a].countP Act.restarts
      suspensions := w.suspensions + [a].countP Act.suspends
      freeSearch := Bool.not^[[a].countP Act.switches] w.freeSearch
      injected := a.injected? <|> w.injected
      started := a.launched? <|> w.started
      lastSolution := if a.launched?.isNone then a.solved? <|> w.lastSolution else none
      process := (w.act goal a).process } := by
  cases a with
  | recordSolution now objective =>
    cases objective with
    | none => simp only [Act.cause?, Option.or_none]; rfl
    | some v =>
      simp only [Act.cause?, Option.or_none, Act.objective?, Option.filter_some, act,
        recordSolution]
      split <;> rfl
  | beginRestart switchSearch =>
    have hswitch : Bool.not^[[Act.beginRestart switchSearch].countP Act.switches] w.freeSearch =
        (w.freeSearch != switchSearch) := by
      cases switchSearch with
      | false => exact (Bool.xor_false w.freeSearch).symm
      | true => exact (Bool.xor_true w.freeSearch).symm
    simp only [Act.cause?, Option.or_none, hswitch]
    rfl
  | terminate cause =>
    have hcause : (w.termination <|> some cause) = w.termination.or (some cause) := by
      cases w.termination <;> rfl
    rw [act, terminate, hcause]
    rfl
  | _ => simp only [Act.cause?, Option.or_none]; rfl

/-! ## The history of a worker -/

/-- What was said since the latest launch, or at all if there was none. -/
def sinceLaunch (acts : List Act) : List Act := acts.rtakeWhile (·.launched?.isNone)

/-- The time from which on a worker is quiet: that of the last solution since the latest launch,
else that of the launch. -/
def quietSince? (acts : List Act) : Option Instant :=
  ((sinceLaunch acts).filterMap Act.solved?).getLast? <|> (acts.filterMap Act.launched?).getLast?

/-- The law of histories: what a worker, which searched freely at the start or did not, knows
after some acts. -/
structure Chronicle (goal : Goal) (freeSearch : Bool) (acts : List Act) (w : Worker) : Prop where
  phase : w.phase = (acts.filterMap Act.phase?).getLast?.getD .ready
  best : w.best = goal.optimum (acts.filterMap Act.objective?)
  termination : w.termination = (acts.filterMap Act.cause?).head?
  restarts : w.restarts = acts.countP Act.restarts
  generation : w.generation = acts.countP Act.restarts
  suspensions : w.suspensions = acts.countP Act.suspends
  freeSearch : w.freeSearch = Bool.not^[acts.countP Act.switches] freeSearch
  injected : w.injected = (acts.filterMap Act.injected?).getLast?
  started : w.started = (acts.filterMap Act.launched?).getLast?
  lastSolution : w.lastSolution = ((sinceLaunch acts).filterMap Act.solved?).getLast?

/-- The last of several things that acts tell is told by the last act, or by one before. -/
theorem getLast?_filterMap_concat {α : Type} (f : Act → Option α) (acts : List Act) (a : Act) :
    ((acts ++ [a]).filterMap f).getLast? = (f a <|> (acts.filterMap f).getLast?) := by
  rw [List.filterMap_append, List.getLast?_append]
  cases h : f a with
  | none => rw [List.filterMap_cons_none h]; rfl
  | some x => rw [List.filterMap_cons_some h]; rfl

variable {goal : Goal} {freeSearch : Bool} {acts : List Act} {w : Worker}

/-- The times of solutions since the latest launch, after one more act. -/
theorem getLast?_sinceLaunch_concat (acts : List Act) (a : Act) :
    ((sinceLaunch (acts ++ [a])).filterMap Act.solved?).getLast? =
      if a.launched?.isNone then a.solved? <|> ((sinceLaunch acts).filterMap Act.solved?).getLast?
      else none := by
  rw [sinceLaunch, List.rtakeWhile_concat]
  split
  · exact getLast?_filterMap_concat Act.solved? (sinceLaunch acts) a
  · rfl

/-- Every act keeps the law of histories. -/
theorem Chronicle.concat (hg : goal.isOptimization) (h : Chronicle goal freeSearch acts w)
    (a : Act) : Chronicle goal freeSearch (acts ++ [a]) (w.act goal a) where
  phase := by
    rw [act_eq, getLast?_filterMap_concat, h.phase]
    cases a.phase? <;> rfl
  best := by
    rw [act_eq, List.filterMap_append]
    dsimp only
    cases hv : a.objective? with
    | none =>
      rw [List.filterMap_cons_none hv, List.filterMap_nil, List.append_nil, h.best]
      rfl
    | some v =>
      rw [List.filterMap_cons_some hv, List.filterMap_nil, Goal.optimum_concat hg,
        Option.filter_some, h.best]
      by_cases hbetter : goal.isBetter (goal.optimum (acts.filterMap Act.objective?)) v
      · rw [if_pos hbetter, if_pos hbetter]
        rfl
      · rw [if_neg hbetter, if_neg hbetter]
        rfl
  termination := by
    rw [act_eq, List.filterMap_append, List.head?_append, ← h.termination]
    cases hcause : a.cause? with
    | none => rw [List.filterMap_cons_none hcause]; rfl
    | some cause => rw [List.filterMap_cons_some hcause]; rfl
  restarts := by rw [act_eq, List.countP_append, ← h.restarts]
  generation := by rw [act_eq, List.countP_append, ← h.generation]
  suspensions := by rw [act_eq, List.countP_append, ← h.suspensions]
  freeSearch := by
    rw [act_eq, List.countP_append, Nat.add_comm (acts.countP Act.switches),
      Function.iterate_add_apply, ← h.freeSearch]
  injected := by rw [act_eq, getLast?_filterMap_concat, ← h.injected]
  started := by rw [act_eq, getLast?_filterMap_concat, ← h.started]
  lastSolution := by rw [act_eq, getLast?_sinceLaunch_concat, ← h.lastSolution]

/-- The law of histories holds of every history of a new worker. -/
theorem chronicle_after (hg : goal.isOptimization) (id : WorkerId) (name : String)
    (placement : Placement) (freeSearch : Bool) (acts : List Act) :
    Chronicle goal freeSearch acts ((new id name placement freeSearch).after goal acts) := by
  induction acts using List.reverseRecOn with
  | nil =>
    refine ⟨rfl, ?_, rfl, rfl, rfl, rfl, rfl, rfl, rfl, rfl⟩
    cases goal <;> rfl
  | append_singleton acts a ih =>
    rw [after, List.foldl_append]
    exact ih.concat hg a

/-- How long a worker is quiet is told by its history. -/
theorem Chronicle.isQuiet_iff (h : Chronicle goal freeSearch acts w) (now : Instant)
    (restartTime : Duration) :
    w.isQuiet now restartTime ↔ ∃ since ∈ quietSince? acts, restartTime ≤ now - since := by
  rw [isQuiet, h.lastSolution, h.started, ← quietSince?]
  cases quietSince? acts with
  | none => simp
  | some since => simp

/-- Whether a worker stagnates is told by its history. -/
theorem Chronicle.stagnation_ne_healthy_iff (h : Chronicle goal freeSearch acts w)
    (hg : goal.isOptimization) (now : Instant) (global : Option Objective) (restartTime : Duration)
    (maxRestarts : Nat) :
    w.stagnation now goal global restartTime maxRestarts ≠ .healthy ↔
      w.phase = .solving ∧
      (∃ g ∈ global, goal.isBetter (goal.optimum (acts.filterMap Act.objective?)) g ∧
        goal.isBetter (acts.filterMap Act.injected?).getLast? g) ∧
      ∃ since ∈ quietSince? acts, restartTime ≤ now - since := by
  cases global with
  | none => simp [stagnation]
  | some g =>
    rw [Worker.stagnation_ne_healthy_iff, isObsolete_iff hg, h.isQuiet_iff, h.best, h.injected]
    simp [hg]

/-- A worker that stagnates is restarted as long as there are restarts left. -/
theorem stagnation_eq_restart_iff {now : Instant} {global : Option Objective}
    {restartTime : Duration} {maxRestarts : Nat}
    (h : w.stagnation now goal global restartTime maxRestarts ≠ .healthy) :
    w.stagnation now goal global restartTime maxRestarts = .restart ↔
      w.restarts < maxRestarts := by
  unfold stagnation at h ⊢
  split at h
  · exact absurd rfl h
  · split at h
    · next hstagnates =>
      rw [if_pos hstagnates]
      split
      · next hless => exact iff_of_true rfl hless
      · next hless => exact iff_of_false (fun heq => by cases heq) hless
    · exact absurd rfl h

/-- What a worker knows after any acts is told by its history, and its counters do not exceed the
number of acts. It stagnates just when it solves, the best value of the run improves on the
optimum of the values recorded and on the last bound that a launch came with, and it has been
quiet for the restart time since the last solution of the latest launch, or since that launch; it
is then restarted just when fewer restarts were begun than there may be. -/
theorem history_chronicled (hg : goal.isOptimization) (id : WorkerId) (name : String)
    (placement : Placement) (freeSearch : Bool) (acts : List Act) :
    Chronicle goal freeSearch acts ((new id name placement freeSearch).after goal acts) ∧
    acts.countP Act.restarts ≤ acts.length ∧ acts.countP Act.suspends ≤ acts.length ∧
    ∀ now global restartTime maxRestarts,
      (((new id name placement freeSearch).after goal acts).stagnation now goal global restartTime
          maxRestarts ≠ .healthy ↔
        ((new id name placement freeSearch).after goal acts).phase = .solving ∧
        (∃ g ∈ global, goal.isBetter (goal.optimum (acts.filterMap Act.objective?)) g ∧
          goal.isBetter (acts.filterMap Act.injected?).getLast? g) ∧
        ∃ since ∈ quietSince? acts, restartTime ≤ now - since) ∧
      (((new id name placement freeSearch).after goal acts).stagnation now goal global restartTime
          maxRestarts ≠ .healthy →
        (((new id name placement freeSearch).after goal acts).stagnation now goal global restartTime
            maxRestarts = .restart ↔
          acts.countP Act.restarts < maxRestarts)) := by
  have h := chronicle_after hg id name placement freeSearch acts
  refine ⟨h, List.countP_le_length, List.countP_le_length, ?_⟩
  intro now global restartTime maxRestarts
  refine ⟨h.stagnation_ne_healthy_iff hg now global restartTime maxRestarts, ?_⟩
  intro hne
  rw [stagnation_eq_restart_iff hne, h.restarts]

/-- A worker is launched with a bound, finds a solution, and is launched again without one. -/
def twiceLaunched : List Act :=
  [.startConverting, .launched 10 7 (some 12), .recordSolution 15 (some 9), .beginRestart true,
    .launched 40 8 none]

/-- The bound and the best value survive the second launch, the time of the solution does not: the
worker is quiet from that launch on, and is restarted once more after the restart time. -/
theorem twiceLaunched_chronicled : Goal.minimize.isOptimization = true ∧
    Chronicle .minimize false twiceLaunched
      ((new 0 "a" .queued false).after .minimize twiceLaunched) ∧
    quietSince? twiceLaunched = some 40 ∧
    ((new 0 "a" .queued false).after .minimize twiceLaunched).stagnation 99 .minimize (some 5) 60 2
      = .healthy ∧
    ((new 0 "a" .queued false).after .minimize twiceLaunched).stagnation 100 .minimize (some 5) 60 2
      = .restart := by
  have hg : Goal.minimize.isOptimization = true := rfl
  obtain ⟨h, -, -, hstagnation⟩ := history_chronicled hg 0 "a" .queued false twiceLaunched
  have hbest : Goal.minimize.optimum (twiceLaunched.filterMap Act.objective?) = some 9 := rfl
  have hsince : quietSince? twiceLaunched = some 40 := rfl
  obtain ⟨hearly, -⟩ := hstagnation 99 (some 5) 60 2
  obtain ⟨hlate, hrestart⟩ := hstagnation 100 (some 5) 60 2
  refine ⟨hg, h, hsince, ?_, (hrestart (hlate.mpr ?_)).mpr (by decide)⟩
  · rw [← Classical.not_not (a := _ = Stagnation.healthy), ← ne_eq, hearly, hsince]
    rintro ⟨-, -, since, hmem, hle⟩
    cases hmem
    exact absurd hle (by decide)
  · rw [hbest, hsince]
    exact ⟨h.phase.trans rfl, ⟨5, rfl, by decide, by decide⟩, 40, rfl, by decide⟩

end Worker

end SolverPortfolio
