import SolverPortfolio.Proofs.Bounds
import SolverPortfolio.Proofs.Reading
import SolverPortfolio.Proofs.SharedCore

/-
# The worker whose value is the best one

A value that a process announces is shared at once, but the worker counts it as its
own best one only when the solution is complete. The monitor compares the shared
value with the worker's own ones. So a worker that has long been quiet stagnates
against the value that its own process has just announced, until the solution is
complete.

Main definitions: `Situation.Outbid`, `Situation.Leads`.
Main statements: `Worker.isObsolete_iff`, `Situation.Outbid.change`,
`Situation.leader_stagnates_iff`.
-/

namespace SolverPortfolio

/-! ## Stagnation -/

namespace Worker

/-- A worker is obsolete if the best value of the run improves on its own best value and on its
bound. -/
theorem isObsolete_iff {goal : Goal} (hg : goal.isOptimization) (w : Worker) (global : Objective) :
    w.isObsolete goal global ↔
      goal.isBetter w.best global ∧ goal.isBetter w.injected global := by
  unfold isObsolete effectiveBest
  cases hb : w.best with
  | none =>
    cases hi : w.injected with
    | none => simp
    | some injected => simp
  | some best =>
    cases hi : w.injected with
    | none => simp
    | some injected =>
      -- Of the two values the better one decides, and an improvement on it improves on the other.
      by_cases h : goal.isBetter (some best) injected
      · simp only [h, if_true]
        constructor
        · intro hglobal
          exact ⟨Goal.isBetter_trans h hglobal, hglobal⟩
        · rintro ⟨-, hglobal⟩
          exact hglobal
      · have hcovers : goal.Covers (some best) (some injected) :=
          Goal.covers_some.mpr (Bool.eq_false_iff.mpr h)
        simp only [h]
        constructor
        · intro hglobal
          exact ⟨hglobal, hcovers.isBetter hg hglobal⟩
        · rintro ⟨hglobal, -⟩
          exact hglobal

/-- When a worker stagnates. -/
theorem stagnation_ne_healthy_iff (w : Worker) (now : Instant) (goal : Goal) (global : Objective)
    (restartTime : Duration) (maxRestarts : Nat) :
    w.stagnation now goal (some global) restartTime maxRestarts ≠ .healthy ↔
      w.phase = .solving ∧ goal.isOptimization ∧ w.isObsolete goal global ∧
        w.isQuiet now restartTime := by
  unfold stagnation
  dsimp only
  split
  · next h =>
    refine iff_of_true ?_ h
    split <;> simp
  · next h => exact iff_of_false (fun hne => hne rfl) h

end Worker

namespace Situation

variable {α : Type} {P : Discipline} {o : Opening α} {s s' : Situation α} {v : Objective}

/-! ## The bound of a process that improves on the best value -/

/-- A launch task has sent something, and the bound of its generation is worse than `v`. -/
structure Outbid (goal : Goal) (key : WorkerId × Nat) (v : Objective) (s : Situation α) : Prop where
  begun : s.progress key ≠ .pending
  worker : ∃ w, s.run.worker? key.1 = some w ∧ key.2 ≤ w.generation ∧
    (w.generation = key.2 → goal.isBetter w.injected v)

/-- A launch task that has sent something does not start over. -/
theorem Change.progress_ne_pending {e : Option RunEvent} (hc : Change P s e s')
    {key : WorkerId × Nat} (h : s.progress key ≠ .pending) : s'.progress key ≠ .pending := by
  rcases hc.progress_cases key with ⟨m, -, -, -, hnext⟩ | ⟨hsame, -⟩
  · rw [hnext]
    exact LaunchProgress.after_ne_pending m _
  · rw [hsame]
    exact h

/-- The bound of a generation changes no more once its launch task has sent something, so that it
stays worse. -/
theorem Outbid.change {goal : Goal} {key : WorkerId × Nat} (hs : s.Outbid goal key v)
    (hn : s.run.Numbered) {e : Option RunEvent} (hc : Change P s e s') :
    s'.Outbid goal key v := by
  obtain ⟨w, hw, hle, hworse⟩ := hs.worker
  obtain ⟨w', hw', hturn⟩ := hc.turn hn hw
  refine ⟨hc.progress_ne_pending hs.begun, w', hw', Nat.le_trans hle hturn.generation_le,
    fun hgen => ?_⟩
  have hsame : w.generation = key.2 := Nat.le_antisymm (hgen ▸ hturn.generation_le) hle
  rcases hturn.injected with hinjected | ⟨process, injected, rfl, -, -⟩
  · rw [hinjected]
    exact hworse hsame
  · have hkey : (w.id, w.generation) = key := by rw [hn _ w hw, hsame]
    exact absurd (hkey ▸ hc.sends.of_launched.1) hs.begun

/-- It stays worse whatever changes. -/
theorem Outbid.changes {goal : Goal} {key : WorkerId × Nat} (hs : s.Outbid goal key v)
    (ha : Arises P o s) (hcs : Changes P s s') : s'.Outbid goal key v := by
  induction hcs with
  | refl => exact hs
  | tail hcs hc ih =>
    obtain ⟨e, hc⟩ := hc
    exact ih.change (ha.changes hcs).founded.numbered hc

/-- A value that becomes the best one when it is announced improves on the bound of the process
that announces it. -/
theorem Change.outbid (ha : Arises P o s) (hg : o.goal.isOptimization) {id : WorkerId}
    {generation : Nat}
    (hc : Change P s (some (.message (.output id generation (.bound v)))) s')
    (hs : s.run.incumbent.best ≠ some v) (hs' : s'.run.incumbent.best = some v) :
    s'.Outbid o.goal (id, generation) v := by
  have hn := ha.founded.numbered
  have hbegun : s'.progress (id, generation) ≠ .pending := by
    rcases hc.progress_cases (id, generation) with ⟨m, -, -, -, hnext⟩ | ⟨-, hne⟩
    · rw [hnext]
      exact LaunchProgress.after_ne_pending m _
    · exact absurd rfl (hne _ rfl)
  have hsharing := hc.sharing
  generalize he : some (RunEvent.message (.output id generation (.bound v))) = e at hsharing
  generalize s'.run.incumbent = i at hs' hsharing
  cases hsharing with
  | keep h => exact absurd hs' hs
  | @offered w value hw hl =>
    simp only [Option.some.injEq, RunEvent.message.injEq, Message.output.injEq] at he
    obtain ⟨rfl, rfl, -⟩ := he
    have hbetter : o.goal.isBetter s.run.incumbent.best v := by
      rw [Incumbent.best_offer] at hs'
      split at hs'
      · next haccepts =>
        cases hs'
        simp only [Incumbent.accepts, Bool.and_eq_true] at haccepts
        rw [← ha.settings.2]
        exact haccepts.2
      · exact absurd hs' hs
    obtain ⟨w', hw', hturn⟩ := hc.turn hn hw
    refine ⟨hbegun, w', hw', hturn.generation_le, fun _ => ?_⟩
    rcases hturn.injected with hsame | ⟨_, _, he, -⟩
    · rw [hsame]
      exact ((ha.bounded hg).worker w.id w hw).isBetter hg hbetter
    · simp at he
  | proved hw hl hp hnone => simp at he
  | satisfied x hsat => simp at he
  | cancelled => simp at he

/-! ## The worker that leads -/

variable [Timed α]

/-- The best value known is `v`, and it was last set by what the current process of `w` announced.
This may be so between two events, or in the midst of a tick. -/
structure Leads (P : Discipline) (o : Opening α) (s : Situation α) (w : Worker) (v : Objective) :
    Prop where
  worker : s.run.worker? w.id = some w
  best : s.run.incumbent.best = some v
  announced : ∃ before after, Reachable P o before ∧
    Step P before (.message (.output w.id w.generation (.bound v))) after ∧
    before.run.incumbent.best ≠ some v ∧ after.run.incumbent.best = some v ∧ Changes P after s

/-- The best value improves on the bound of the worker that leads. -/
theorem Leads.isBetter_injected {w : Worker} (h : Leads P o s w v)
    (hg : o.goal.isOptimization) : o.goal.isBetter w.injected v := by
  obtain ⟨before, after, hbefore, hstep, hne, heq, hcs⟩ := h.announced
  have ha := Reachable.arises hbefore
  rcases hstep.cases ha.founded with ⟨usage, now, he, -, -⟩ | ⟨s₁, now, hc, hm, hafter⟩
  · cases he
  · rw [(Run.Moves.kept hm).incumbent] at heq
    have hrest : Changes P s₁ s := by
      rw [hafter] at hcs
      exact (changes_of_moves hm).trans hcs
    obtain ⟨w', hw', -, hworse⟩ := ((hc.outbid ha hg hne heq).changes (ha.change hc) hrest).worker
    cases Option.some.inj (hw'.symm.trans h.worker)
    exact hworse rfl

/-- At any time, the worker whose process has last set the best value stagnates just when it
solves, has been quiet for the restart time, and has not completed a solution as good as this
value. -/
theorem leader_stagnates_iff (hg : o.goal.isOptimization) {w : Worker} (h : Leads P o s w v)
    (now : Instant) :
    w.stagnation now o.goal s.run.incumbent.best o.settings.restartTime o.settings.maxRestarts
        ≠ .healthy ↔
      w.phase = .solving ∧ w.isQuiet now o.settings.restartTime ∧ o.goal.isBetter w.best v := by
  rw [h.best, w.stagnation_ne_healthy_iff, w.isObsolete_iff hg]
  have hinjected := h.isBetter_injected hg
  constructor
  · rintro ⟨hsolving, -, ⟨hbest, -⟩, hquiet⟩
    exact ⟨hsolving, hquiet, hbest⟩
  · rintro ⟨hsolving, hquiet, hbest⟩
    exact ⟨hsolving, hg, ⟨hbest, hinjected⟩, hquiet⟩

end Situation

/-! ## A run of one solver -/

/-- A solver with a core of its own. -/
def Opening.solo : Opening Rat := { Opening.duo with schedule := ⟨["a"], []⟩ }

namespace Situation

/-- The process of the solver is up, and has said nothing yet. -/
def soloLaunched : Situation Rat :=
  Opening.solo.situation.takes 0 [.message (.launched 0 0 10 none)]

/-- After the restart time the process announces a value. -/
def soloAnnounced : Situation Rat :=
  soloLaunched.takes (Duration.ofWholeSeconds 6) [.message (.output 0 0 (.bound 5))]

/-- The run of the one solver comes to this point. -/
theorem reachable_soloLaunched : Reachable (Parsed "_objective") .solo soloLaunched :=
  steps_takes ⟨Sends.launched_of_any 0 0 10 none (.error "") rfl, trivial⟩

/-- The process of the one solver announces its first value. -/
theorem step_soloAnnounced :
    Step (Parsed "_objective") soloLaunched (.message (.output 0 0 (.bound 5))) soloAnnounced :=
  ⟨Duration.ofWholeSeconds 6,
    Sends.output 0 0 ⟨["x = 5;".toList, "_objective = 5;".toList], rfl⟩, rfl⟩

/-- The worker of the one solver, which has completed no solution. -/
def soloWorker : Worker :=
  (Worker.new 0 "a" .dedicated false).startConverting.launched 0 10 none

/-- The one solver leads as soon as it has announced a value. -/
theorem leads_soloWorker : Leads (Parsed "_objective") .solo soloAnnounced soloWorker 5 where
  worker := rfl
  best := rfl
  announced := ⟨soloLaunched, soloAnnounced, reachable_soloLaunched, step_soloAnnounced, by decide,
    rfl, Relation.ReflTransGen.refl⟩

/-- The one solver leads, solves, was quiet until it announced its value, and has not completed the
solution: it stagnates. -/
theorem solo_stagnates :
    Leads (Parsed "_objective") .solo soloAnnounced soloWorker 5 ∧
      soloWorker.stagnation (Duration.ofWholeSeconds 6) .minimize (some 5)
        (Duration.ofWholeSeconds 5) 1 ≠ .healthy :=
  ⟨leads_soloWorker,
    (leader_stagnates_iff (o := .solo) rfl leads_soloWorker (Duration.ofWholeSeconds 6)).mpr
      ⟨rfl, rfl, rfl⟩⟩

/-- A tick right after the only solver of a run has announced the best value restarts that solver:
its process is given up. -/
theorem exists_leader_restarted :
    ∃ s s' : Situation Rat, Leads (Parsed "_objective") .solo s soloWorker 5 ∧
      Step (Parsed "_objective") s (.tick fun _ => 0) s' ∧
      s.run.workers = [soloWorker] ∧ soloWorker.process = some 10 ∧
      s'.run.workers.map (fun w => (w.phase, w.generation)) = [(.restarting, 1)] ∧
      .release 10 ∈ s'.run.effects :=
  ⟨soloAnnounced, soloAnnounced.takes (Duration.ofWholeSeconds 6) [.tick fun _ => 0],
    leads_soloWorker, ⟨_, trivial, rfl⟩, rfl, rfl, by decide +kernel, by decide +kernel⟩

end Situation

end SolverPortfolio
