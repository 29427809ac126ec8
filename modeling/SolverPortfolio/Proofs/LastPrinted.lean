import SolverPortfolio.Proofs.Coherence

/-
# The solution printed last

A value is accepted as the best one when it is announced, but the solution that has
it is printed only when it is complete. When a proof closes the output in between,
the solution printed last is worse than the optimum claimed. It has the optimum just
when the solution with that value was completed by some worker.

Main definitions: `Situation.Recorded`.
Main statements: `Situation.Arises.recorded`, `Situation.last_printed_optimal_iff`,
`Situation.exists_optimum_not_printed`.
-/

namespace SolverPortfolio

namespace Worker

variable {goal : Goal} {maxRestarts : Nat} {e : Option RunEvent} {w w' : Worker}

/-- The best value of a worker never gets worse. -/
theorem Turn.covers_best (h : Turn goal maxRestarts e w w') (hg : goal.isOptimization) :
    goal.Covers w'.best w.best := by
  rcases h.best with hsame | ⟨x, v, -, -, -, hv, heq⟩
  · rw [hsame]
    exact Goal.covers_self hg _
  · rw [heq]
    exact Goal.covers_of_isBetter hg hv

/-- The best value of a worker covers the value of each solution that the worker completes. -/
theorem Turn.covers_solution {x : Solution} {v : Objective} (h : Turn goal maxRestarts e w w')
    (he : e = some (.message (.output w.id w.generation (.solution x)))) (hl : w.isLive)
    (hg : goal.isOptimization) (hx : x.objective = some v) : goal.Covers w'.best (some v) := by
  cases h with
  | still h => exact absurd ⟨rfl, hl⟩ (h _ he rfl)
  | launched now process injected hp => simp at he
  | recorded y now _ =>
    simp only [Option.some.injEq, RunEvent.message.injEq, Message.output.injEq,
      StreamEvent.solution.injEq] at he
    rw [he.2.2, hx, best_recordSolution]
    split
    · exact Goal.covers_self hg _
    · next hv => simpa using hv
  | satisfied y now _ hsat => exact absurd hsat (Goal.ne_satisfy hg)
  | ended cause hne => exact absurd he (hne _ _ _)
  | suspended hp => simp at he
  | resumed hp => cases he
  | restarted switchSearch hp hr => cases he

end Worker

namespace Situation

variable {α : Type} {P : Discipline} {o : Opening α} {s s' : Situation α} {e : Option RunEvent}

/-! ## The value printed last -/

/-- The value printed last stays as long as it is the best one. -/
theorem Change.lastPrinted_of_best (hc : Change P s e s') (hg : s.run.goal.isOptimization)
    {v : Objective} (hlast : s.run.lastPrinted = some v) (hv : s.run.incumbent.best = some v) :
    s'.run.lastPrinted = some v := by
  cases hc.printing with
  | nothing hp _ _ _ _ => rw [hp, hlast]
  | closing _ hp _ _ => rw [hp, hlast]
  | @shown w x hw hl hg' hx hp _ _ =>
    rw [hp]
    cases ho : x.objective with
    | none => exact hlast
    | some u => exact (best_of_shows hx ho).1.symm.trans hv
  | satisfying hsat _ _ _ => exact absurd hsat (Goal.ne_satisfy hg)

/-- When a live worker completes a solution that has the best value, this is the value printed
last. -/
theorem Change.lastPrinted_of_solution (hc : Change P s e s') (hg : s.run.goal.isOptimization)
    {w : Worker} {x : Solution} {v : Objective}
    (he : e = some (.message (.output w.id w.generation (.solution x))))
    (hw : s.run.worker? w.id = some w) (hl : w.isLive) (hx : x.objective = some v)
    (hv : s.run.incumbent.best = some v) : s'.run.lastPrinted = some v := by
  have hg' : s.run.goal ≠ .satisfy := Goal.ne_satisfy hg
  cases hc.printing with
  | nothing hp _ _ _ hnot =>
    rw [hp]
    have hnot := hnot w x he hw hl hg'
    rw [Run.Shows, hx] at hnot
    exact Classical.not_not.mp fun hne => hnot ⟨hv, hne⟩
  | closing _ _ _ _ => simp at he
  | @shown w₁ x₁ _ _ _ _ hp _ _ =>
    simp only [Option.some.injEq, RunEvent.message.injEq, Message.output.injEq,
      StreamEvent.solution.injEq] at he
    rw [hp, he.2.2, hx]
    rfl
  | satisfying hsat _ _ _ => exact absurd hsat hg'

/-- The value printed last is that of the solution printed last, and the best value is printed
last just when a worker has completed a solution that has it. -/
structure Recorded (goal : Goal) (s : Situation α) : Prop where
  last : ∀ v, s.run.lastPrinted = some v →
    ∃ x earlier, s.printed = x :: earlier ∧ x.objective = some v
  completed : ∀ v, s.run.lastPrinted = some v →
    ∃ id w, s.run.worker? id = some w ∧ goal.Covers w.best (some v)
  printed : ∀ id w v, s.run.worker? id = some w → w.best = some v →
    s.run.incumbent.best = some v → s.run.lastPrinted = some v

/-- What is printed last was completed by a worker. -/
theorem Recorded.completed_change (hs : s.Recorded o.goal) (ha : Arises P o s)
    (hg : o.goal.isOptimization) (hc : Change P s e s') {v : Objective}
    (hv : s'.run.lastPrinted = some v) :
    ∃ id w, s'.run.worker? id = some w ∧ o.goal.Covers w.best (some v) := by
  have hgoal := ha.settings.2
  have hold (hv : s.run.lastPrinted = some v) :
      ∃ id w, s'.run.worker? id = some w ∧ o.goal.Covers w.best (some v) := by
    obtain ⟨id, w, hw, hcovers⟩ := hs.completed v hv
    obtain ⟨w', hw', hturn⟩ := hc.turn ha.founded.numbered hw
    rw [hgoal] at hturn
    exact ⟨id, w', hw', (hturn.covers_best hg).trans hcovers⟩
  cases hc.printing with
  | nothing hp _ _ _ _ => exact hold (hp ▸ hv)
  | closing _ hp _ _ => exact hold (hp ▸ hv)
  | @shown w x hw hl _ hx hp _ _ =>
    cases ho : x.objective with
    | none =>
      rw [hp, ho] at hv
      exact hold hv
    | some u =>
      rw [hp, ho] at hv
      cases hv
      obtain ⟨w', hw', hturn⟩ := hc.turn ha.founded.numbered hw
      rw [hgoal] at hturn
      exact ⟨w.id, w', hw', hturn.covers_solution rfl hl hg ho⟩
  | satisfying hsat _ _ _ => exact absurd (hgoal.symm.trans hsat) (Goal.ne_satisfy hg)

/-- A solution without an objective value is printed only if it is the first one. -/
theorem Recorded.last_change (hs : s.Recorded o.goal) (ha : Arises P o s)
    (hg : o.goal.isOptimization) (hc : Change P s e s') {v : Objective}
    (hv : s'.run.lastPrinted = some v) :
    ∃ x earlier, s'.printed = x :: earlier ∧ x.objective = some v := by
  cases hc.printing with
  | nothing hp hcount _ _ _ =>
    rw [hc.printed_of_eq hcount]
    exact hs.last v (hp ▸ hv)
  | closing _ hp hcount _ =>
    rw [hc.printed_of_eq hcount]
    exact hs.last v (hp ▸ hv)
  | @shown w x hw hl _ hx hp hcount _ =>
    cases ho : x.objective with
    | none =>
      rw [Run.Shows, ho] at hx
      rw [hp, ho] at hv
      obtain ⟨y, earlier, hprinted, -⟩ := hs.last v hv
      have hlength := (ha.printed hg).length
      rw [hprinted, show s.run.solutions = 0 from hx] at hlength
      cases hlength
    | some u =>
      rw [hp, ho] at hv
      exact ⟨x, s.printed, hc.printed_solution hcount, ho.trans hv⟩
  | satisfying hsat _ _ _ => exact absurd (ha.settings.2.symm.trans hsat) (Goal.ne_satisfy hg)

/-- The best value, if a worker has completed a solution that has it, is printed last. -/
theorem Recorded.printed_change (hs : s.Recorded o.goal) (ha : Arises (Parsed o.tracked) o s)
    (hg : o.goal.isOptimization) (hc : Change (Parsed o.tracked) s e s') {id : WorkerId}
    {w' : Worker} {v : Objective} (hw' : s'.run.worker? id = some w') (hv : w'.best = some v)
    (hbest : s'.run.incumbent.best = some v) : s'.run.lastPrinted = some v := by
  have hg₀ : s.run.goal.isOptimization := ha.settings.2 ▸ hg
  rcases hc.worker_cases ha.founded.numbered hw' with ⟨w, hw, hturn⟩ | ⟨-, -, _, _, _, hn, -⟩
  · rcases hturn.best with hsame | ⟨x, u, he, hl, hx, -, heq⟩
    · rw [hsame] at hv
      have hold (hbest : s.run.incumbent.best = some v) : s'.run.lastPrinted = some v :=
        hc.lastPrinted_of_best hg₀ (hs.printed id w v hw hv hbest) hbest
      rcases hc.sharing.best_cases with hkept | ⟨_, value, _, hoffer⟩
      · exact hold (hkept ▸ hbest)
      · rw [hoffer, Incumbent.best_offer] at hbest
        split at hbest
        -- An accepted value is better than all that workers have completed.
        · next haccepts =>
          cases hbest
          simp only [Incumbent.accepts, Bool.and_eq_true, Option.isNone_iff_eq_none] at haccepts
          have hcovers := ha.covered hg haccepts.1.2 id w hw
          have hnot := hcovers _ hv
          rw [← ha.settings.2] at hnot
          cases haccepts.2.symm.trans hnot
        · exact hold hbest
    · cases heq.symm.trans hv
      refine hc.lastPrinted_of_solution hg₀ he (ha.founded.numbered.worker?_id hw) hl hx ?_
      rcases hc.sharing.best_cases with hkept | ⟨_, _, he', _⟩
      · exact hkept ▸ hbest
      · rw [he] at he'
        simp at he'
  · cases hn.eq_none.1.symm.trans hv

/-- All that arises is so recorded. -/
theorem Arises.recorded (h : Arises (Parsed o.tracked) o s) (hg : o.goal.isOptimization) :
    s.Recorded o.goal := by
  apply h.invariant (I := Recorded o.goal)
  · intro r hr
    have hlast : r.lastPrinted = none := hr.lastPrinted
    constructor
    case last =>
      intro v hv
      cases hlast.symm.trans hv
    case completed =>
      intro v hv
      cases hlast.symm.trans hv
    case printed =>
      intro id w v hw hv
      cases (hr.eq_none hw).1.symm.trans hv
  · intro s e s' ha hs hc
    constructor
    case last =>
      intro v hv
      exact hs.last_change ha hg hc hv
    case completed =>
      intro v hv
      exact hs.completed_change ha hg hc hv
    case printed =>
      intro id w' v hw' hv hbest
      exact hs.printed_change ha hg hc hw' hv hbest

/-! ## Proofs of optimality -/

/-- A proof that ends a run with an objective closes the output, and prints nothing else. -/
theorem Change.closing (hc : Change P s e s') (hg : s.run.goal.isOptimization)
    (hn : s.run.incumbent.winner = none) {winner : Winner}
    (hwin : s'.run.incumbent.winner = some winner) :
    s'.printed = s.printed ∧ s'.run.lines = Run.closingLine winner.proof :: s.run.lines := by
  obtain ⟨-, w, status, proof, he, -⟩ := hc.sharing.of_declared hg hn hwin
  cases hc.printing with
  | nothing _ _ _ hsame _ => cases hwin.symm.trans (hsame.trans hn)
  | closing hdeclared _ hcount hlines =>
    cases hdeclared.symm.trans hwin
    exact ⟨hc.printed_of_eq hcount, hlines⟩
  | shown => simp at he
  | satisfying => simp at he

variable [Timed α]

/-- A step that declares a winner is a single change, and keeps what moves keep. -/
theorem Step.of_declared (h : Arises P o s) {e : RunEvent} (hstep : Step P s e s')
    (hn : s.run.incumbent.winner = none) (hwin : s'.run.incumbent.winner ≠ none) :
    ∃ s₁, Change P s (some e) s₁ ∧ s₁.run.Kept s'.run ∧ s'.printed = s₁.printed := by
  rcases hstep.cases h.founded with ⟨usage, now, -, hround, -⟩ | ⟨s₁, now, hc, hm, heq⟩
  · rw [(Run.Round.kept hround).incumbent] at hwin
    exact absurd hn hwin
  · exact ⟨s₁, hc, Run.Moves.kept hm, by rw [heq]⟩

/-- When a run with an objective is won by a proof that its best value is optimal, the solution
printed last has this value just when a worker has completed a solution that has it. The proof
closes the output right after that solution. -/
theorem last_printed_optimal_iff (hg : o.goal.isOptimization)
    (h : Reachable (Parsed o.tracked) o s) {e : RunEvent} (hstep : Step (Parsed o.tracked) s e s')
    (hn : s.run.incumbent.winner = none) {name : String}
    (hwin : s'.run.incumbent.winner = some ⟨name, .optimal⟩) {v : Objective}
    (hv : s'.run.incumbent.best = some v) :
    s'.run.lines = Run.closingLine .optimal :: s'.printed.flatMap Solution.lines ∧
    ((∃ x earlier, s'.printed = x :: earlier ∧ x.objective = some v) ↔
      ∃ w ∈ s.run.workers, w.best = some v) := by
  have ha := h.arises
  have hg₀ : s.run.goal.isOptimization := ha.settings.2 ▸ hg
  obtain ⟨s₁, hc, hkept, hprinted⟩ := hstep.of_declared ha hn (by simp [hwin])
  rw [hkept.incumbent] at hwin hv
  obtain ⟨hsame, hlines⟩ := hc.closing hg₀ hn hwin
  obtain ⟨hbest, -⟩ := hc.sharing.of_declared hg₀ hn hwin
  rw [hbest] at hv
  have hrecorded := ha.recorded hg
  rw [hprinted, hsame, hkept.lines, hlines, ha.lines hn]
  refine ⟨rfl, ?_, ?_⟩
  · rintro ⟨x, earlier, hx, ho⟩
    have hlast : s.run.lastPrinted = some v := by
      rw [← (ha.printed hg).head, printedValues, hx, List.filterMap_cons_some ho]
      rfl
    obtain ⟨id, w, hw, hcovers⟩ := hrecorded.completed v hlast
    obtain ⟨u, hu⟩ := Goal.exists_of_covers_some hcovers
    have hcovered := ha.covered hg hn id w hw
    rw [hv, hu] at hcovered
    rw [hu] at hcovers
    rw [Goal.eq_of_covers hcovers hcovered] at hu
    exact ⟨w, List.mem_of_getElem? hw, hu⟩
  · rintro ⟨w, hw, hwv⟩
    obtain ⟨i, hi⟩ := List.mem_iff_getElem?.mp hw
    exact hrecorded.last v (hrecorded.printed i w v hi hwv hv)

/-- The proof of the second solver is well-formed output. -/
theorem step_duo_parsed :
    Step (Parsed "_objective") (Opening.duo.situation.takes 0 duoEvents) duoProof
      (Opening.duo.situation.takes 0 (duoEvents ++ [duoProof])) :=
  step_duo ⟨["=====UNSATISFIABLE=====".toList], rfl⟩

/-- In the run of the two solvers the optimum was not completed, and is not printed. -/
theorem duo_last_printed :
    ∃ s s' : Situation Rat, Reachable (Parsed "_objective") .duo s ∧
      Step (Parsed "_objective") s duoProof s' ∧ s.run.incumbent.winner = none ∧
        s'.run.incumbent.winner = some ⟨"b", .optimal⟩ ∧ s'.run.incumbent.best = some 5 ∧
          ((∃ x earlier, s'.printed = x :: earlier ∧ x.objective = some 5) ↔
            ∃ w ∈ s.run.workers, w.best = some 5) :=
  ⟨_, _, reachable_duo, step_duo_parsed, rfl, rfl, rfl,
    (last_printed_optimal_iff (o := .duo) rfl reachable_duo step_duo_parsed rfl rfl rfl).2⟩

/-- A run may claim an optimum that it has not printed: the solution printed last is worse. -/
theorem exists_optimum_not_printed :
    ∃ s s' : Situation Rat, Reachable (Parsed "_objective") .duo s ∧
      Step (Parsed "_objective") s duoProof s' ∧ s.run.incumbent.winner = none ∧
        s'.run.incumbent.winner = some ⟨"b", .optimal⟩ ∧ s'.run.incumbent.best = some 5 ∧
          s'.printed.map (·.objective) = [some 9] ∧
            s'.run.lines = ["==========", "----------", "x = 9;"] :=
  ⟨_, _, reachable_duo, step_duo_parsed, rfl, rfl, rfl, rfl, rfl⟩

end Situation

end SolverPortfolio
