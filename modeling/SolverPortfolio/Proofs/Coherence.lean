import SolverPortfolio.Proofs.Bounds
import SolverPortfolio.Proofs.Reading
import SolverPortfolio.Proofs.SharedCore

/-
# Coherence of the best values

There are four copies of a best value: the one that is shared, the best one of each
worker, the bound of each worker, and the one printed last. As long as the run is
not cancelled the shared one covers all others. Along a run it only gets better, so
that each solution printed improves on all those printed before.

Main definitions: `Situation.Covered`, `Situation.Printed`.
Main statements: `Situation.Arises.covered`, `Situation.Arises.printed`,
`Situation.reachable_coherent`.
-/

namespace SolverPortfolio

/-- The best value of a worker changes only with a better solution. -/
theorem Worker.Turn.best {goal : Goal} {maxRestarts : Nat} {e : Option RunEvent} {w w' : Worker}
    (h : Turn goal maxRestarts e w w') :
    w'.best = w.best ∨ ∃ x v,
      e = some (.message (.output w.id w.generation (.solution x))) ∧ w.isLive ∧
        x.objective = some v ∧ goal.isBetter w.best v ∧ w'.best = some v := by
  have hrecord (x : Solution) (now : Instant) :
      (w.recordSolution now goal x.objective).1.best = w.best ∨
        ∃ v, x.objective = some v ∧ goal.isBetter w.best v ∧
          (w.recordSolution now goal x.objective).1.best = some v := by
    cases hx : x.objective with
    | none => exact Or.inl rfl
    | some v =>
      rw [best_recordSolution]
      split
      · next hv => exact Or.inr ⟨v, rfl, hv, rfl⟩
      · exact Or.inl rfl
  cases h with
  | recorded x now hl =>
    rcases hrecord x now with hsame | ⟨v, hx, hv, heq⟩
    · exact Or.inl hsame
    · exact Or.inr ⟨x, v, rfl, hl, hx, hv, heq⟩
  | satisfied x now hl hg =>
    rcases hrecord x now with hsame | ⟨v, hx, hv, heq⟩
    · exact Or.inl hsame
    · exact Or.inr ⟨x, v, rfl, hl, hx, hv, heq⟩
  | _ => exact Or.inl rfl

namespace Run

variable {α : Type} {r : Run α} {e : Option RunEvent} {i : Incumbent}

/-- A run that is not cancelled has no winner, and stays so backwards. -/
theorem Sharing.winner_of_not_cancelled (h : r.Sharing e i)
    (hr : r.incumbent.cancelled = false → r.incumbent.winner = none)
    (hi : i.cancelled = false) : i.winner = none := by
  cases h with
  | keep h => exact hr hi
  | offered value hw hl =>
    rw [Incumbent.cancelled_offer] at hi
    rw [Incumbent.winner_offer]
    exact hr hi
  | proved hw hl hp hn =>
    rw [Incumbent.declareWinner, hn] at hi
    cases hi
  | satisfied x hg =>
    unfold Incumbent.declareWinner at hi ⊢
    cases hw : r.incumbent.winner with
    | none => rw [hw] at hi; cases hi
    | some winner =>
      rw [hw] at hi
      rw [hr hi] at hw
      cases hw
  | cancelled => cases hi

end Run

namespace Situation

variable {α : Type} {P : Discipline} {o : Opening α} {s s' : Situation α} {e : Option RunEvent}

/-- As long as a run is not cancelled there is no winner. -/
theorem Arises.winner_of_not_cancelled (h : Arises P o s) :
    s.run.incumbent.cancelled = false → s.run.incumbent.winner = none := by
  apply h.invariant
    (I := fun s => s.run.incumbent.cancelled = false → s.run.incumbent.winner = none)
  · intro r hr _
    rw [show r.incumbent = Incumbent.start o.goal from hr.incumbent]
    rfl
  · intro s e s' _ hs hc
    exact hc.sharing.winner_of_not_cancelled hs

/-! ## The best values of the workers -/

/-- As long as there is no winner, the best value known covers the best value of every worker. -/
def Covered (goal : Goal) (s : Situation α) : Prop :=
  s.run.incumbent.winner = none → ∀ id w, s.run.worker? id = some w →
    goal.Covers s.run.incumbent.best w.best

/-- The objective value of a solution that a worker records was announced by the worker. -/
theorem exists_announced {id : WorkerId} {generation : Nat} {x : Solution} {v : Objective}
    (hc : Change (Parsed o.tracked) s
      (some (.message (.output id generation (.solution x)))) s') (hx : x.objective = some v) :
    ∃ injected said, s.progress (id, generation) = .speaking injected said ∧ .bound v ∈ said := by
  obtain ⟨injected, said, hspeaking, hP⟩ := hc.sends.of_output
  exact ⟨injected, said, hspeaking, Parsed.bound_mem hP hx⟩

/-- The best values of the workers go on being covered. -/
theorem Covered.change (hs : s.Covered o.goal) (ha : Arises (Parsed o.tracked) o s)
    (hg : o.goal.isOptimization) (hc : Change (Parsed o.tracked) s e s') :
    s'.Covered o.goal := by
  intro hwin id w' hw'
  have hgoal := ha.settings.2
  have hwin₀ := hc.sharing.winner_of_none hwin
  have hbest := hc.covers_best (hgoal ▸ hg)
  rw [hgoal] at hbest
  refine hbest.trans ?_
  rcases hc.worker_cases ha.founded.numbered hw' with ⟨w, hw, hturn⟩ | ⟨-, -, _, _, _, hn, -⟩
  · rcases hturn.best with hsame | ⟨x, v, rfl, hl, hx, -, heq⟩
    · rw [hsame]
      exact hs hwin₀ id w hw
    · rw [heq]
      obtain ⟨injected, said, hspeaking, hv⟩ := exists_announced hc hx
      exact ha.announced hg hwin₀ id w injected said v hw hl hspeaking hv
  · rw [hn.eq_none.1]
    exact Goal.covers_none _ _

/-- In all that arises, the best values of the workers are covered. -/
theorem Arises.covered (h : Arises (Parsed o.tracked) o s) (hg : o.goal.isOptimization) :
    s.Covered o.goal := by
  apply h.invariant (I := Covered o.goal)
  · intro r hr _ id w hw
    rw [(hr.eq_none hw).1]
    exact Goal.covers_none _ _
  · intro s e s' ha hs hc
    exact hs.change ha hg hc

/-! ## The solutions printed -/

/-- The objective values of the solutions printed, the latest first. -/
def printedValues (s : Situation α) : List Objective := s.printed.filterMap (·.objective)

/-- Each solution printed improves on all that were printed before. -/
structure Printed (goal : Goal) (s : Situation α) : Prop where
  length : s.printed.length = s.run.solutions
  head : s.printedValues.head? = s.run.lastPrinted
  covered : goal.Covers s.run.incumbent.best s.run.lastPrinted
  improving : s.printedValues.Pairwise fun later earlier => goal.isBetter (some earlier) later

/-- What is added in front of improving values improves on all of them, if it improves on the
first. -/
theorem pairwise_cons_of_head {goal : Goal} {values : List Objective} {v : Objective}
    (h : values.Pairwise fun later earlier => goal.isBetter (some earlier) later)
    (hv : goal.isBetter values.head? v) :
    (v :: values).Pairwise fun later earlier => goal.isBetter (some earlier) later := by
  rw [List.pairwise_cons]
  refine ⟨fun u hu => ?_, h⟩
  cases values with
  | nil => cases hu
  | cons first rest =>
    rcases List.mem_cons.mp hu with rfl | hu
    · exact hv
    · exact Goal.isBetter_trans ((List.pairwise_cons.mp h).1 u hu) hv

/-- A solution that is printed has the best value known, if it has one. -/
theorem best_of_shows {x : Solution} (h : s.run.Shows x) {v : Objective}
    (hx : x.objective = some v) :
    s.run.incumbent.best = some v ∧ s.run.lastPrinted ≠ some v := by
  rw [Run.Shows, hx] at h
  exact h

/-- The solutions printed go on improving. -/
theorem Printed.change {goal : Goal} (hs : s.Printed goal) (hgoal : s.run.goal = goal)
    (hg : goal.isOptimization) (hc : Change P s e s') : s'.Printed goal := by
  subst hgoal
  have hbest := hc.covers_best hg
  cases hc.printing with
  | nothing hp hcount _ _ _ | closing _ hp hcount _ =>
    have hprinted := hc.printed_of_eq hcount
    have hvalues : s'.printedValues = s.printedValues := by rw [printedValues, hprinted]; rfl
    constructor
    case length => rw [hprinted, hcount, hs.length]
    case head => rw [hvalues, hp, hs.head]
    case covered =>
      rw [hp]
      exact hbest.trans hs.covered
    case improving =>
      rw [hvalues]
      exact hs.improving
  | @shown w x hw hl hg' hx hp hcount hlines =>
    have hprinted := hc.printed_solution hcount
    have hlength : s'.printed.length = s'.run.solutions := by
      rw [hprinted, hcount, List.length_cons, hs.length]
    -- A solution without a value changes nothing here; any other comes in front.
    cases ho : x.objective with
    | none =>
      have hvalues : s'.printedValues = s.printedValues := by
        rw [printedValues, hprinted, List.filterMap_cons_none ho]
        rfl
      have hlast : s'.run.lastPrinted = s.run.lastPrinted := by rw [hp, ho]; rfl
      refine ⟨hlength, ?_, ?_, ?_⟩
      · rw [hvalues, hlast, hs.head]
      · rw [hlast]
        exact hbest.trans hs.covered
      · rw [hvalues]
        exact hs.improving
    | some v =>
      obtain ⟨hv, hne⟩ := best_of_shows hx ho
      have hvalues : s'.printedValues = v :: s.printedValues := by
        rw [printedValues, hprinted, List.filterMap_cons_some ho]
        rfl
      have hlast : s'.run.lastPrinted = some v := by rw [hp, ho]; rfl
      refine ⟨hlength, ?_, ?_, ?_⟩
      · rw [hvalues, hlast, List.head?_cons]
      · rw [hlast, ← hv]
        exact hbest
      · rw [hvalues]
        refine pairwise_cons_of_head hs.improving ?_
        rw [hs.head]
        exact Goal.isBetter_of_covers (hv ▸ hs.covered) hne
  | satisfying hsat _ _ _ => exact absurd hsat (Goal.ne_satisfy hg)

/-- In all that arises, the solutions printed improve. -/
theorem Arises.printed (h : Arises P o s) (hg : o.goal.isOptimization) : s.Printed o.goal := by
  apply h.invariant (I := Printed o.goal)
  · intro r hr
    have hlast : r.lastPrinted = none := hr.lastPrinted
    refine ⟨hr.solutions.symm, hlast.symm, ?_, List.Pairwise.nil⟩
    show o.goal.Covers r.incumbent.best r.lastPrinted
    rw [hlast]
    exact Goal.covers_none _ _
  · intro s e s' ha hs hc
    exact hs.change ha.settings.2 hg hc

/-- As long as there is no winner, the lines printed are those of the solutions printed. -/
theorem Arises.lines (h : Arises P o s) :
    s.run.incumbent.winner = none → s.run.lines = s.printed.flatMap Solution.lines := by
  apply h.invariant (I := fun s =>
    s.run.incumbent.winner = none → s.run.lines = s.printed.flatMap Solution.lines)
  · intro r hr _
    exact hr.lines
  · intro s e s' _ hs hc hwin
    have hlines := hs (hc.sharing.winner_of_none hwin)
    cases hc.printing with
    | nothing hp hcount hl hn _ => rw [hl, hlines, hc.printed_of_eq hcount]
    | closing hn hp hcount _ => cases hwin.symm.trans hn
    | shown hw hl hg hx hp hcount hsame =>
      rw [hsame, hlines, hc.printed_solution hcount, List.flatMap_cons]
    | satisfying hg hp hcount hsame =>
      rw [hsame, hlines, hc.printed_solution hcount, List.flatMap_cons]

/-- A solution that a change prints has the best value known, if it has one. -/
theorem Change.printed_cases (hc : Change P s e s') (hg : s.run.goal.isOptimization) :
    s'.printed = s.printed ∨ ∃ x, s'.printed = x :: s.printed ∧
      ∀ v, x.objective = some v → s'.run.incumbent.best = some v := by
  have hsharing := hc.sharing
  cases hc.printing with
  | nothing hp hcount hl hn _ => exact Or.inl (hc.printed_of_eq hcount)
  | closing hn hp hcount _ => exact Or.inl (hc.printed_of_eq hcount)
  | @shown w x hw hl hg hx hp hcount _ =>
    refine Or.inr ⟨x, hc.printed_solution hcount, fun v hv => ?_⟩
    rcases hsharing.best_cases with hsame | ⟨_, _, he, _⟩
    · rw [hsame]
      exact (best_of_shows hx hv).1
    · simp at he
  | satisfying hsat hp hcount _ => exact absurd hsat (Goal.ne_satisfy hg)

/-! ## All values -/

variable [Timed α]

/-- A solution that a step prints has the best value known, if it has one. -/
theorem Step.printed_cases (h : Arises P o s) (hg : o.goal.isOptimization) {e : RunEvent}
    (hstep : Step P s e s') :
    s'.printed = s.printed ∨ ∃ x, s'.printed = x :: s.printed ∧
      ∀ v, x.objective = some v → s'.run.incumbent.best = some v := by
  rcases hstep.cases h.founded with ⟨usage, now, -, hround, heq⟩ | ⟨s₁, now, hc, hm, heq⟩
  · left
    rw [heq]
  · have hprinted : s'.printed = s₁.printed := by rw [heq]
    rw [hprinted, (Run.Moves.kept hm).incumbent]
    exact hc.printed_cases (h.settings.2 ▸ hg)

/-- As long as a run with an objective is not cancelled, no worker has found or was launched with
a better value than the best one known. In the whole run this value never gets worse, nor does the
bound of a worker, and the solutions printed improve on each other and have the best value known
when they are printed. -/
theorem reachable_coherent (hg : o.goal.isOptimization)
    (h : Reachable (Parsed o.tracked) o s) :
    (s.run.incumbent.cancelled = false →
      s.run.lines = s.printed.flatMap Solution.lines ∧ ∀ w ∈ s.run.workers,
        o.goal.Covers s.run.incumbent.best w.best ∧
          o.goal.Covers s.run.incumbent.best w.injected) ∧
    (∀ s', Steps (Parsed o.tracked) s s' →
      o.goal.Covers s'.run.incumbent.best s.run.incumbent.best ∧
      ∀ id w, s.run.worker? id = some w →
        ∃ w', s'.run.worker? id = some w' ∧ o.goal.Covers w'.injected w.injected) ∧
    ((s.printed.filterMap (·.objective)).Pairwise fun later earlier =>
      o.goal.isBetter (some earlier) later) ∧
    ∀ e s', Step (Parsed o.tracked) s e s' →
      s'.printed = s.printed ∨ ∃ x, s'.printed = x :: s.printed ∧
        ∀ v, x.objective = some v → s'.run.incumbent.best = some v := by
  have ha := h.arises
  refine ⟨fun hcancelled => ?_, fun s' hsteps => ?_, (ha.printed hg).improving,
    fun e s' hstep => hstep.printed_cases ha hg⟩
  · have hwin := ha.winner_of_not_cancelled hcancelled
    refine ⟨ha.lines hwin, fun w hw => ?_⟩
    obtain ⟨i, hi⟩ := List.mem_iff_getElem?.mp hw
    exact ⟨ha.covered hg hwin i w hi, (ha.bounded hg).worker i w hi⟩
  · have hcs := Steps.changes ha hsteps
    exact ⟨Changes.covers_best ha hg hcs, fun id w hw => Changes.covers_injected ha hg hcs hw⟩

/-- The run of the two solvers is one of well-formed output. -/
theorem reachable_duo :
    Reachable (Parsed "_objective") .duo (Opening.duo.situation.takes 0 duoEvents) := by
  refine steps_takes (hearsAll_duo ⟨["x = 9;".toList, "_objective = 9;".toList], rfl⟩
    ⟨["x = 9;".toList, "_objective = 9;".toList, "----------".toList], rfl⟩
    ⟨["x = 9;".toList, "_objective = 9;".toList, "----------".toList, "x = 5;".toList,
      "_objective = 5;".toList], rfl⟩)

/-- In the run of the two solvers the best value known covers that of the first and the bound of
the second. -/
theorem duo_coherent :
    ∃ s, Reachable (Parsed "_objective") .duo s ∧ s.run.incumbent.cancelled = false ∧
      s.run.incumbent.best = some 5 ∧ s.run.workers.map (·.best) = [some 9, none] ∧
        s.run.workers.map (·.injected) = [none, some 5] ∧
          ∀ w ∈ s.run.workers, Goal.minimize.Covers (some 5) w.best ∧
            Goal.minimize.Covers (some 5) w.injected :=
  ⟨_, reachable_duo, rfl, rfl, rfl, rfl,
    ((reachable_coherent (o := .duo) rfl reachable_duo).1 rfl).2⟩

end Situation

end SolverPortfolio
