import SolverPortfolio.Proofs.DoubleOrder
import SolverPortfolio.Proofs.Loading

/-
# Recorded runs on optimization problems

A recorded run on an optimization problem takes no longer than the timeout, has a value unless
nothing was found, and takes as long as the timeout just if it found something and did not finish
or found nothing and does not know why. An outcome with a score belongs to such a problem even if
it does not say whether the objective is minimized or maximized. The rules are checked as they
stand where the outcome says it. Where it does not, a run that found a value and did not finish is
checked as if it had finished: it is refused just if it took as long as the timeout.

Main definitions: `Outcome.Obeys`.
Main statements: `Outcome.exceeds_eq_false_iff`, `Outcome.hits_iff`, `Outcome.violated?_graded`,
`Entry.graded_accepted_iff`.
-/

namespace SolverPortfolio

open Number (level)

namespace Outcome

/-! ## Times -/

/-- The rules for a run on an optimization problem with a recorded end: it took at most the timeout,
has no value just if there is none or none was found, and took just the timeout if it knows of none
or did not finish. -/
structure Obeys (o : Outcome Float) (status : RunStatus) (T : Float) : Prop where
  within : o.time ≤ T + timeTolerance
  valued : status = .unknown ∨ status = .unsatisfiable ↔ o.value = none
  timedOut : status = .unknown ∨ status = .satisfied ↔ (o.time - T).abs ≤ timeTolerance

variable {o : Outcome Float} {status : RunStatus} {T : Float}

/-- The tolerance is a positive number. -/
theorem isNaN_timeTolerance : (timeTolerance : Float).isNaN = false := by decide +kernel

/-- A time that does not exceed the timeout is at most the timeout, within the tolerance. -/
theorem exceeds_eq_false_iff (htime : o.time.isNaN = false) (hT : T.isNaN = false) :
    o.exceeds T = false ↔ o.time ≤ T + timeTolerance := by
  have hlate : (T + timeTolerance).isNaN = false := Number.isNaN_add hT (by decide +kernel)
  have hlt : o.exceeds T = true ↔ T + timeTolerance < o.time := decide_eq_true_iff
  rw [← Bool.not_eq_true, hlt, Number.lt_iff hlate htime, Number.le_iff htime hlate, not_lt]

/-- A time equals the timeout if it differs from it by at most the tolerance. -/
theorem hits_iff : o.hits T = true ↔ (o.time - T).abs ≤ timeTolerance := by
  have hexpand : o.hits T = true ↔ (¬ timeTolerance < o.time - T ∧
      ¬ o.time - T < 0 - timeTolerance) ∧ (o.time - T == o.time - T) = true := by
    simp [hits, Quantity.lt]
  rw [hexpand]
  cases hdefined : (o.time - T).isNaN with
  | true =>
    rw [Float.isNaN_eq_decide_eq_nan, decide_eq_true_eq] at hdefined
    rw [hdefined]
    decide +kernel
  | false =>
    have hlow : (0 - timeTolerance : Float).isNaN = false := by decide +kernel
    have hopposite : level (0 - timeTolerance) = -level timeTolerance := by decide +kernel
    obtain ⟨habs, hlevel⟩ := Number.level_abs hdefined
    rw [Number.lt_iff isNaN_timeTolerance hdefined, Number.lt_iff hdefined hlow,
      Number.beq_iff hdefined hdefined, Number.le_iff habs isNaN_timeTolerance, hlevel, hopposite,
      abs_le, not_lt, not_lt, and_iff_left rfl, and_comm]

/-! ## Outcomes -/

/-- The outcome of an optimization problem violates no rule if it violates none of the three. -/
theorem violated?_eq_none_iff (hoptimization : o.isOptimization = true)
    (hstatus : o.status = some status) : o.violated? (some T) = none ↔ o.exceeds T = false ∧
      (o.goal = some .satisfy ∨ status = .unknown ∨ status = .unsatisfiable ↔ o.value = none) ∧
      (status = .unknown ∨ (o.goal ≠ none ∧ o.goal ≠ some .satisfy) ∧ status = .satisfied ↔
        o.hits T = true) := by
  have hvalueless : (o.goal == some .satisfy || status == .unknown || status == .unsatisfiable) =
      true ↔ o.goal = some .satisfy ∨ status = .unknown ∨ status = .unsatisfiable := by
    simp [or_assoc]
  have hvalued : (o.goal == some .satisfy || status == .unknown || status == .unsatisfiable) =
      o.value.isSome ↔ ¬ (o.goal = some .satisfy ∨ status = .unknown ∨ status = .unsatisfiable ↔
        o.value = none) := by
    rw [Bool.eq_iff_iff, hvalueless, Option.isSome_iff_ne_none]
    exact iff_not_comm.trans (iff_comm.trans not_iff.symm)
  have htimedOut : (status == .unknown ||
      (!(o.goal == none || o.goal == some .satisfy) && status == .satisfied)) = o.hits T ↔
        (status = .unknown ∨ (o.goal ≠ none ∧ o.goal ≠ some .satisfy) ∧ status = .satisfied ↔
          o.hits T = true) := by
    rw [Bool.eq_iff_iff]
    simp [and_assoc, Option.isSome_iff_ne_none]
  unfold violated?
  rw [hstatus, hoptimization]
  simp only [Bool.true_and, beq_iff_eq, hvalued, htimedOut]
  split
  · next hlate => exact iff_of_false nofun fun h => Bool.false_ne_true (h.1.symm.trans hlate)
  · next hintime =>
    split
    · next hvalue => exact iff_of_false nofun fun h => hvalue h.2.1
    · next hvalue =>
      split
      · next htimed =>
        exact iff_of_true rfl ⟨Bool.not_eq_true _ ▸ hintime, not_not.mp hvalue, htimed⟩
      · next htimed => exact iff_of_false nofun fun h => htimed h.2.2

/-- The rules as they are checked for a run on an optimization problem with a recorded end. -/
theorem violated?_graded (hoptimization : o.isOptimization = true) (hgoal : o.goal ≠ some .satisfy)
    (hstatus : o.status = some status) (htime : o.time.isNaN = false) (hT : T.isNaN = false) :
    o.violated? (some T) = none ↔ o.time ≤ T + timeTolerance ∧
      (status = .unknown ∨ status = .unsatisfiable ↔ o.value = none) ∧
      (status = .unknown ∨ status = .satisfied ∧ o.goal ≠ none ↔
        (o.time - T).abs ≤ timeTolerance) := by
  rw [violated?_eq_none_iff hoptimization hstatus, exceeds_eq_false_iff htime hT, hits_iff,
    and_iff_left hgoal, or_iff_right hgoal, and_comm (b := status = .satisfied)]

/-- The check and the rules disagree about a run on an optimization problem with a recorded end just
if it has a value, is in time and did not finish, and its outcome does not say how the objective is
optimized. -/
theorem violated?_iff_obeys_iff (hoptimization : o.isOptimization = true)
    (hgoal : o.goal ≠ some .satisfy) (hstatus : o.status = some status)
    (htime : o.time.isNaN = false) (hT : T.isNaN = false) :
    (o.violated? (some T) = none ↔ o.Obeys status T) ↔
      ¬ (o.goal = none ∧ status = .satisfied ∧ o.value ≠ none ∧ o.time ≤ T + timeTolerance) := by
  have hobeys : o.Obeys status T ↔ o.time ≤ T + timeTolerance ∧
      (status = .unknown ∨ status = .unsatisfiable ↔ o.value = none) ∧
      (status = .unknown ∨ status = .satisfied ↔ (o.time - T).abs ≤ timeTolerance) :=
    ⟨fun h => ⟨h.within, h.valued, h.timedOut⟩, fun h => ⟨h.1, h.2.1, h.2.2⟩⟩
  rw [violated?_graded hoptimization hgoal hstatus htime hT, hobeys]
  by_cases hhidden : o.goal = none ∧ status = .satisfied
  · obtain ⟨hnone, rfl⟩ := hhidden
    -- The two readings of the last rule are opposites here.
    generalize (o.time ≤ T + timeTolerance) = within
    generalize ((o.time - T).abs ≤ timeTolerance) = timedOut
    simp [hnone]
    tauto
  · have hsame : status = .unknown ∨ status = .satisfied ∧ o.goal ≠ none ↔
        status = .unknown ∨ status = .satisfied :=
      or_congr_right (and_iff_left_of_imp fun hsat hnone => hhidden ⟨hnone, hsat⟩)
    rw [hsame]
    exact iff_of_true Iff.rfl fun h => hhidden ⟨h.1, h.2.1⟩

end Outcome

/-! ## Entries -/

/-- An entry whose other outcomes violate no rule violates one just if the remaining one does. -/
theorem Entry.violation?_eq_none_iff_of_others {entry : Entry Float} {timeout : Option Float}
    {p : String × Outcome Float} (hmem : p ∈ entry.outcomes)
    (hothers : ∀ q ∈ entry.outcomes, q ≠ p → q.2.violated? timeout = none) :
    entry.violation? timeout = none ↔ p.2.violated? timeout = none := by
  rw [Entry.violation?_eq_none_iff]
  constructor
  · intro hall
    exact hall p hmem
  · intro hp q hq
    by_cases heq : q = p
    · exact heq ▸ hp
    · exact hothers q hq heq

/-- The rules for runs on optimization problems. An entry, of which no other outcome violates a
rule, is accepted with an outcome that has a recorded end and does not belong to a satisfaction
problem just if it is in time, has a value just if one was found, and took the timeout just if it
knows of no value, or has one, did not finish and says how the objective is optimized. So it is
accepted just if the outcome obeys the rules, except for an outcome in time that has a value, did
not finish and does not say how the objective is optimized: that one is accepted just if it does not
obey them. -/
theorem Entry.graded_accepted_iff {entry : Entry Float} {solver : String} {o : Outcome Float}
    {status : RunStatus} {T : Float} (hmem : (solver, o) ∈ entry.outcomes)
    (hothers : ∀ p ∈ entry.outcomes, p ≠ (solver, o) → p.2.violated? (some T) = none)
    (hoptimization : o.isOptimization = true) (hgoal : o.goal ≠ some .satisfy)
    (hstatus : o.status = some status) (htime : o.time.isNaN = false) (hT : T.isNaN = false) :
    (entry.violation? (some T) = none ↔ o.time ≤ T + timeTolerance ∧
      (status = .unknown ∨ status = .unsatisfiable ↔ o.value = none) ∧
      (status = .unknown ∨ status = .satisfied ∧ o.goal ≠ none ↔
        (o.time - T).abs ≤ timeTolerance)) ∧
    ((entry.violation? (some T) = none ↔ o.Obeys status T) ↔
      ¬ (o.goal = none ∧ status = .satisfied ∧ o.value ≠ none ∧ o.time ≤ T + timeTolerance)) := by
  rw [Entry.violation?_eq_none_iff_of_others hmem hothers]
  exact ⟨Outcome.violated?_graded hoptimization hgoal hstatus htime hT,
    Outcome.violated?_iff_obeys_iff hoptimization hgoal hstatus htime hT⟩

/-- A run that found the value 3 and was stopped by a timeout of 30 seconds. -/
def stoppedRun (goal : Option Goal) : Outcome Float :=
  ⟨30, some .satisfied, goal, some 0.5, none, some 3⟩

/-- An entry with the outcome of one run. -/
def stoppedEntry (goal : Option Goal) : Entry Float := ⟨"i1", [some 0], [("a", stoppedRun goal)]⟩

/-- The run is accepted as the rules have it if the value is minimized. -/
theorem stopped_minimization_accepted :
    ((stoppedEntry (some .minimize)).violation? (some 30) = none ↔
      (stoppedRun (some .minimize)).Obeys .satisfied 30) ∧
    (stoppedEntry (some .minimize)).violation? (some 30) = none := by
  have haccepted : (stoppedEntry (some .minimize)).violation? (some 30) = none := by
    decide +kernel
  have hmem : ("a", stoppedRun (some .minimize)) ∈ (stoppedEntry (some .minimize)).outcomes :=
    List.mem_cons_self
  have hgraded := Entry.graded_accepted_iff hmem
    (fun p hp hne => absurd (List.mem_singleton.mp hp) hne) rfl (by decide) rfl
    (by decide +kernel) (by decide +kernel : (30 : Float).isNaN = false)
  exact ⟨hgraded.2.mpr fun h => absurd h.1 (by decide), haccepted⟩

/-- Without a goal the run obeys the rules, too, and is refused. -/
theorem stopped_score_refused :
    (stoppedRun none).isOptimization = true ∧ (stoppedRun none).Obeys .satisfied 30 ∧
      (stoppedEntry none).violation? (some 30) = some ⟨.timeoutIffUnfinished, "a", "i1"⟩ := by
  have hintime : (30 : Float) ≤ 30 + timeTolerance := by decide +kernel
  have htimed : ((30 : Float) - 30).abs ≤ timeTolerance := by decide +kernel
  exact ⟨rfl, ⟨hintime, by decide, iff_of_true (.inr rfl) htimed⟩, by decide +kernel⟩

end SolverPortfolio
