import SolverPortfolio.Proofs.Bounds
import SolverPortfolio.Proofs.Reading
import SolverPortfolio.Proofs.SharedCore

/-
# The age of injected bounds

A launch takes its time: the model is converted before a bound is put in, and better
values may be found meanwhile. The bound put in is the best value known when the
launch was asked for. So it is never better than the best value known when it is put
in, and it is older than that by the time of the conversion.

Main definitions: `Situation.Asks`, `LaunchRequest.Spliced`.
Main statements: `LaunchRequest.spliced`, `Situation.Reachable.exists_asks`,
`Situation.reachable_spliced`.
-/

namespace SolverPortfolio

/-! ## Putting in a bound -/

/-- What may come of putting the bound of a request into a converted model: the model is changed
and solved with the bound, there is no bound, or the bound cannot be put in and the model is solved
without it. -/
inductive LaunchRequest.Spliced (request : LaunchRequest) :
    Except String (List Char) → SplicedModel → Prop where
  | injected {bound : Objective} {text constrained : List Char} (hb : request.bound = some bound)
      (h : FlatZinc.insertBound request.solver request.goal bound text = .ok constrained) :
      Spliced request (.ok text) ⟨some constrained, some bound, []⟩
  | unbounded {converted : Except String (List Char)} (hb : request.bound = none) :
      Spliced request converted ⟨none, none, []⟩
  | unreadable {bound : Objective} {cause : String} (n : Notice) (hb : request.bound = some bound) :
      Spliced request (.error cause) ⟨none, none, [n]⟩
  | unfit {bound : Objective} {text : List Char} {error : FlatZinc.Error} (n : Notice)
      (hb : request.bound = some bound)
      (h : FlatZinc.insertBound request.solver request.goal bound text = .error error) :
      Spliced request (.ok text) ⟨none, none, [n]⟩

/-- Where there is an objective, the bound that is put in is that of the request, and it is left out
only if there is none or the model cannot take it. -/
theorem LaunchRequest.spliced {request : LaunchRequest} (hg : request.goal.isOptimization)
    (converted : Except String (List Char)) :
    request.Spliced converted (request.splice converted) := by
  unfold splice
  rw [if_pos hg]
  cases hb : request.bound with
  | none => exact .unbounded hb
  | some bound =>
    cases converted with
    | error cause => exact .unreadable _ hb
    | ok text =>
      cases h : FlatZinc.insertBound request.solver request.goal bound text with
      | error error =>
        simp only [h]
        exact .unfit _ hb h
      | ok constrained =>
        simp only [h]
        exact .injected hb h

namespace Run

variable {α : Type} {now : Instant} {r r' : Run α}

/-- A launch that is asked for in a round carries the best value known in it. -/
theorem Round.launch_mem (h : Round now r r') {request : LaunchRequest}
    (hq : .launch request ∈ r'.effects) :
    .launch request ∈ r.effects ∨
      request.goal = r'.goal ∧ request.bound = r'.incumbent.best := by
  induction h with
  | refl => exact Or.inl hq
  | @tail r₁ r₂ hround hm ih =>
    have hkept : r₂.incumbent = r₁.incumbent :=
      hm.elim (fun hm => hm.kept.incumbent) fun hi => hi.kept.incumbent
    have hnew : .launch request ∈ r₁.effects ∨ r₂.IsCurrent request :=
      hm.elim (fun hm => hm.launch_mem hq) fun hi => hi.launch_mem hq
    rcases hnew with hq | ⟨hgoal, hbound, -⟩
    · rw [goal, hkept]
      exact ih hq
    · exact Or.inr ⟨hgoal, hbound⟩

end Run

namespace Situation

variable {α : Type} [Timed α] {P : Discipline} {o : Opening α} {s s' : Situation α}
  {request : LaunchRequest}

/-! ## When a launch is asked for -/

/-- A launch that is asked for in a step carries the best value known after the step. -/
theorem Step.launch_mem (hf : s.Founded) {e : RunEvent} (h : Step P s e s')
    (hq : .launch request ∈ s'.run.effects) :
    .launch request ∈ s.run.effects ∨
      request.goal = s'.run.goal ∧ request.bound = s'.run.incumbent.best := by
  rcases h.cases hf with ⟨usage, now, -, hround, -⟩ | ⟨s₁, now, hc, hm, -⟩
  · exact hround.launch_mem hq
  · rcases hm.round.launch_mem hq with hq₁ | hnew
    · rcases hc.launch_mem hq₁ with hq₀ | ⟨hgoal, hbound, -⟩
      · exact Or.inl hq₀
      · have hkept := (Run.Moves.kept hm).incumbent
        exact Or.inr (by rw [Run.goal, hkept]; exact ⟨hgoal, hbound⟩)
    · exact Or.inr hnew

/-- A launch that is asked for in the beginning carries the best value known then. -/
theorem launch_mem_situation (hq : .launch request ∈ o.situation.run.effects) :
    request.goal = o.situation.run.goal ∧ request.bound = o.situation.run.incumbent.best := by
  obtain ⟨r, hr, hm⟩ := Run.exists_enrolled o
  rcases hm.round.launch_mem hq with hq | hnew
  · obtain ⟨hgoal, hbound, -⟩ := hr.request request hq
    rw [Run.goal, (Run.Moves.kept hm).incumbent]
    exact ⟨hgoal, hbound⟩
  · exact hnew

/-- A launch has just been asked for, in the beginning or in the last step. -/
def Asks (P : Discipline) (o : Opening α) (s : Situation α) (request : LaunchRequest) : Prop :=
  .launch request ∈ s.run.effects ∧ (s = o.situation ∨
    ∃ before e, Reachable P o before ∧ Step P before e s ∧ .launch request ∉ before.run.effects)

/-- Every launch was once asked for, with the best value known then. -/
theorem Reachable.exists_asks (h : Reachable P o s) (hq : .launch request ∈ s.run.effects) :
    ∃ asked, Reachable P o asked ∧ Steps P asked s ∧ Asks P o asked request ∧
      request.goal = o.goal ∧ request.bound = asked.run.incumbent.best := by
  induction h with
  | refl =>
    obtain ⟨hgoal, hbound⟩ := launch_mem_situation hq
    have hopen : Arises P o o.situation := Reachable.arises Relation.ReflTransGen.refl
    exact ⟨_, Relation.ReflTransGen.refl, Relation.ReflTransGen.refl, ⟨hq, Or.inl rfl⟩,
      hgoal.trans hopen.settings.2, hbound⟩
  | @tail before s hbefore hstep ih =>
    by_cases hold : .launch request ∈ before.run.effects
    · obtain ⟨asked, hasked, hsteps, hasks⟩ := ih hold
      exact ⟨asked, hasked, hsteps.tail hstep, hasks⟩
    · obtain ⟨e, hstep⟩ := hstep
      have hs : Reachable P o s := hbefore.tail ⟨e, hstep⟩
      obtain ⟨hgoal, hbound⟩ :=
        (hstep.launch_mem (Reachable.arises hbefore).founded hq).resolve_left hold
      exact ⟨s, hs, Relation.ReflTransGen.refl, ⟨hq, Or.inr ⟨before, e, hbefore, hstep, hold⟩⟩,
        hgoal.trans hs.arises.settings.2, hbound⟩

/-- Whenever a launch task puts in a bound, this is the best value that was known when the launch
was asked for, which the best value known by then covers. It puts in none only if none was known
when the launch was asked for or the converted model cannot take it. -/
theorem reachable_spliced (hg : o.goal.isOptimization) (h : Reachable P o s)
    (hq : .launch request ∈ s.run.effects) (converted : Except String (List Char)) :
    ∃ asked, Reachable P o asked ∧ Steps P asked s ∧ Asks P o asked request ∧
      request.bound = asked.run.incumbent.best ∧
      o.goal.Covers s.run.incumbent.best asked.run.incumbent.best ∧
      request.Spliced converted (request.splice converted) := by
  obtain ⟨asked, hasked, hsteps, hasks, hgoal, hbound⟩ := Reachable.exists_asks h hq
  have ha := Reachable.arises hasked
  refine ⟨asked, hasked, hsteps, hasks, hbound, ?_, LaunchRequest.spliced (hgoal ▸ hg) converted⟩
  exact Changes.covers_best ha hg (Steps.changes ha hsteps)

/-! ## A launch of the second of two solvers -/

/-- The first solver prints a solution and its slot runs out; while the model is converted for the
second one, it announces a better value. -/
def lateEvents : List RunEvent :=
  [.message (.launched 0 0 10 none),
    .message (.output 0 0 (.bound 9)),
    .message (.output 0 0 (.solution ⟨"x = 9;\n", some 9⟩)),
    .slotExpired,
    .message (.output 0 0 (.bound 5))]

/-- The launch of the second solver. -/
def lateRequest : LaunchRequest where
  worker := 1
  generation := 0
  solver := .plain "b"
  goal := .minimize
  tracked := "_objective"
  bound := some 9
  allSolutions := false
  freeSearch := false
  timeoutSeconds := (Duration.ofWholeSeconds 10).ceilSeconds

/-- The first solver may print all this. -/
theorem reachable_late :
    Reachable (Parsed "_objective") .duo (Opening.duo.situation.takes 0 lateEvents) := by
  refine steps_takes ⟨?_, ?_, ?_, trivial, ?_, trivial⟩
  · exact Sends.launched_of_any 0 0 10 none (.error "") rfl
  · exact Sends.output 0 0 ⟨["x = 9;".toList, "_objective = 9;".toList], rfl⟩
  · exact Sends.output 0 0
      ⟨["x = 9;".toList, "_objective = 9;".toList, "----------".toList], rfl⟩
  · exact Sends.output 0 0
      ⟨["x = 9;".toList, "_objective = 9;".toList, "----------".toList, "x = 5;".toList,
        "_objective = 5;".toList], rfl⟩

/-- The second solver has been asked for. -/
theorem lateRequest_mem :
    .launch lateRequest ∈ (Opening.duo.situation.takes 0 lateEvents).run.effects :=
  List.mem_cons_of_mem _ List.mem_cons_self

/-- The second solver is launched with the best value known when it was asked for. -/
theorem late_spliced :
    ∃ s asked, Reachable (Parsed "_objective") .duo s ∧ .launch lateRequest ∈ s.run.effects ∧
      Steps (Parsed "_objective") asked s ∧ asked.run.incumbent.best = some 9 ∧
      lateRequest.Spliced (.ok "solve minimize x;".toList)
        (lateRequest.splice (.ok "solve minimize x;".toList)) := by
  obtain ⟨asked, -, hsteps, -, hbound, -, hspliced⟩ :=
    reachable_spliced (o := .duo) rfl reachable_late lateRequest_mem
      (.ok "solve minimize x;".toList)
  exact ⟨_, asked, reachable_late, lateRequest_mem, hsteps, hbound.symm, hspliced⟩

/-- The model of the second solver gets the bound 9 when 5 is known already, or none if the
constraint cannot be put in. -/
theorem exists_worse_bound_spliced :
    ∃ s, Reachable (Parsed "_objective") .duo s ∧ s.run.incumbent.best = some 5 ∧
      .launch lateRequest ∈ s.run.effects ∧
      s.progress (lateRequest.worker, lateRequest.generation) = .pending ∧
      (lateRequest.splice (.ok "solve minimize x;".toList)).injected = some 9 ∧
      Goal.minimize.isBetter (some 9) 5 ∧
      (lateRequest.splice (.ok "var 1..9: x;".toList)).injected = none :=
  ⟨_, reachable_late, rfl, lateRequest_mem, rfl, rfl, rfl, rfl⟩

end Situation

end SolverPortfolio
