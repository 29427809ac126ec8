import SolverPortfolio.Proofs.Bounds
import SolverPortfolio.Proofs.SharedCore

/-
# Soundness of proofs

Solvers that tell the truth about the models they were given also tell the truth
together. A proof is relative to the bound that its process was launched with; it
holds of the problem itself because the best value known covers that bound, and all
that the process announced, whatever was restarted or came late in between.

Main definitions: `Problem`, `Problem.IsOptimum`, `Truthful`, `Situation.Attained`,
`Situation.Aware`, `Problem.Bears`.
Main statements: `Situation.Arises.attained`, `Situation.Arises.aware`,
`Situation.bears_of_proofOf`, `Situation.reachable_sound`.
-/

namespace SolverPortfolio

/-- A problem with an objective: the solutions and their values. -/
structure Problem (σ : Type) where
  feasible : σ → Prop
  value : σ → Objective

namespace Problem

variable {σ : Type}

/-- A value that some solution has. -/
def Attains (p : Problem σ) (v : Objective) : Prop := ∃ x, p.feasible x ∧ p.value x = v

/-- The best value that a solution has. -/
def IsOptimum (p : Problem σ) (goal : Goal) (v : Objective) : Prop :=
  p.Attains v ∧ ∀ x, p.feasible x → goal.isBetter (some v) (p.value x) = false

/-- A proof that is right: what is optimal is the best value, and what is unsatisfiable has no
solution. -/
def Bears (p : Problem σ) (goal : Goal) (best : Option Objective) : Proof → Prop
  | .optimal => ∃ v, best = some v ∧ p.IsOptimum goal v
  | .unsatisfiable => ∀ x, ¬ p.feasible x
  | _ => True

end Problem

/-- What a truthful process says of a problem. It announces values of solutions that improve on its
bound. It claims that there is none only if there is none, and that its search is complete only
after it has announced the best of them. -/
structure Truthful {σ : Type} (p : Problem σ) (goal : Goal) (injected : Option Objective)
    (said : List StreamEvent) : Prop where
  bound : ∀ v, .bound v ∈ said → p.Attains v ∧ goal.isBetter injected v
  unsatisfiable : .completed .unsatisfiable ∈ said →
    ∀ v, p.Attains v → goal.isBetter injected v = false
  optimal : ∀ before later, said = before ++ .completed .optimal :: later →
    ∃ v, .bound v ∈ before ∧
      ∀ u, p.Attains u → goal.isBetter injected u → goal.isBetter (some v) u = false

namespace Situation

variable {α σ : Type} {p : Problem σ} {o : Opening α} {s s' : Situation α}
  {e : Option RunEvent}

/-! ## Values of solutions -/

/-- The best value and all bounds are values of solutions. -/
structure Attained (p : Problem σ) (s : Situation α) : Prop where
  best : ∀ v, s.run.incumbent.best = some v → p.Attains v
  request : ∀ request v, .launch request ∈ s.run.effects → request.bound = some v → p.Attains v
  worker : ∀ id w v, s.run.worker? id = some w → w.injected = some v → p.Attains v

/-- The best value and all bounds go on being values of solutions. -/
theorem Attained.change (hs : s.Attained p) (hf : s.Founded)
    (hc : Change (Truthful p o.goal) s e s') : s'.Attained p := by
  have hbest : ∀ v, s'.run.incumbent.best = some v → p.Attains v := by
    intro v hv
    rcases hc.sharing.best_cases with hsame | ⟨w, value, rfl, hoffer⟩
    · exact hs.best v (hsame ▸ hv)
    · rw [hoffer] at hv
      rcases s.run.incumbent.best_offer_eq_or value with hsame | hvalue
      · exact hs.best v (hsame ▸ hv)
      · cases hvalue.symm.trans hv
        obtain ⟨injected, said, -, htruthful⟩ := hc.sends.of_output
        exact (htruthful.bound _ (List.mem_append_right _ (List.mem_singleton_self _))).1
  constructor
  case best => exact hbest
  case request =>
    intro request v hq hv
    rcases hc.launch_mem hq with hq | ⟨-, hbound, -⟩
    · exact hs.request request v hq hv
    · exact hbest v (hbound ▸ hv)
  case worker =>
    intro id w' v hw' hv
    rcases hc.worker_cases hf.numbered hw' with ⟨w, hw, hturn⟩ | ⟨-, -, _, _, _, hn, -⟩
    · rcases hturn.injected with hsame | ⟨process, injected, rfl, -, heq⟩
      · exact hs.worker id w v hw (hsame ▸ hv)
      · rw [heq] at hv
        obtain ⟨request, hq, -, -, hnone | hbound⟩ := hc.sends.exists_request
        · rw [hnone] at hv
          exact hs.worker id w v hw hv
        · cases injected with
          | none => exact hs.worker id w v hw hv
          | some u => exact hs.request request v hq (hbound.symm.trans hv)
    · cases hn.eq_none.2.1.symm.trans hv

/-- In all that arises, the best value and all bounds are values of solutions. -/
theorem Arises.attained (h : Arises (Truthful p o.goal) o s) : s.Attained p := by
  apply h.invariant (I := Attained p)
  · intro r hr
    have hbest : r.incumbent.best = none := by rw [hr.incumbent]; rfl
    constructor
    case best =>
      intro v hv
      cases hbest.symm.trans hv
    case request =>
      intro request v hq hv
      cases ((hr.request request hq).2.1.trans hbest).symm.trans hv
    case worker =>
      intro id w v hw hv
      cases (hr.eq_none hw).2.1.symm.trans hv
  · intro s e s' ha hs hc
    exact hs.change ha.founded hc

/-! ## Bounds of workers and their processes -/

/-- A live worker whose process has a bound has one itself. -/
def Aware (s : Situation α) : Prop :=
  ∀ id w injected said, s.run.worker? id = some w → w.isLive →
    s.progress (w.id, w.generation) = .speaking injected said →
      injected.isSome → w.injected.isSome

/-- A process is reported only to a worker that waits for it. -/
theorem Arises.waiting {P : Discipline} (h : Arises P o s) {id : WorkerId} {w : Worker}
    (hw : s.run.worker? id = some w) (hl : w.isLive)
    (hp : s.progress (w.id, w.generation) = .pending) :
    w.phase = .converting ∨ w.phase = .restarting := by
  have hnone : w.process = none := by
    cases hprocess : w.process with
    | none => rfl
    | some process =>
      obtain ⟨-, injected, said, hspeaking⟩ := h.sound.process id w process hw hprocess
      cases hp.symm.trans hspeaking
  have hprocess := (h.sound.worker id w hw).process
  have hbegun := h.begun id w hw
  have hlive := Worker.isLive_iff.mp hl
  rw [hnone] at hprocess
  generalize w.phase = phase at hprocess hbegun hlive ⊢
  cases phase <;> simp_all

/-- Workers go on being aware of the bounds of their processes. -/
theorem Aware.change {P : Discipline} (hs : s.Aware) (ha : Arises P o s)
    (hc : Change P s e s') : s'.Aware := by
  intro id w' injected said hw' hl' hspeaking hsome
  obtain ⟨w, hw, hl, hturn, hcases⟩ := hc.exists_speaker ha.founded hw' hl' hspeaking
  have hkept (h : w.injected.isSome) : w'.injected.isSome := by
    rcases hturn.injected with hsame | ⟨process, other, -, -, heq⟩
    · rw [hsame]
      exact h
    · rw [heq]
      cases other <;> simp [h]
  rcases hcases with hold | ⟨-, process, rfl⟩ | ⟨said', event, rfl, -, hold, -⟩
  · exact hkept (hs id w injected said hw hl hold hsome)
  · have hp := ha.waiting hw hl hc.sends.of_launched.1
    rw [hturn.injected_of_launched rfl hp hl']
    cases injected with
    | none => cases hsome
    | some v => rfl
  · exact hkept (hs id w injected said' hw hl hold hsome)

/-- In all that arises, workers are aware of the bounds of their processes. -/
theorem Arises.aware {P : Discipline} (h : Arises P o s) : s.Aware := by
  apply h.invariant (I := Aware)
  · intro r hr id w injected said _ _ hspeaking
    cases hspeaking
  · intro s e s' ha hs hc
    exact hs.change ha hc

/-! ## Proofs -/

/-- The best value is optimal if it covers the values of all solutions. -/
theorem isOptimum_of_covers {goal : Goal} {v : Objective} (hv : p.Attains v)
    (h : ∀ u, p.Attains u → goal.Covers (some v) (some u)) : p.IsOptimum goal v :=
  ⟨hv, fun x hx => h _ ⟨x, hx, rfl⟩ _ rfl⟩

/-- What covers the bound of a process covers the values that do not improve on it. -/
theorem covers_of_not_better {goal : Goal} {best injected : Option Objective} {u : Objective}
    (h : goal.Covers best injected) (hu : goal.isBetter injected u = false) :
    goal.Covers best (some u) :=
  h.trans (Goal.covers_some.2 hu)

/-- What a truthful process proves holds of the problem. -/
theorem bears_of_proofOf (ha : Arises (Truthful p o.goal) o s) (hg : o.goal.isOptimization)
    (hn : s.run.incumbent.winner = none) {w : Worker} {injected : Option Objective}
    {said : List StreamEvent} {status : SearchStatus} {proof : Proof}
    (hw : s.run.worker? w.id = some w) (hl : w.isLive)
    (hspeaking : s.progress (w.id, w.generation) = .speaking injected said)
    (htruthful : Truthful p o.goal injected (said ++ [.completed status]))
    (hproof : s.run.proofOf w status = some proof) :
    p.Bears o.goal s.run.incumbent.best proof := by
  have hbounded := (ha.bounded hg).process _ _ _ hspeaking
  have hgoal : s.run.goal ≠ .satisfy := by
    rw [ha.settings.2]
    exact Goal.ne_satisfy hg
  have hoptimum {v : Objective} (hv : s.run.incumbent.best = some v)
      (h : ∀ u, p.Attains u → o.goal.Covers s.run.incumbent.best (some u)) :
      p.Bears o.goal s.run.incumbent.best .optimal :=
    ⟨v, hv, isOptimum_of_covers (ha.attained.best v hv) (hv ▸ h)⟩
  cases status with
  | unknown => cases hproof
  | unbounded =>
    cases hproof
    trivial
  | optimal =>
    cases hproof
    obtain ⟨v, hv, hbest⟩ := htruthful.optimal said [] rfl
    -- The best value covers what was announced, and that covers all that improves on the bound.
    have hcovers := ha.announced hg hn w.id w injected said v hw hl hspeaking hv
    obtain ⟨b, hb⟩ := Goal.exists_of_covers_some hcovers
    refine hoptimum hb fun u hu => ?_
    cases hbetter : o.goal.isBetter injected u with
    | true => exact hcovers.trans (Goal.covers_some.2 (hbest u hu hbetter))
    | false => exact covers_of_not_better hbounded hbetter
  | unsatisfiable =>
    have hnone := htruthful.unsatisfiable
      (List.mem_append_right _ (List.mem_singleton_self _))
    simp only [Run.proofOf, if_neg hgoal] at hproof
    split at hproof
    · next hinjected =>
      cases hproof
      obtain ⟨c, hc⟩ := Option.isSome_iff_exists.mp hinjected
      have hcovers := (ha.bounded hg).worker w.id w hw
      rw [hc] at hcovers
      obtain ⟨b, hb⟩ := Goal.exists_of_covers_some hcovers
      exact hoptimum hb fun u hu => covers_of_not_better hbounded (hnone u hu)
    · next hinjected =>
      split at hproof
      -- A worker that has no bound has a process without one, which knows of no solution at all.
      · cases hproof
        cases injected with
        | some v => exact absurd (ha.aware w.id w _ said hw hl hspeaking rfl) hinjected
        | none =>
          intro x hx
          have hx' := hnone _ ⟨x, hx, rfl⟩
          rw [Goal.isBetter_none] at hx'
          cases hx'
      · cases hproof

/-- Once there is a winner, its proof is right. -/
theorem Arises.bears (h : Arises (Truthful p o.goal) o s) (hg : o.goal.isOptimization) :
    ∀ winner, s.run.incumbent.winner = some winner →
      p.Bears o.goal s.run.incumbent.best winner.proof := by
  apply h.invariant (I := fun s => ∀ winner, s.run.incumbent.winner = some winner →
    p.Bears o.goal s.run.incumbent.best winner.proof)
  · intro r hr winner hwin
    rw [show r.incumbent = Incumbent.start o.goal from hr.incumbent] at hwin
    cases hwin
  · intro s e s' ha hs hc winner hwin
    have hg₀ : s.run.goal.isOptimization := ha.settings.2 ▸ hg
    -- Once there is a winner nothing is offered any more, so that its proof stays right.
    cases hn : s.run.incumbent.winner with
    | none =>
      obtain ⟨hbest, w, status, proof, rfl, hw, hl, hproof, rfl⟩ :=
        hc.sharing.of_declared hg₀ hn hwin
      obtain ⟨injected, said, hspeaking, htruthful⟩ := hc.sends.of_output
      rw [hbest]
      exact bears_of_proofOf ha hg hn hw hl hspeaking htruthful hproof
    | some first =>
      obtain ⟨hsame, hbest⟩ := hc.sharing.of_winner (by simp [hn])
      rw [hbest]
      exact hs winner (hsame ▸ hwin)

/-- When truthful processes solve a problem with an objective, whatever the interleaving of their
messages, slots, ticks and signals: a declared optimum is the best value of all solutions, and the
best value known, and a problem declared unsatisfiable has no solution. -/
theorem reachable_sound [Timed α] (hg : o.goal.isOptimization)
    (h : Reachable (Truthful p o.goal) o s) {name : String} {proof : Proof}
    (hwin : s.run.incumbent.winner = some ⟨name, proof⟩) :
    (proof = .optimal → ∃ v, s.run.incumbent.best = some v ∧ p.Attains v ∧
      ∀ x, p.feasible x → o.goal.isBetter (some v) (p.value x) = false) ∧
    (proof = .unsatisfiable → ∀ x, ¬ p.feasible x) := by
  have hbears := h.arises.bears hg _ hwin
  constructor
  · rintro rfl
    exact hbears
  · rintro rfl
    exact hbears

/-! ## The run of two solvers -/

/-- A process that has announced values of solutions, and claims nothing, is truthful. -/
theorem truthful_of_bound {goal : Goal} {said : List StreamEvent}
    (hbound : ∀ v, .bound v ∈ said → p.Attains v)
    (hcompleted : ∀ status, .completed status ∉ said) : Truthful p goal none said where
  bound := fun v hv => ⟨hbound v hv, Goal.isBetter_none _ _⟩
  unsatisfiable := fun h => absurd h (hcompleted _)
  optimal := by
    rintro before later rfl
    exact absurd (List.mem_append_right _ List.mem_cons_self) (hcompleted .optimal)

/-- The problem of the two solvers has two solutions. -/
def duoProblem : Problem Objective where
  feasible := fun x => x = 9 ∨ x = 5
  value := fun x => x

/-- The run of the two solvers is one of truthful processes, and ends with a proof of optimality
by the second, which was told of the value that the first one announced. -/
theorem duo_sound :
    ∃ s, Reachable (Truthful duoProblem .minimize) .duo s ∧
      s.run.incumbent.winner = some ⟨"b", .optimal⟩ ∧
        ∃ v, s.run.incumbent.best = some v ∧ duoProblem.Attains v ∧
          ∀ x, duoProblem.feasible x →
            Goal.minimize.isBetter (some v) (duoProblem.value x) = false := by
  have hnine : duoProblem.Attains 9 := ⟨9, Or.inl rfl, rfl⟩
  have hfive : duoProblem.Attains 5 := ⟨5, Or.inr rfl, rfl⟩
  have hevents : Reachable (Truthful duoProblem .minimize) .duo
      (Opening.duo.situation.takes 0 duoEvents) := by
    refine steps_takes (hearsAll_duo ?_ ?_ ?_)
    · exact truthful_of_bound (by simpa using hnine) (by simp)
    · exact truthful_of_bound (by simpa using hnine) (by simp)
    · exact truthful_of_bound (by simp [hnine, hfive]) (by simp)
  have hproof : Truthful duoProblem .minimize (some 5) [.completed .unsatisfiable] := by
    refine ⟨by simp, fun _ v hv => ?_, fun before later h => ?_⟩
    · obtain ⟨x, hx | hx, rfl⟩ := hv <;> simp [duoProblem, hx, Goal.isBetter]
    · cases before <;> simp at h
  have hreach := hevents.tail ⟨_, step_duo hproof⟩
  exact ⟨_, hreach, rfl, (reachable_sound (o := .duo) rfl hreach rfl).1 rfl⟩

end Situation

end SolverPortfolio
