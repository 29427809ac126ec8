import SolverPortfolio.Proofs.Lifecycle
import SolverPortfolio.Proofs.Preference

/-
# The bounds in a run

A value that is accepted as the best one is passed on: into the requests for
launches, from there into the models of processes, and with their messages to the
workers. The best value known covers all of these at any time, and as long as there
is no winner also all that live workers have announced.

Main definitions: `Situation.Bounded`, `Situation.Announced`.
Main statements: `Situation.Arises.bounded`, `Situation.Arises.announced`,
`Situation.Changes.covers_best`, `Situation.Changes.covers_injected`.
-/

namespace SolverPortfolio

namespace Worker

variable {goal : Goal} {maxRestarts : Nat} {e : Option RunEvent} {w w' : Worker}

/-- The bound of a worker changes only when a process is launched with one. -/
theorem Turn.injected (h : Turn goal maxRestarts e w w') :
    w'.injected = w.injected ∨ ∃ process injected,
      e = some (.message (.launched w.id w.generation process injected)) ∧
        (w.phase = .converting ∨ w.phase = .restarting) ∧
          w'.injected = (injected <|> w.injected) := by
  cases h with
  | launched now process injected hp => exact Or.inr ⟨process, injected, rfl, hp, rfl⟩
  | recorded x now hl | satisfied x now hl hg =>
    obtain ⟨best, h⟩ := w.exists_recordSolution now goal x.objective
    rw [h]
    exact Or.inl rfl
  | _ => exact Or.inl rfl

/-- A worker that waits for a process takes up its bound, or ends. -/
theorem Turn.injected_of_launched {process : ProcessId} {injected : Option Objective}
    (h : Turn goal maxRestarts e w w')
    (he : e = some (.message (.launched w.id w.generation process injected)))
    (hp : w.phase = .converting ∨ w.phase = .restarting) (hl' : w'.isLive) :
    w'.injected = (injected <|> w.injected) := by
  cases h with
  | still h => exact absurd ⟨rfl, hp⟩ (h _ he rfl)
  | launched now process' injected' _ =>
    simp only [Option.some.injEq, RunEvent.message.injEq, Message.launched.injEq] at he
    rw [he.2.2.2]
    rfl
  | recorded x now hl => simp at he
  | satisfied x now hl hg => cases hl'
  | ended cause hne => cases hl'
  | suspended hs => simp at he
  | resumed hs => cases he
  | restarted switchSearch hs hr => cases he

/-- A worker that waits for a process after a turn waited for it before, or was restarted. -/
theorem Turn.waiting (h : Turn goal maxRestarts e w w')
    (hp : w'.phase = .converting ∨ w'.phase = .restarting) :
    w'.injected = w.injected ∧
      (w'.generation = w.generation ∧ (w.phase = .converting ∨ w.phase = .restarting) ∨
        w'.generation = w.generation + 1) := by
  cases h with
  | still h => exact ⟨rfl, Or.inl ⟨rfl, hp⟩⟩
  | recorded x now hl =>
    obtain ⟨best, h⟩ := w.exists_recordSolution now goal x.objective
    rw [h] at hp ⊢
    exact ⟨rfl, Or.inl ⟨rfl, hp⟩⟩
  | restarted switchSearch hp hr => exact ⟨rfl, Or.inr rfl⟩
  -- All other turns end with a worker that waits for nothing.
  | launched now process injected h | satisfied x now hl hg | ended cause he | suspended h
  | resumed h =>
    rcases hp with hp | hp <;> cases hp

end Worker

namespace Run

variable {α : Type} {r : Run α} {e : Option RunEvent} {i : Incumbent}

/-- The best value changes only when one is offered. -/
theorem Sharing.best_cases (h : r.Sharing e i) :
    i.best = r.incumbent.best ∨ ∃ (w : Worker) (value : Objective),
      e = some (.message (.output w.id w.generation (.bound value))) ∧
        i = (r.incumbent.offer value).1 := by
  cases h with
  | keep h => exact Or.inl rfl
  | offered value hw hl => exact Or.inr ⟨_, value, rfl, rfl⟩
  | proved hw hl hp hn => exact Or.inl (Incumbent.best_declareWinner _ _ _)
  | satisfied x hg => exact Or.inl (Incumbent.best_declareWinner _ _ _)
  | cancelled => exact Or.inl rfl

/-- The best value never gets worse. -/
theorem Sharing.covers_best (h : r.Sharing e i) (hg : r.goal.isOptimization) :
    r.goal.Covers i.best r.incumbent.best := by
  rcases h.best_cases with heq | ⟨w, value, -, rfl⟩
  · rw [heq]
    exact Goal.covers_self hg _
  · exact r.incumbent.covers_best_offer hg value

/-- A winner stays. -/
theorem Sharing.winner_of_none (h : r.Sharing e i) (hi : i.winner = none) :
    r.incumbent.winner = none := by
  cases h with
  | keep h => exact hi
  | offered value hw hl => rwa [Incumbent.winner_offer] at hi
  | proved hw hl hp hn => exact hn
  | satisfied x hg =>
    rw [Incumbent.winner_declareWinner] at hi
    cases hw : r.incumbent.winner with
    | none => rfl
    | some winner => rw [hw] at hi; cases hi
  | cancelled => exact hi

/-- Once there is a winner, neither the winner nor the best value changes. -/
theorem Sharing.of_winner (h : r.Sharing e i) (hn : r.incumbent.winner ≠ none) :
    i.winner = r.incumbent.winner ∧ i.best = r.incumbent.best := by
  cases h with
  | keep h => exact ⟨rfl, rfl⟩
  | offered value hw hl =>
    refine ⟨Incumbent.winner_offer _ _, ?_⟩
    rw [Incumbent.best_offer, if_neg]
    simp [Incumbent.accepts, hn]
  | proved hw hl hp hnone => exact absurd hnone hn
  | satisfied x hg =>
    rw [Incumbent.declareWinner_of_ne_none hn]
    exact ⟨rfl, rfl⟩
  | cancelled => exact ⟨rfl, rfl⟩

/-- Where there is an objective, a winner is declared only by a proof, which leaves the best value
as it is. -/
theorem Sharing.of_declared (h : r.Sharing e i) (hg : r.goal.isOptimization)
    (hn : r.incumbent.winner = none) {winner : Winner} (hi : i.winner = some winner) :
    i.best = r.incumbent.best ∧ ∃ w status proof,
      e = some (.message (.output w.id w.generation (.completed status))) ∧
        r.worker? w.id = some w ∧ w.isLive ∧ r.proofOf w status = some proof ∧
          winner = ⟨w.name, proof⟩ := by
  cases h with
  | keep h => cases hn.symm.trans hi
  | offered value hw hl =>
    rw [Incumbent.winner_offer] at hi
    cases hn.symm.trans hi
  | proved hw hl hp _ =>
    rw [Incumbent.winner_declareWinner, hn] at hi
    exact ⟨Incumbent.best_declareWinner _ _ _, _, _, _, rfl, hw, hl, hp, (Option.some.inj hi).symm⟩
  | satisfied x hsat => exact absurd hsat (Goal.ne_satisfy hg)
  | cancelled => cases hn.symm.trans hi

/-- What a live worker announces is offered. -/
theorem Sharing.eq_offer {w : Worker} {value : Objective}
    (h : r.Sharing (some (.message (.output w.id w.generation (.bound value)))) i)
    (hw : r.worker? w.id = some w) (hl : w.isLive) : i = (r.incumbent.offer value).1 := by
  -- The event is named first, since the cases of `Sharing` are told apart by it.
  generalize he : some (RunEvent.message (.output w.id w.generation (.bound value))) = e at h
  cases h with
  | keep hlate => rw [hlate w value he.symm hw] at hl; cases hl
  | offered value' hw' hl' =>
    simp only [Option.some.injEq, RunEvent.message.injEq, Message.output.injEq,
      StreamEvent.bound.injEq] at he
    rw [he.2.2]
  | proved hw' hl' hp hn => simp at he
  | satisfied x hg => simp at he
  | cancelled => simp at he

end Run

namespace Situation

variable {α : Type} {P : Discipline} {o : Opening α} {s s' : Situation α} {e : Option RunEvent}

/-! ## The bounds of requests, processes and workers -/

/-- The best value never gets worse. -/
theorem Change.covers_best (hc : Change P s e s') (hg : s.run.goal.isOptimization) :
    s.run.goal.Covers s'.run.incumbent.best s.run.incumbent.best :=
  hc.sharing.covers_best hg

/-- The best value known covers every bound that was passed on. -/
structure Bounded (goal : Goal) (s : Situation α) : Prop where
  request : ∀ request, .launch request ∈ s.run.effects →
    goal.Covers s.run.incumbent.best request.bound
  worker : ∀ id w, s.run.worker? id = some w → goal.Covers s.run.incumbent.best w.injected
  /-- The bound that a worker waits for covers the one it has. -/
  waiting : ∀ request w, .launch request ∈ s.run.effects →
    s.run.worker? request.worker = some w → w.generation = request.generation →
      (w.phase = .converting ∨ w.phase = .restarting) → goal.Covers request.bound w.injected
  process : ∀ key injected said, s.progress key = .speaking injected said →
    goal.Covers s.run.incumbent.best injected

variable {goal : Goal}

/-- The bound of a process that is reported is covered. -/
theorem Bounded.of_launched (hs : s.Bounded goal) {id : WorkerId} {generation : Nat}
    {process : ProcessId} {injected : Option Objective}
    (hc : Change P s (some (.message (.launched id generation process injected))) s') :
    goal.Covers s.run.incumbent.best injected := by
  obtain ⟨request, hq, -, -, rfl | rfl⟩ := hc.sends.exists_request
  · exact Goal.covers_none _ _
  · exact hs.request request hq

/-- A worker has no worse bound after a turn. -/
theorem Bounded.covers_injected (hs : s.Bounded goal) (hgoal : goal.isOptimization)
    (hc : Change P s e s') {w w' : Worker} {maxRestarts : Nat} (hw : s.run.worker? w.id = some w)
    (hturn : Worker.Turn s.run.goal maxRestarts e w w') : goal.Covers w'.injected w.injected := by
  rcases hturn.injected with hsame | ⟨process, injected, rfl, hp, heq⟩
  · rw [hsame]
    exact Goal.covers_self hgoal _
  · rw [heq]
    refine Goal.covers_orElse hgoal fun v hv => ?_
    obtain ⟨request, hq, hid, hgen, hnone | hbound⟩ := hc.sends.exists_request
    · cases hnone.symm.trans hv
    · rw [hbound]
      exact hs.waiting request w hq (by rw [hid]; exact hw) hgen.symm hp

/-- The bounds stay covered. -/
theorem Bounded.change (hs : s.Bounded goal) (hf : s.Founded) (hgoal : s.run.goal = goal)
    (hg : goal.isOptimization) (hc : Change P s e s') : s'.Bounded goal := by
  have hbest : goal.Covers s'.run.incumbent.best s.run.incumbent.best := by
    subst hgoal
    exact hc.covers_best hg
  have hworker : ∀ id w', s'.run.worker? id = some w' →
      goal.Covers s'.run.incumbent.best w'.injected := by
    intro id w' hw'
    rcases hc.worker_cases hf.numbered hw' with ⟨w, hw, hturn⟩ | ⟨-, -, _, _, _, hn, -⟩
    · refine hbest.trans ?_
      rcases hturn.injected with hsame | ⟨process, injected, rfl, -, heq⟩
      · rw [hsame]
        exact hs.worker id w hw
      · rw [heq]
        exact (hs.of_launched hc).orElse (hs.worker id w hw)
    · rw [hn.eq_none.2.1]
      exact Goal.covers_none _ _
  constructor
  case request =>
    intro request hq
    rcases hc.launch_mem hq with hq | ⟨-, hbound, -⟩
    · exact hbest.trans (hs.request request hq)
    · rw [hbound]
      exact Goal.covers_self hg _
  case worker => exact hworker
  case waiting =>
    intro request w' hq hw' hgen hp
    rcases hc.launch_mem hq with hq | ⟨-, hbound, -⟩
    · rcases hc.worker_cases hf.numbered hw' with ⟨w, hw, hturn⟩ | ⟨-, -, _, _, _, hn, -⟩
      · obtain ⟨hinjected, ⟨hsame, hp⟩ | hnext⟩ := hturn.waiting hp
        · rw [hinjected]
          exact hs.waiting request w hq hw (hsame.symm.trans hgen) hp
        -- A request for the next generation would have come too early.
        · obtain ⟨v, hv, hle⟩ := hf.requested request hq
          cases Option.some.inj (hv.symm.trans hw)
          omega
      · rw [hn.eq_none.2.1]
        exact Goal.covers_none _ _
    · rw [hbound]
      exact hworker _ w' hw'
  case process =>
    intro key injected said hspeaking
    apply hbest.trans
    rcases hc.speaking_cases hspeaking with hold | ⟨_, process, rfl⟩ | ⟨said', _, rfl, _, hold, _⟩
    · exact hs.process key injected said hold
    · exact hs.of_launched hc
    · exact hs.process key injected said' hold

/-- The bounds of all that arises are covered. -/
theorem Arises.bounded (h : Arises P o s) (hg : o.goal.isOptimization) : s.Bounded o.goal := by
  apply h.invariant (I := Bounded o.goal)
  · intro r hr
    constructor
    case request =>
      intro request hq
      rw [(hr.request request hq).2.1]
      exact Goal.covers_self hg _
    case worker =>
      intro id w hw
      rw [(hr.eq_none hw).2.1]
      exact Goal.covers_none _ _
    case waiting =>
      intro request w hq hw hgen hp
      rw [(hr.eq_none hw).2.1]
      exact Goal.covers_none _ _
    case process =>
      intro key injected said hspeaking
      cases hspeaking
  · intro s e s' ha hs hc
    exact hs.change ha.founded ha.settings.2 hg hc

/-- The best value never gets worse, whatever changes. -/
theorem Changes.covers_best (h : Arises P o s) (hg : o.goal.isOptimization)
    (hcs : Changes P s s') : o.goal.Covers s'.run.incumbent.best s.run.incumbent.best := by
  induction hcs with
  | refl => exact Goal.covers_self hg _
  | tail hcs hc ih =>
    obtain ⟨e, hc⟩ := hc
    have hgoal := (h.changes hcs).settings.2
    have hlast := hc.covers_best (hgoal ▸ hg)
    rw [hgoal] at hlast
    exact hlast.trans ih

/-- The bound of a worker never gets worse, whatever changes. -/
theorem Changes.covers_injected (h : Arises P o s) (hg : o.goal.isOptimization)
    (hcs : Changes P s s') {id : WorkerId} {w : Worker} (hw : s.run.worker? id = some w) :
    ∃ w', s'.run.worker? id = some w' ∧ o.goal.Covers w'.injected w.injected := by
  induction hcs with
  | refl => exact ⟨w, hw, Goal.covers_self hg _⟩
  | tail hcs hc ih =>
    obtain ⟨e, hc⟩ := hc
    obtain ⟨v, hv, hcovers⟩ := ih
    have ha := h.changes hcs
    obtain ⟨w', hw', hturn⟩ := hc.turn ha.founded.numbered hv
    have hself := ha.founded.numbered.worker?_id hv
    exact ⟨w', hw', ((ha.bounded hg).covers_injected hg hc hself hturn).trans hcovers⟩

/-! ## What workers announce -/

/-- As long as there is no winner, the best value known covers all that live workers have
announced. -/
def Announced (goal : Goal) (s : Situation α) : Prop :=
  s.run.incumbent.winner = none → ∀ id w injected said v, s.run.worker? id = some w → w.isLive →
    s.progress (w.id, w.generation) = .speaking injected said → .bound v ∈ said →
      goal.Covers s.run.incumbent.best (some v)

/-- The launch task of a generation still to come has sent nothing. -/
theorem Founded.pending (hf : s.Founded) {id : WorkerId} {w : Worker}
    (hw : s.run.worker? id = some w) {generation : Nat} (hlt : w.generation < generation) :
    s.progress (id, generation) = .pending := by
  by_cases hp : s.progress (id, generation) = .pending
  · exact hp
  · obtain ⟨v, hv, hle⟩ := hf.heard _ hp
    cases Option.some.inj (hv.symm.trans hw)
    exact absurd hlt (Nat.not_lt.mpr hle)

/-- What a live worker has said in its generation it said before, or the change is that its
process is reported, or that its process prints something. -/
theorem Change.exists_speaker (hc : Change P s e s') (hf : s.Founded) {id : WorkerId}
    {w' : Worker} {injected : Option Objective} {said : List StreamEvent}
    (hw' : s'.run.worker? id = some w') (hl' : w'.isLive)
    (hspeaking : s'.progress (w'.id, w'.generation) = .speaking injected said) :
    ∃ w, s.run.worker? id = some w ∧ w.isLive ∧
      Worker.Turn s.run.goal s.run.settings.maxRestarts e w w' ∧
      (s.progress (w.id, w.generation) = .speaking injected said ∨
      (said = [] ∧ ∃ process,
        e = some (.message (.launched w.id w.generation process injected))) ∨
      ∃ said' event, e = some (.message (.output w.id w.generation event)) ∧
        said = said' ++ [event] ∧ s.progress (w.id, w.generation) = .speaking injected said' ∧
          P injected said) := by
  have hcases := hc.speaking_cases hspeaking
  rcases hc.worker_cases hf.numbered hw' with ⟨w, hw, hturn⟩ | ⟨rfl, hnone, _, _, _, hn, -⟩
  · have hl : w.isLive := by
      cases hl : w.isLive with
      | true => rfl
      | false => rw [hturn.dead hl] at hl'; cases hl'
    refine ⟨w, hw, hl, hturn, ?_⟩
    rw [hturn.keeps.1] at hcases
    rcases hturn.generation with hgen | ⟨rfl, hgen⟩
    · rw [hgen] at hcases
      exact hcases
    -- A worker that begins a generation has said nothing in it.
    · rcases hcases with hold | ⟨_, _, he⟩ | ⟨_, _, he, _⟩
      · have hpending := hf.pending hw (show w.generation < w'.generation by omega)
        rw [hf.numbered id w hw] at hold
        cases hpending.symm.trans hold
      · cases he
      · cases he
  · rcases hcases with hold | ⟨_, _, he⟩ | ⟨_, _, he, _⟩
    · obtain ⟨v, hv, -⟩ := hf.heard _ (by rw [hold]; simp)
      have hid : w'.id = id := hc.numbered hf.numbered id w' hw'
      rw [hid] at hv
      cases hnone.symm.trans hv
    · cases he
    · cases he

/-- What is announced goes on being covered. -/
theorem Announced.change (hs : s.Announced goal) (hf : s.Founded) (hgoal : s.run.goal = goal)
    (hg : goal.isOptimization) (hc : Change P s e s') : s'.Announced goal := by
  intro hwin id w' injected said v hw' hl' hspeaking hv
  subst hgoal
  have hbest := hc.covers_best hg
  have hwin₀ := hc.sharing.winner_of_none hwin
  obtain ⟨w, hw, hl, -, hcases⟩ := hc.exists_speaker hf hw' hl' hspeaking
  rcases hcases with hold | ⟨rfl, _⟩ | ⟨said', event, rfl, rfl, hold, -⟩
  · exact hbest.trans (hs hwin₀ id w injected said v hw hl hold hv)
  · cases hv
  · rcases List.mem_append.mp hv with hv | hv
    · exact hbest.trans (hs hwin₀ id w injected said' v hw hl hold hv)
    · cases List.mem_singleton.mp hv
      rw [hc.sharing.eq_offer (hf.numbered.worker?_id hw) hl]
      exact s.run.incumbent.covers_offered hg hwin₀ v

/-- In all that arises, what is announced is covered. -/
theorem Arises.announced (h : Arises P o s) (hg : o.goal.isOptimization) :
    s.Announced o.goal := by
  apply h.invariant (I := Announced o.goal)
  · intro r hr _ id w injected said v _ _ hspeaking
    cases hspeaking
  · intro s e s' ha hs hc
    exact hs.change ha.founded ha.settings.2 hg hc

end Situation

end SolverPortfolio
