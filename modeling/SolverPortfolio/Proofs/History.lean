import Mathlib.Data.List.Flatten
import Mathlib.Data.List.Induction
import Mathlib.Data.List.TakeWhile
import Mathlib.Data.Int.Order.Basic
import SolverPortfolio.Proofs.Preference

/-
# Histories of an incumbent

Whoever takes part in a run calls for the incumbent: values are offered, winners are
declared, and the run is cancelled. Whatever the calls and their order, the best value is
the optimum of the values offered before the first declaration, the winner is the first
one declared, and the answers say which calls changed anything. The optimum does not
depend on the order of the offers, so that clients who make all offers before there is a
winner bring about the same best value however their calls are interleaved.

Main definitions: `Call`, `Incumbent.after`, `Incumbent.answers`, `Goal.optimum`,
`Interleaving`, `Incumbent.Lawful`.
Main statements: `Incumbent.Lawful.concat`, `Incumbent.lawful_after`,
`Interleaving.perm`, `Incumbent.history_lawful`.
-/

namespace SolverPortfolio

/-! ## The optimum of a list of values -/

namespace Goal

/-- The least of the values, or the greatest one, as the goal asks for. -/
def optimum : Goal → List Objective → Option Objective
  | satisfy, _ => none
  | minimize, values => values.min?
  | maximize, values => values.max?

/-- Without an objective there is no optimum. -/
theorem optimum_of_not_isOptimization {goal : Goal} (h : ¬ goal.isOptimization)
    (values : List Objective) : goal.optimum values = none := by
  cases goal with
  | satisfy => rfl
  | minimize => exact absurd rfl h
  | maximize => exact absurd rfl h

/-- One more value is the optimum if it improves on the optimum before. -/
theorem optimum_concat {goal : Goal} (h : goal.isOptimization) (values : List Objective)
    (v : Objective) : goal.optimum (values ++ [v]) =
      if goal.isBetter (goal.optimum values) v then some v else goal.optimum values := by
  have hless (u : Objective) : min u v = if v < u then v else u := by
    split
    · next hlt => exact min_eq_right (le_of_lt hlt)
    · next hle => exact min_eq_left (not_lt.mp hle)
  have hmore (u : Objective) : max u v = if u < v then v else u := by
    split
    · next hlt => exact max_eq_right (le_of_lt hlt)
    · next hle => exact max_eq_left (not_lt.mp hle)
  cases goal with
  | satisfy => cases h
  | minimize =>
    cases values with
    | nil => rfl
    | cons u us =>
      simp only [optimum, List.cons_append, List.min?_cons', List.foldl_append, List.foldl_cons,
        List.foldl_nil, isBetter, decide_eq_true_eq, hless, apply_ite some]
  | maximize =>
    cases values with
    | nil => rfl
    | cons u us =>
      simp only [optimum, List.cons_append, List.max?_cons', List.foldl_append, List.foldl_cons,
        List.foldl_nil, isBetter, decide_eq_true_eq, hmore, apply_ite some]

/-- One more value changes the optimum just when there is an objective and the value improves on
the optimum before. -/
theorem optimum_concat_ne_iff (goal : Goal) (values : List Objective) (v : Objective) :
    goal.optimum (values ++ [v]) ≠ goal.optimum values ↔
      goal.isOptimization ∧ goal.isBetter (goal.optimum values) v := by
  by_cases h : goal.isOptimization
  · rw [optimum_concat h]
    split
    · next hbetter =>
      refine iff_of_true (fun heq => ?_) ⟨h, hbetter⟩
      rw [← heq, isBetter_self, h] at hbetter
      cases hbetter
    · next hnot => exact iff_of_false (fun hne => hne rfl) fun hboth => hnot hboth.2
  · rw [optimum_of_not_isOptimization h, optimum_of_not_isOptimization h]
    exact iff_of_false (fun hne => hne rfl) fun hboth => h hboth.1

/-- The optimum depends only on which values there are, not on their order. -/
theorem optimum_eq_of_mem_iff (goal : Goal) {values values' : List Objective}
    (h : ∀ v, v ∈ values ↔ v ∈ values') : goal.optimum values = goal.optimum values' := by
  cases goal with
  | satisfy => rfl
  | minimize =>
    refine Option.ext fun v => ?_
    simp only [optimum, List.min?_eq_some_iff, h]
  | maximize =>
    refine Option.ext fun v => ?_
    simp only [optimum, List.max?_eq_some_iff, h]

end Goal

/-! ## Calls -/

/-- What those who take part in a run call for. -/
inductive Call where
  | offer (value : Objective)
  | declare (winner : Winner)
  | cancel
  deriving Repr, DecidableEq

namespace Call

/-- The value offered by a call. -/
def value? : Call → Option Objective
  | offer v => some v
  | _ => none

/-- The winner declared by a call. -/
def winner? : Call → Option Winner
  | declare w => some w
  | _ => none

/-- The values offered, in their order. -/
def offers (calls : List Call) : List Objective := calls.filterMap value?

/-- The winners declared, in their order. -/
def winners (calls : List Call) : List Winner := calls.filterMap winner?

/-- The calls before the first winner is declared. -/
def beforeWin (calls : List Call) : List Call := calls.takeWhile (·.winner?.isNone)

/-- All offers precede the first declaration of a winner. -/
def OffersFirst (calls : List Call) : Prop :=
  calls.Pairwise fun c later => c.winner?.isSome → later.value? = none

/-- As long as no winner is declared, all calls come before it. -/
theorem beforeWin_append_of_winners {calls : List Call} (h : winners calls = [])
    (more : List Call) : beforeWin (calls ++ more) = calls ++ beforeWin more := by
  refine List.takeWhile_append_of_pos fun c hc => ?_
  rw [List.filterMap_eq_nil_iff.mp h c hc]
  rfl

/-- Where no winner is declared, all calls come before it. -/
theorem beforeWin_of_winners {calls : List Call} (h : winners calls = []) :
    beforeWin calls = calls := by
  have happend := beforeWin_append_of_winners h []
  rwa [List.append_nil, show beforeWin [] = [] from rfl, List.append_nil] at happend

/-- Once a winner is declared, no call comes before the first winner any more. -/
theorem beforeWin_append {calls : List Call} (h : winners calls ≠ []) (more : List Call) :
    beforeWin (calls ++ more) = beforeWin calls := by
  rw [beforeWin, List.takeWhile_append, if_neg]
  · rfl
  · intro hlength
    have hall := (List.takeWhile_prefix _).eq_of_length hlength
    refine h (List.filterMap_eq_nil_iff.mpr fun c hc => ?_)
    exact Option.isNone_iff_eq_none.mp (List.takeWhile_eq_self_iff.mp hall c hc)

/-- If all offers precede the first declaration, all of them count. -/
theorem OffersFirst.offers_beforeWin {calls : List Call} (h : OffersFirst calls) :
    offers (beforeWin calls) = offers calls := by
  induction calls with
  | nil => rfl
  | cons c calls ih =>
    obtain ⟨hfirst, hrest⟩ := List.pairwise_cons.mp h
    cases c with
    | offer v => exact congrArg (v :: ·) (ih hrest)
    | cancel => exact ih hrest
    | declare w =>
      -- Nothing is offered after this declaration, so there is nothing left to count.
      have hnone : offers calls = [] :=
        List.filterMap_eq_nil_iff.mpr fun later hlater => hfirst later hlater rfl
      exact hnone.symm

end Call

/-- The calls of several clients come one after another, those of each client in their order. -/
inductive Interleaving {α : Type} : List (List α) → List α → Prop
  | done {clients : List (List α)} (h : ∀ own ∈ clients, own = []) : Interleaving clients []
  | step {clients : List (List α)} {c : α} {own calls : List α} (i : Nat)
      (h : clients[i]? = some (c :: own)) (hrest : Interleaving (clients.set i own) calls) :
      Interleaving clients (c :: calls)

/-- Interleaved calls are the calls of all clients. -/
theorem Interleaving.perm {α : Type} {clients : List (List α)} {calls : List α}
    (h : Interleaving clients calls) : calls.Perm clients.flatten := by
  induction h with
  | done h => rw [List.flatten_eq_nil_iff.mpr h]
  | @step clients c own calls i hi _ ih =>
    obtain ⟨hlt, hget⟩ := List.getElem?_eq_some_iff.mp hi
    have hsplit : ∃ front back, clients = front ++ clients[i] :: back ∧ front.length = i ∧
        clients.set i own = front ++ own :: back := List.exists_of_set hlt
    obtain ⟨front, back, heq, -, hset⟩ := hsplit
    rw [hget] at heq
    rw [hset, List.flatten_append, List.flatten_cons] at ih
    rw [heq, List.flatten_append, List.flatten_cons, List.cons_append]
    exact (ih.cons c).trans List.perm_middle.symm

/-! ## Histories -/

namespace Incumbent

open Call

/-- What a call does, and what it answers. A cancellation answers nothing. -/
def call (i : Incumbent) : Call → Incumbent × Option Bool
  | .offer v => ((i.offer v).1, some (i.offer v).2)
  | .declare w => ((i.declareWinner w.solver w.proof).1, some (i.declareWinner w.solver w.proof).2)
  | .cancel => (i.cancel, none)

/-- The incumbent after some calls. -/
def after (i : Incumbent) (calls : List Call) : Incumbent := calls.foldl (fun i c => (i.call c).1) i

/-- What the calls answer. -/
def answers (i : Incumbent) : List Call → List (Option Bool)
  | [] => []
  | c :: calls => (i.call c).2 :: (i.call c).1.answers calls

/-- One more call is made of the incumbent after the calls before. -/
theorem after_concat (i : Incumbent) (calls : List Call) (c : Call) :
    i.after (calls ++ [c]) = ((i.after calls).call c).1 := by
  rw [after, List.foldl_append]
  rfl

/-- A call is answered by the incumbent after the calls before. -/
theorem getElem?_answers (i : Incumbent) (before : List Call) (c : Call) (later : List Call) :
    (i.answers (before ++ c :: later))[before.length]? = some ((i.after before).call c).2 := by
  induction before generalizing i with
  | nil => rfl
  | cons b before ih => exact ih (i.call b).1

/-- The law of histories: what an incumbent is after some calls. -/
structure Lawful (goal : Goal) (calls : List Call) (i : Incumbent) : Prop where
  goal_eq : i.goal = goal
  best : i.best = goal.optimum (offers (beforeWin calls))
  winner : i.winner = (winners calls).head?
  cancelled : i.cancelled = true ↔ (∃ w, .declare w ∈ calls) ∨ .cancel ∈ calls

variable {goal : Goal} {calls : List Call} {i : Incumbent}

/-- There is no winner yet just when none was declared. -/
theorem Lawful.winner_isNone (h : Lawful goal calls i) :
    i.winner.isNone = true ↔ winners calls = [] := by
  rw [h.winner, Option.isNone_iff_eq_none, List.head?_eq_none_iff]

/-- A value is accepted just when no winner was declared before and it changes the optimum. -/
theorem Lawful.accepts_iff (h : Lawful goal calls i) (v : Objective) :
    i.accepts v = true ↔ winners calls = [] ∧
      goal.optimum (offers calls ++ [v]) ≠ goal.optimum (offers calls) := by
  rw [Goal.optimum_concat_ne_iff, accepts, h.goal_eq, Bool.and_eq_true, Bool.and_eq_true,
    h.winner_isNone, and_comm (a := goal.isOptimization = true), and_assoc]
  refine and_congr_right fun hnone => ?_
  rw [h.best, beforeWin_of_winners hnone]

/-- An offer keeps the law of the best value. -/
theorem Lawful.best_offer (h : Lawful goal calls i) (v : Objective) :
    (i.offer v).1.best = goal.optimum (offers (beforeWin (calls ++ [.offer v]))) := by
  rw [Incumbent.best_offer]
  by_cases hnone : winners calls = []
  · have hoffers : offers (calls ++ beforeWin [.offer v]) = offers calls ++ [v] :=
      List.filterMap_append
    rw [h.best, beforeWin_of_winners hnone, beforeWin_append_of_winners hnone, hoffers]
    split
    · next hv =>
      obtain ⟨hgoal, hbetter⟩ :=
        (Goal.optimum_concat_ne_iff goal (offers calls) v).mp ((h.accepts_iff v).mp hv).2
      rw [Goal.optimum_concat hgoal, if_pos hbetter]
    · next hv =>
      refine Classical.not_not.mp fun hne => hv ((h.accepts_iff v).mpr ⟨hnone, ?_⟩)
      exact Ne.symm hne
  · have hv : ¬ i.accepts v = true := fun hv => hnone ((h.accepts_iff v).mp hv).1
    rw [if_neg hv, beforeWin_append hnone, h.best]

/-- A call without a value adds none to those that count. -/
theorem offers_beforeWin_concat {c : Call} (hc : c.value? = none) :
    offers (beforeWin (calls ++ [c])) = offers (beforeWin calls) := by
  by_cases hnone : winners calls = []
  · have hsilent : offers (beforeWin [c]) = [] :=
      List.filterMap_eq_nil_iff.mpr fun d hd => by
        rw [List.mem_singleton.mp ((List.takeWhile_sublist _).subset hd), hc]
    rw [beforeWin_append_of_winners hnone, beforeWin_of_winners hnone, offers,
      List.filterMap_append, ← offers, ← offers, hsilent, List.append_nil]
  · rw [beforeWin_append hnone]

/-- One more call stops the run if a call before did, or if it offers no value. -/
theorem stops_concat {c : Call} :
    ((∃ w, .declare w ∈ calls ++ [c]) ∨ .cancel ∈ calls ++ [c]) ↔
      ((∃ w, .declare w ∈ calls) ∨ .cancel ∈ calls) ∨ c.value? = none := by
  cases c <;> simp [value?]

/-- A declaration cancels the run, if no earlier one did. -/
theorem Lawful.cancelled_declareWinner (h : Lawful goal calls i) (w : Winner) :
    (i.declareWinner w.solver w.proof).1.cancelled = true := by
  unfold declareWinner
  split
  · next first hfirst =>
    have hdeclared : first ∈ winners calls := List.mem_of_mem_head? (h.winner.symm.trans hfirst)
    obtain ⟨c, hc, hw⟩ := List.mem_filterMap.mp hdeclared
    refine h.cancelled.mpr (Or.inl ⟨first, ?_⟩)
    cases c with
    | declare w => exact (Option.some.inj hw) ▸ hc
    | offer v => cases hw
    | cancel => cases hw
  · rfl

/-- Every call keeps the law of histories. -/
theorem Lawful.concat (h : Lawful goal calls i) (c : Call) :
    Lawful goal (calls ++ [c]) (i.call c).1 where
  goal_eq := by
    cases c with
    | offer v => exact (i.goal_offer v).trans h.goal_eq
    | declare w => exact (i.goal_declareWinner w.solver w.proof).trans h.goal_eq
    | cancel => exact h.goal_eq
  best := by
    cases c with
    | offer v => exact h.best_offer v
    | declare w =>
      rw [offers_beforeWin_concat rfl, ← h.best]
      exact i.best_declareWinner w.solver w.proof
    | cancel =>
      rw [offers_beforeWin_concat rfl]
      exact h.best
  winner := by
    rw [winners, List.filterMap_append, ← winners, List.head?_append, ← h.winner]
    cases c with
    | offer v => exact (i.winner_offer v).trans (Option.or_none).symm
    | declare w =>
      refine (i.winner_declareWinner w.solver w.proof).trans ?_
      cases i.winner <;> rfl
    | cancel => exact (Option.or_none).symm
  cancelled := by
    rw [stops_concat, ← h.cancelled]
    cases c with
    | offer v =>
      refine (Eq.congr_left (i.cancelled_offer v)).trans (or_iff_left fun hv => ?_).symm
      cases hv
    | declare w => exact iff_of_true (h.cancelled_declareWinner w) (Or.inr rfl)
    | cancel => exact iff_of_true rfl (Or.inr rfl)

/-- The law of histories holds of every history. -/
theorem lawful_after (goal : Goal) (calls : List Call) :
    Lawful goal calls ((start goal).after calls) := by
  induction calls using List.reverseRecOn with
  | nil =>
    refine ⟨rfl, ?_, rfl, ?_⟩
    · cases goal <;> rfl
    · refine iff_of_false Bool.false_ne_true ?_
      rintro (⟨w, hw⟩ | hcancel)
      · exact List.not_mem_nil hw
      · exact List.not_mem_nil hcancel
  | append_singleton calls c ih =>
    rw [after_concat]
    exact ih.concat c

/-- If all offers precede the first winner, the best value is the optimum of them all. -/
theorem best_after_of_offersFirst (h : OffersFirst calls) :
    ((start goal).after calls).best = goal.optimum (offers calls) := by
  rw [(lawful_after goal calls).best, h.offers_beforeWin]

/-- Interleavings of the same calls offer the same values. -/
theorem mem_offers_iff {clients : List (List Call)} {calls calls' : List Call}
    (h : Interleaving clients calls) (h' : Interleaving clients calls') (v : Objective) :
    v ∈ offers calls ↔ v ∈ offers calls' :=
  ((h.perm.trans h'.perm.symm).filterMap value?).mem_iff

/-- After any sequence of calls the best value is the optimum of the values offered before the
first declaration, the winner is the first one declared, and the run is cancelled just when a
declaration or a cancellation was among the calls. An offer is accepted just when there is no
winner yet and it changes the optimum so far; a declaration succeeds just when it is the first.
Clients whose offers all precede the first winner end with the same best value, however their
calls are interleaved. -/
theorem history_lawful (goal : Goal) (calls : List Call) :
    Lawful goal calls ((start goal).after calls) ∧
    (∀ before v later, calls = before ++ .offer v :: later →
      ∃ accepted, ((start goal).answers calls)[before.length]? = some (some accepted) ∧
        (accepted = true ↔ winners before = [] ∧
          goal.optimum (offers before ++ [v]) ≠ goal.optimum (offers before))) ∧
    (∀ before w later, calls = before ++ .declare w :: later →
      ∃ won, ((start goal).answers calls)[before.length]? = some (some won) ∧
        (won = true ↔ winners before = [])) ∧
    ∀ clients calls', Interleaving clients calls → Interleaving clients calls' →
      OffersFirst calls → OffersFirst calls' →
      ((start goal).after calls).best = ((start goal).after calls').best := by
  refine ⟨lawful_after goal calls, ?_, ?_, ?_⟩
  · rintro before v later rfl
    refine ⟨_, getElem?_answers (start goal) before _ later, ?_⟩
    rw [offer_snd]
    exact (lawful_after goal before).accepts_iff v
  · rintro before w later rfl
    refine ⟨_, getElem?_answers (start goal) before _ later, ?_⟩
    rw [declareWinner_snd]
    exact (lawful_after goal before).winner_isNone
  · intro clients calls' h h' hfirst hfirst'
    rw [best_after_of_offersFirst hfirst, best_after_of_offersFirst hfirst']
    exact goal.optimum_eq_of_mem_iff (mem_offers_iff h h')

/-! ## Two clients -/

/-- The first of two solvers offers two values and declares itself the winner; the second one
offers a value, cancels the run and comes too late to win. -/
def duetClients : List (List Call) :=
  [[.offer 9, .offer 5, .declare ⟨"a", .optimal⟩], [.offer 7, .cancel, .declare ⟨"b", .optimal⟩]]

/-- The calls of both, where the first solver is faster. -/
def duetCalls : List Call :=
  [.offer 9, .offer 7, .offer 5, .declare ⟨"a", .optimal⟩, .cancel, .declare ⟨"b", .optimal⟩]

/-- The same calls, where the second solver is faster. -/
def duetCalls' : List Call :=
  [.offer 7, .cancel, .offer 9, .offer 5, .declare ⟨"b", .optimal⟩, .declare ⟨"a", .optimal⟩]

/-- Two solvers end with the same best value, whichever is the faster one: the value 5 improves on
9 and 7, and the value 9 does not improve on 7. -/
theorem duet_history : Interleaving duetClients duetCalls ∧ Interleaving duetClients duetCalls' ∧
    OffersFirst duetCalls ∧ OffersFirst duetCalls' ∧
    Lawful .minimize duetCalls ((start .minimize).after duetCalls) ∧
    (∃ accepted, ((start .minimize).answers duetCalls)[2]? = some (some accepted) ∧
      (accepted = true ↔ winners [.offer 9, .offer 7] = [] ∧
        Goal.minimize.optimum [9, 7, 5] ≠ Goal.minimize.optimum [9, 7])) ∧
    ((start .minimize).after duetCalls).best = ((start .minimize).after duetCalls').best := by
  have hforth : Interleaving duetClients duetCalls :=
    .step 0 rfl (.step 1 rfl (.step 0 rfl (.step 0 rfl (.step 1 rfl (.step 1 rfl (.done
      (by decide)))))))
  have hback : Interleaving duetClients duetCalls' :=
    .step 1 rfl (.step 1 rfl (.step 0 rfl (.step 0 rfl (.step 1 rfl (.step 0 rfl (.done
      (by decide)))))))
  have hfirst : OffersFirst duetCalls := by
    unfold OffersFirst duetCalls
    decide
  have hfirst' : OffersFirst duetCalls' := by
    unfold OffersFirst duetCalls'
    decide
  obtain ⟨hlawful, hoffers, -, hbest⟩ := history_lawful .minimize duetCalls
  exact ⟨hforth, hback, hfirst, hfirst', hlawful, hoffers [.offer 9, .offer 7] 5 _ rfl,
    hbest duetClients duetCalls' hforth hback hfirst hfirst'⟩

end Incumbent

end SolverPortfolio
