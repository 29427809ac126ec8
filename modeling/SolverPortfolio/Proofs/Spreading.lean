import SolverPortfolio.Proofs.Allocation
import SolverPortfolio.Schedule.Parallel

/-
# Spreading a plan over cores

With exact times a plan of distinct predicted solvers is spread as follows. The solvers predicted
to run longest own a core each, one fewer than there are cores, and run no second on the shared
core. All other solvers keep their fixed time, and the predicted ones among them share what is
left of the timeout in proportion to their predicted times; so no second of it is lost and none is
handed out twice.

Main definitions: `Schedule.secondsOf`, `Plan.Outranks`, `Plan.residual`, `Plan.Spreads`.
Main statements: `Schedule.secondsOf_merge`, `Plan.secondsOf_rescale`,
`Plan.pairwise_longestFirst`, `Plan.spreads_parallelize`.
-/

namespace SolverPortfolio

/-- A stable order keeps elements that do not differ in the order they had. -/
theorem filter_mergeSort {α : Type} {le : α → α → Bool}
    (htrans : ∀ a b c, le a b = true → le b c = true → le a c = true)
    (htotal : ∀ a b, (le a b || le b a) = true) {p : α → Bool}
    (hties : ∀ a b, p a = true → p b = true → le a b = true) (l : List α) :
    (l.mergeSort le).filter p = l.filter p := by
  have hpairwise : (l.filter p).Pairwise fun a b => le a b = true :=
    List.pairwise_of_forall_mem_list fun a ha b hb =>
      hties a b (List.mem_filter.mp ha).2 (List.mem_filter.mp hb).2
  have hsublist := (List.sublist_mergeSort htrans htotal hpairwise List.filter_sublist).filter p
  rw [List.filter_filter, funext fun a => Bool.and_self (p a)] at hsublist
  exact (hsublist.eq_of_length ((List.mergeSort_perm l le).filter p).length_eq.symm).symm

namespace Schedule

/-! ## The time of a group of solvers -/

section

variable {p : String → Prop} [DecidablePred p] {slot : Slot Rat} {s t : Schedule Rat}

/-- Seconds given to the solvers of a group. -/
def secondsOf (p : String → Prop) [DecidablePred p] (s : Schedule Rat) : Rat :=
  totalSeconds (s.filter fun slot => p slot.solver)

@[simp] theorem secondsOf_nil : secondsOf p [] = 0 := rfl

/-- A slot counts if its solver belongs to the group. -/
theorem secondsOf_cons :
    secondsOf p (slot :: s) = (if p slot.solver then slot.seconds else 0) + secondsOf p s := by
  simp only [secondsOf, totalSeconds_rat, List.filter_cons, decide_eq_true_eq]
  split
  · rw [List.map_cons, List.sum_cons]
  · rw [zero_add]

@[simp] theorem secondsOf_append : secondsOf p (s ++ t) = secondsOf p s + secondsOf p t := by
  simp only [secondsOf, totalSeconds_rat, List.filter_append, List.map_append, List.sum_append]

/-- If all others have no time, then a group has all of it. -/
theorem secondsOf_eq_totalSeconds (h : ∀ slot ∈ s, ¬ p slot.solver → slot.seconds = 0) :
    secondsOf p s = totalSeconds s := by
  induction s with
  | nil => rfl
  | cons slot rest ih =>
    rw [List.forall_mem_cons] at h
    rw [secondsOf_cons, ih h.2, totalSeconds_rat, totalSeconds_rat, List.map_cons, List.sum_cons]
    split
    · rfl
    · next hslot => rw [h.1 hslot]

/-- A group without slots has no time. -/
theorem secondsOf_eq_zero (h : ∀ slot ∈ s, ¬ p slot.solver) : secondsOf p s = 0 := by
  rw [secondsOf, List.filter_eq_nil_iff.mpr fun slot hslot => by simpa using h slot hslot]
  rfl

/-- Times that are not negative add up to no less than zero. -/
theorem secondsOf_nonneg (h : ∀ slot ∈ s, 0 ≤ slot.seconds) : 0 ≤ secondsOf p s := by
  rw [secondsOf, totalSeconds_rat]
  refine List.sum_nonneg fun x hx => ?_
  obtain ⟨slot, hslot, rfl⟩ := List.mem_map.mp hx
  exact h slot (List.mem_of_mem_filter hslot)

/-- A solver with one slot has the time of that slot. -/
theorem secondsOf_eq_seconds (hdistinct : (s.map (·.solver)).Nodup) (h : slot ∈ s) :
    secondsOf (· = slot.solver) s = slot.seconds := by
  induction s with
  | nil => simp at h
  | cons first rest ih =>
    rw [List.map_cons, List.nodup_cons] at hdistinct
    rw [secondsOf_cons]
    rcases List.mem_cons.mp h with rfl | h
    · rw [if_pos rfl, secondsOf_eq_zero fun other hother heq =>
        hdistinct.1 (List.mem_map.mpr ⟨other, hother, heq⟩), add_zero]
    · rw [if_neg fun heq => hdistinct.1 (List.mem_map.mpr ⟨slot, h, heq.symm⟩), zero_add,
        ih hdistinct.2 h]

/-- A factor on all times is a factor on the time of a group. -/
theorem secondsOf_map_mul (factor : Rat) :
    secondsOf p (s.map fun slot => ⟨slot.solver, slot.seconds * factor⟩) =
      secondsOf p s * factor := by
  induction s with
  | nil => exact (zero_mul factor).symm
  | cons slot rest ih =>
    rw [List.map_cons, secondsOf_cons, secondsOf_cons, ih, add_mul, ite_zero_mul]

/-- Joining slots moves no time from one solver to another. -/
theorem secondsOf_coalesceFrom (pending : Slot Rat) (s : Schedule Rat) :
    secondsOf p (coalesceFrom pending s) = secondsOf p (pending :: s) := by
  induction s generalizing pending with
  | nil => rfl
  | cons slot rest ih =>
    unfold coalesceFrom
    split
    · next h =>
      rw [ih, secondsOf_cons, secondsOf_cons, secondsOf_cons, ← h, ← add_assoc]
      split
      · rfl
      · rw [add_zero]
    · rw [secondsOf_cons, ih, ← secondsOf_cons]

/-- Every solver keeps the time it has in both schedules. -/
@[simp] theorem secondsOf_merge : secondsOf p (merge s t) = secondsOf p s + secondsOf p t := by
  rw [← secondsOf_append, merge]
  cases s ++ t with
  | nil => rfl
  | cons slot rest => exact secondsOf_coalesceFrom slot rest

omit [DecidablePred p] in
/-- Slots without time are joined to slots without time. -/
theorem forall_mem_coalesceFrom_eq_zero {pending : Slot Rat}
    (h : ∀ slot ∈ pending :: s, p slot.solver → slot.seconds = 0) :
    ∀ slot ∈ coalesceFrom pending s, p slot.solver → slot.seconds = 0 := by
  induction s generalizing pending with
  | nil => exact h
  | cons slot rest ih =>
    rw [List.forall_mem_cons, List.forall_mem_cons] at h
    obtain ⟨hpending, hslot, hrest⟩ := h
    unfold coalesceFrom
    split
    · next heq =>
      refine ih (List.forall_mem_cons.mpr ⟨fun hp => ?_, hrest⟩)
      simp only [hpending hp, hslot (heq ▸ hp), add_zero]
    · exact List.forall_mem_cons.mpr ⟨hpending, ih (List.forall_mem_cons.mpr ⟨hslot, hrest⟩)⟩

omit [DecidablePred p] in
/-- A solver without time in either schedule gets none. -/
theorem forall_mem_merge_eq_zero (hs : ∀ slot ∈ s, p slot.solver → slot.seconds = 0)
    (ht : ∀ slot ∈ t, p slot.solver → slot.seconds = 0) :
    ∀ slot ∈ merge s t, p slot.solver → slot.seconds = 0 := by
  have happend := List.forall_mem_append.mpr ⟨hs, ht⟩
  rw [merge]
  cases hst : s ++ t with
  | nil => simp
  | cons slot rest => exact forall_mem_coalesceFrom_eq_zero (hst ▸ happend)

end

end Schedule

namespace Plan

variable {plan : Plan Rat} {cores : Nat} {timeout : Rat}

/-! ## The solvers with a core of their own -/

/-- Is the first slot at least as long as the second? -/
def noShorter (a b : Slot Rat) : Bool := Quantity.sortsBefore b.seconds a.seconds

theorem noShorter_iff {a b : Slot Rat} : noShorter a b = true ↔ b.seconds ≤ a.seconds :=
  decide_eq_true_iff

theorem noShorter_trans (a b c : Slot Rat) (hab : noShorter a b = true)
    (hbc : noShorter b c = true) : noShorter a c = true :=
  noShorter_iff.mpr ((noShorter_iff.mp hbc).trans (noShorter_iff.mp hab))

theorem noShorter_total (a b : Slot Rat) : (noShorter a b || noShorter b a) = true :=
  Bool.or_eq_true_iff.mpr ((le_total b.seconds a.seconds).imp noShorter_iff.mpr noShorter_iff.mpr)

/-- The predicted slots, longest first. -/
def longestFirst (plan : Plan Rat) : Schedule Rat := plan.predicted.mergeSort noShorter

/-- Nothing is lost by ordering. -/
theorem perm_longestFirst : plan.longestFirst.Perm plan.predicted := List.mergeSort_perm _ _

/-- Cores are given away from the front. -/
theorem dedicatedSolvers_eq : plan.dedicatedSolvers cores =
    (plan.longestFirst.map (·.solver)).take (cores - 1) := List.map_take

/-- The first solver is predicted to run longer than the second, or as long and comes first. -/
def Outranks (plan : Plan Rat) (x y : String) : Prop :=
  plan.predicted.secondsOf (· = y) < plan.predicted.secondsOf (· = x) ∨
    plan.predicted.secondsOf (· = y) = plan.predicted.secondsOf (· = x) ∧
      [x, y].Sublist (plan.predicted.map (·.solver))

/-- Ordering by time keeps slots of one length in the order they had. -/
theorem filter_longestFirst (seconds : Rat) :
    plan.longestFirst.filter (fun slot => slot.seconds = seconds) =
      plan.predicted.filter fun slot => slot.seconds = seconds :=
  filter_mergeSort noShorter_trans noShorter_total (fun _ _ ha hb =>
    noShorter_iff.mpr ((of_decide_eq_true hb).trans (of_decide_eq_true ha).symm).le) _

/-- Every solver outranks the ones behind it in the order of cores. -/
theorem pairwise_longestFirst (hdistinct : (plan.predicted.map (·.solver)).Nodup) :
    (plan.longestFirst.map (·.solver)).Pairwise plan.Outranks := by
  rw [List.pairwise_map, List.pairwise_iff_forall_sublist]
  intro a b hab
  have hle : b.seconds ≤ a.seconds := noShorter_iff.mp <| List.pairwise_iff_forall_sublist.mp
    (List.pairwise_mergeSort noShorter_trans noShorter_total plan.predicted) hab
  have hseconds (slot : Slot Rat) (hslot : slot ∈ [a, b]) :
      plan.predicted.secondsOf (· = slot.solver) = slot.seconds :=
    Schedule.secondsOf_eq_seconds hdistinct (perm_longestFirst.subset (hab.subset hslot))
  rw [Outranks, hseconds a (by simp), hseconds b (by simp)]
  refine hle.lt_or_eq.imp_right fun heq => ⟨heq, ?_⟩
  -- Two slots of one length are neighbours among the slots of that length, which keep their order.
  have hfiltered := hab.filter fun slot => slot.seconds = a.seconds
  rw [filter_longestFirst] at hfiltered
  have hpair : [a, b].filter (fun slot => slot.seconds = a.seconds) = [a, b] := by simp [heq]
  rw [hpair] at hfiltered
  exact (hfiltered.trans List.filter_sublist).map (·.solver)

/-! ## The shared core -/

/-- Fixed time of solvers without a core of their own. -/
def placedSeconds (plan : Plan Rat) (dedicated : List String) : Rat :=
  plan.fixed.secondsOf (· ∉ dedicated)

/-- Predicted time of solvers without a core of their own. -/
def leftOverSeconds (plan : Plan Rat) (dedicated : List String) : Rat :=
  plan.predicted.secondsOf (· ∉ dedicated)

/-- What the fixed slots of the shared core leave of the timeout. -/
def residual (plan : Plan Rat) (dedicated : List String) (timeout : Rat) : Rat :=
  max 0 (timeout - plan.placedSeconds dedicated)

section

variable {dedicated : List String} {p : String → Prop} [DecidablePred p]

/-- Solvers without a core of their own keep their fixed time. -/
theorem secondsOf_sharedFixed (hp : ∀ x, p x → x ∉ dedicated) :
    (plan.sharedFixed dedicated).secondsOf p = plan.fixed.secondsOf p := by
  rw [sharedFixed]
  induction plan.fixed with
  | nil => rfl
  | cons slot rest ih =>
    rw [List.map_cons, Schedule.secondsOf_cons, Schedule.secondsOf_cons, ih]
    by_cases hslot : slot.solver ∈ dedicated
    · have hout : ¬ p slot.solver := fun h => hp _ h hslot
      simp [hslot, hout]
    · simp [hslot]

/-- Solvers with a core of their own have no time in the fixed slots. -/
theorem seconds_of_mem_sharedFixed {slot : Slot Rat} (h : slot ∈ plan.sharedFixed dedicated)
    (hdedicated : slot.solver ∈ dedicated) : slot.seconds = 0 := by
  obtain ⟨fixed, -, rfl⟩ := List.mem_map.mp h
  by_cases hfixed : fixed.solver ∈ dedicated <;> simp_all

/-- All time in the fixed slots belongs to solvers without a core of their own. -/
theorem totalSeconds_sharedFixed :
    Schedule.totalSeconds (plan.sharedFixed dedicated) = plan.placedSeconds dedicated := by
  rw [placedSeconds, ← secondsOf_sharedFixed fun _ h => h,
    Schedule.secondsOf_eq_totalSeconds fun slot hslot hmem =>
      seconds_of_mem_sharedFixed hslot (not_not.mp hmem)]

/-- Solvers without a core of their own keep their predicted slots. -/
theorem secondsOf_leftOver (hp : ∀ x, p x → x ∉ dedicated) :
    (plan.leftOver dedicated).secondsOf p = plan.predicted.secondsOf p := by
  rw [leftOver, Schedule.secondsOf, List.filter_filter, Schedule.secondsOf]
  congr 1
  refine List.filter_congr fun slot _ => ?_
  by_cases hslot : p slot.solver
  · simp [hslot, hp _ hslot]
  · simp [hslot]

/-- Only solvers without a core of their own are left over. -/
theorem mem_leftOver {slot : Slot Rat} : slot ∈ plan.leftOver dedicated ↔
    slot ∈ plan.predicted ∧ slot.solver ∉ dedicated := by simp [leftOver]

/-- The time of the predicted slots left over. -/
theorem totalSeconds_leftOver :
    Schedule.totalSeconds (plan.leftOver dedicated) = plan.leftOverSeconds dedicated := by
  rw [leftOverSeconds, ← secondsOf_leftOver fun _ h => h,
    Schedule.secondsOf_eq_totalSeconds fun slot hslot hmem => absurd (mem_leftOver.mp hslot).2 hmem]

/-- Stretching changes all times by one factor. -/
theorem secondsOf_rescale {s : Schedule Rat} (h : 0 ≤ Schedule.totalSeconds s) (seconds : Rat) :
    (rescale s seconds).secondsOf p = s.secondsOf p * seconds / Schedule.totalSeconds s := by
  have hrescale : rescale s seconds = s.map fun slot =>
      ⟨slot.solver, slot.seconds * (seconds / Schedule.totalSeconds s)⟩ := by
    refine List.map_congr_left fun slot _ => congrArg _ ?_
    rw [← mul_div_assoc]
    split
    · rfl
    · next hzero => rw [le_antisymm (not_lt.mp (mt Quantity.lt_rat.mpr hzero)) h, div_zero]
  rw [hrescale, Schedule.secondsOf_map_mul, mul_div_assoc]

end

/-! ## The whole plan -/

/-- A number that is not negative cancels, unless it is zero. -/
theorem mul_div_eq_ite {x : Rat} (h : 0 ≤ x) (y : Rat) : x * y / x = if 0 < x then y else 0 := by
  split
  · next hpos => rw [mul_div_cancel_left₀ y hpos.ne']
  · next hzero => rw [le_antisymm (not_lt.mp hzero) h, div_zero]

/-- How a plan is spread over cores: which solvers own one, and how much time of the shared core
all others get. -/
structure Spreads (plan : Plan Rat) (cores : Nat) (timeout : Rat) (s : ParallelSchedule Rat) :
    Prop where
  /-- One core fewer than there are is given away, as long as there are solvers. -/
  count : s.dedicated.length = min (cores - 1) plan.predicted.length
  distinct : s.dedicated.Nodup
  predicted : ∀ x ∈ s.dedicated, x ∈ plan.predicted.map (·.solver)
  /-- Longer ones come first, and equal ones stay in the order of the plan. -/
  ranked : s.dedicated.Pairwise plan.Outranks
  /-- No solver left over is predicted to run longer. -/
  longest : ∀ x ∈ s.dedicated, ∀ y ∈ plan.predicted.map (·.solver), y ∉ s.dedicated →
    plan.Outranks x y
  /-- On the shared core there is no time for a solver with a core of its own. -/
  idle : ∀ slot ∈ s.shared, slot.solver ∈ s.dedicated → slot.seconds = 0
  /-- No predicted solver is forgotten. -/
  served : ∀ x ∈ plan.predicted.map (·.solver), x ∉ s.dedicated → x ∈ s.shared.map (·.solver)
  /-- Every other solver keeps its fixed time and has its share of the rest. -/
  share : ∀ x ∉ s.dedicated, s.shared.secondsOf (· = x) = plan.fixed.secondsOf (· = x) +
    plan.predicted.secondsOf (· = x) * plan.residual s.dedicated timeout /
      plan.leftOverSeconds s.dedicated
  /-- The shared core is filled, unless nothing is left that could fill it. -/
  conserved : Schedule.totalSeconds s.shared = plan.placedSeconds s.dedicated +
    if 0 < plan.leftOverSeconds s.dedicated then plan.residual s.dedicated timeout else 0

/-- The shared core after spreading. -/
theorem shared_parallelize : (plan.parallelize cores timeout).shared =
    Schedule.merge (plan.sharedFixed (plan.dedicatedSolvers cores))
      (rescale (plan.leftOver (plan.dedicatedSolvers cores))
        (plan.residual (plan.dedicatedSolvers cores) timeout)) := by
  rw [parallelize, residual, Quantity.larger_rat, totalSeconds_sharedFixed, max_comm]

/-- The shared core has time only for solvers without a core of their own. -/
theorem secondsOf_shared_parallelize (hseconds : ∀ slot ∈ plan.predicted, 0 ≤ slot.seconds)
    {p : String → Prop} [DecidablePred p] (hp : ∀ x, p x → x ∉ plan.dedicatedSolvers cores) :
    (plan.parallelize cores timeout).shared.secondsOf p = plan.fixed.secondsOf p +
      plan.predicted.secondsOf p * plan.residual (plan.dedicatedSolvers cores) timeout /
        plan.leftOverSeconds (plan.dedicatedSolvers cores) := by
  have hnonneg : 0 ≤ Schedule.totalSeconds (plan.leftOver (plan.dedicatedSolvers cores)) :=
    totalSeconds_leftOver.symm ▸ Schedule.secondsOf_nonneg hseconds
  rw [shared_parallelize, Schedule.secondsOf_merge, secondsOf_sharedFixed hp,
    secondsOf_rescale hnonneg, secondsOf_leftOver hp, totalSeconds_leftOver]

/-- Solvers with a core of their own are idle on the shared one. -/
theorem seconds_of_mem_shared {slot : Slot Rat}
    (h : slot ∈ (plan.parallelize cores timeout).shared)
    (hdedicated : slot.solver ∈ plan.dedicatedSolvers cores) : slot.seconds = 0 := by
  rw [shared_parallelize] at h
  refine Schedule.forall_mem_merge_eq_zero (p := (· ∈ plan.dedicatedSolvers cores))
    (fun fixed hfixed => seconds_of_mem_sharedFixed hfixed) (fun scaled hscaled hmem => ?_)
    slot h hdedicated
  obtain ⟨predicted, hpredicted, rfl⟩ := List.mem_map.mp hscaled
  exact absurd hmem (mem_leftOver.mp hpredicted).2

/-- A plan of distinct predicted solvers whose times are not negative is spread over any number of
cores so that no time is lost. -/
theorem spreads_parallelize (hdistinct : (plan.predicted.map (·.solver)).Nodup)
    (hseconds : ∀ slot ∈ plan.predicted, 0 ≤ slot.seconds) :
    plan.Spreads cores timeout (plan.parallelize cores timeout) := by
  have hperm : (plan.longestFirst.map (·.solver)).Perm (plan.predicted.map (·.solver)) :=
    perm_longestFirst.map _
  have hpairwise := pairwise_longestFirst hdistinct
  have hdedicated : (plan.parallelize cores timeout).dedicated =
      (plan.longestFirst.map (·.solver)).take (cores - 1) := dedicatedSolvers_eq
  refine ⟨?count, ?distinct, ?predicted, ?ranked, ?longest, ?idle, ?served, ?share, ?conserved⟩
  case count => rw [hdedicated, List.length_take, hperm.length_eq, List.length_map]
  case distinct =>
    exact hdedicated ▸ (hperm.nodup_iff.mpr hdistinct).sublist (List.take_sublist _ _)
  case predicted =>
    intro x hx
    rw [hdedicated] at hx
    exact hperm.subset (List.mem_of_mem_take hx)
  case ranked => exact hdedicated ▸ hpairwise.sublist (List.take_sublist _ _)
  case longest =>
    intro x hx y hy hleft
    rw [hdedicated] at hx hleft
    have hy' := hperm.symm.subset hy
    rw [← List.take_append_drop (cores - 1) (plan.longestFirst.map _), List.mem_append] at hy'
    exact hpairwise.rel_of_mem_take_of_mem_drop hx (hy'.resolve_left hleft)
  case idle => exact fun slot => seconds_of_mem_shared
  case served =>
    intro x hx hleft
    obtain ⟨slot, hslot, rfl⟩ := List.mem_map.mp hx
    rw [shared_parallelize, Schedule.mem_solvers_merge, solvers_rescale]
    exact .inr (List.mem_map_of_mem (mem_leftOver.mpr ⟨hslot, hleft⟩))
  case share =>
    rintro x hx
    exact secondsOf_shared_parallelize hseconds fun _ heq => heq ▸ hx
  case conserved =>
    rw [← Schedule.secondsOf_eq_totalSeconds (p := (· ∉ plan.dedicatedSolvers cores))
        fun slot hslot hmem => seconds_of_mem_shared hslot (not_not.mp hmem),
      secondsOf_shared_parallelize hseconds fun _ h => h]
    congr 1
    exact mul_div_eq_ite (Schedule.secondsOf_nonneg hseconds) _

/-- Four predicted solvers, two of which are equally long, and fixed slots for two of them and for a
solver that is not predicted. -/
def overlappingPlan : Plan Rat where
  fixed := [⟨"b", 5⟩, ⟨"s", 5⟩, ⟨"a", 1⟩]
  predicted := [⟨"a", 5⟩, ⟨"b", 15⟩, ⟨"c", 15⟩, ⟨"d", 10⟩]

/-- On three cores the equally long ones own one each. -/
theorem overlapping_spreads : (overlappingPlan.predicted.map (·.solver)).Nodup ∧
    (∀ slot ∈ overlappingPlan.predicted, 0 ≤ slot.seconds) ∧
    overlappingPlan.Spreads 3 30 (overlappingPlan.parallelize 3 30) := by
  have hdistinct : (overlappingPlan.predicted.map (·.solver)).Nodup := by decide
  have hseconds : ∀ slot ∈ overlappingPlan.predicted, 0 ≤ slot.seconds := by
    simp [overlappingPlan]
  exact ⟨hdistinct, hseconds, spreads_parallelize hdistinct hseconds⟩

end Plan

end SolverPortfolio
