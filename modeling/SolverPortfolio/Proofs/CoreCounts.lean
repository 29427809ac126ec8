import SolverPortfolio.Proofs.Spreading

/-
# Numbers of cores

On one core a plan that fills its timeout is run as it is: nobody owns a core, and stretching the
predicted slots to the time that they have anyway changes nothing. With every further core a
solver gets a core of its own or has no less time on the shared one than before: the solvers that
leave the shared core take no time with them that the others could not use, and their own share of
the rest falls to the others.

Main statements: `Plan.rescale_totalSeconds`, `Plan.parallelize_sequential`,
`Plan.share_le_share`, `Plan.parallelize_mono`.
-/

namespace SolverPortfolio

namespace Schedule

variable {p q : String → Prop} [DecidablePred p] [DecidablePred q] {s : Schedule Rat}

/-- A larger group has no less time. -/
theorem secondsOf_mono (hseconds : ∀ slot ∈ s, 0 ≤ slot.seconds) (h : ∀ x, p x → q x) :
    secondsOf p s ≤ secondsOf q s := by
  induction s with
  | nil => exact le_rfl
  | cons slot rest ih =>
    rw [List.forall_mem_cons] at hseconds
    rw [secondsOf_cons, secondsOf_cons]
    refine add_le_add ?_ (ih hseconds.2)
    by_cases hp : p slot.solver
    · rw [if_pos hp, if_pos (h _ hp)]
    · rw [if_neg hp]
      split
      · exact hseconds.1
      · exact le_rfl

/-- No slot is longer than the whole schedule. -/
theorem seconds_le_totalSeconds (hseconds : ∀ slot ∈ s, 0 ≤ slot.seconds) {slot : Slot Rat}
    (h : slot ∈ s) : slot.seconds ≤ totalSeconds s := by
  rw [totalSeconds_rat]
  refine List.single_le_sum (fun x hx => ?_) _ (List.mem_map_of_mem h)
  obtain ⟨other, hother, rfl⟩ := List.mem_map.mp hx
  exact hseconds other hother

/-- Times that are not negative add up to no less than zero. -/
theorem totalSeconds_nonneg (hseconds : ∀ slot ∈ s, 0 ≤ slot.seconds) : 0 ≤ totalSeconds s := by
  rw [← secondsOf_eq_totalSeconds (p := fun _ => True) fun _ _ h => absurd trivial h]
  exact secondsOf_nonneg hseconds

end Schedule

namespace Plan

variable {plan : Plan Rat} {cores more : Nat} {timeout : Rat}

/-! ## One core -/

/-- Stretching a schedule to the time that it has changes nothing, even if it has none. -/
theorem rescale_totalSeconds {s : Schedule Rat} (hseconds : ∀ slot ∈ s, 0 ≤ slot.seconds) :
    rescale s (Schedule.totalSeconds s) = s := by
  refine List.map_congr_left (g := id) (fun slot hslot => ?_) |>.trans (List.map_id s)
  have hle := Schedule.seconds_le_totalSeconds hseconds hslot
  rw [id]
  refine congrArg (Slot.mk slot.solver) ?_
  split
  · next hpos => exact mul_div_cancel_right₀ _ (Quantity.lt_rat.mp hpos).ne'
  · next hpos =>
    have hzero := not_lt.mp (mt Quantity.lt_rat.mpr hpos)
    exact le_antisymm (hseconds slot hslot) (hle.trans hzero)

/-- A single core is nobody's own. -/
theorem dedicatedSolvers_of_le_one (h : cores ≤ 1) : plan.dedicatedSolvers cores = [] := by
  rw [dedicatedSolvers, Nat.sub_eq_zero_of_le h, List.take_zero, List.map_nil]

/-- If nobody owns a core, the fixed slots are shared as they are. -/
theorem sharedFixed_nil : plan.sharedFixed [] = plan.fixed := List.map_id plan.fixed

/-- If nobody owns a core, all predicted slots are left over. -/
theorem leftOver_nil : plan.leftOver [] = plan.predicted :=
  List.filter_eq_self.mpr fun _ _ => rfl

/-- On one core a plan that fills its timeout is run from its first slot to its last one. -/
theorem parallelize_sequential (hpredicted : ∀ slot ∈ plan.predicted, 0 ≤ slot.seconds)
    (htotal : Schedule.totalSeconds plan.fixed + Schedule.totalSeconds plan.predicted = timeout)
    (hcores : cores ≤ 1) :
    (plan.parallelize cores timeout).dedicated = [] ∧
      (plan.parallelize cores timeout).shared = plan.sequential := by
  have hdedicated : plan.dedicatedSolvers cores = [] := dedicatedSolvers_of_le_one hcores
  have hresidual : plan.residual [] timeout = Schedule.totalSeconds plan.predicted := by
    rw [residual, ← totalSeconds_sharedFixed, sharedFixed_nil, ← htotal, add_sub_cancel_left]
    exact max_eq_right (Schedule.totalSeconds_nonneg hpredicted)
  refine ⟨hdedicated, ?_⟩
  rw [shared_parallelize, hdedicated, sharedFixed_nil, leftOver_nil, hresidual,
    rescale_totalSeconds hpredicted, sequential]

/-- A plan whose fixed and predicted parts meet at one solver, with a predicted slot that is
empty. -/
def seamPlan : Plan Rat where
  fixed := [⟨"s", 5⟩, ⟨"a", 1⟩]
  predicted := [⟨"a", 10⟩, ⟨"b", 0⟩, ⟨"a", 14⟩]

/-- On one core it is run as it is. -/
theorem seam_sequential : (∀ slot ∈ seamPlan.predicted, 0 ≤ slot.seconds) ∧
    Schedule.totalSeconds seamPlan.fixed + Schedule.totalSeconds seamPlan.predicted = 30 ∧
    0 ≤ 1 ∧ (seamPlan.parallelize 0 30).dedicated = [] ∧
    (seamPlan.parallelize 0 30).shared = seamPlan.sequential := by
  have hpredicted : ∀ slot ∈ seamPlan.predicted, 0 ≤ slot.seconds := by simp [seamPlan]
  have htotal : Schedule.totalSeconds seamPlan.fixed +
      Schedule.totalSeconds seamPlan.predicted = 30 := by decide +kernel
  exact ⟨hpredicted, htotal, Nat.zero_le 1,
    parallelize_sequential hpredicted htotal (Nat.zero_le 1)⟩

/-! ## More cores -/

/-- Whoever owns a core keeps one when there are more. -/
theorem dedicatedSolvers_subset (h : cores ≤ more) :
    plan.dedicatedSolvers cores ⊆ plan.dedicatedSolvers more := by
  rw [dedicatedSolvers_eq, dedicatedSolvers_eq]
  exact (List.take_prefix_take_left (Nat.sub_le_sub_right h 1)).subset

section

variable {dedicated owners : List String}

/-- The fixed slots leave more time if there are more solvers with a core of their own. -/
theorem residual_le_residual (hfixed : ∀ slot ∈ plan.fixed, 0 ≤ slot.seconds)
    (h : dedicated ⊆ owners) :
    plan.residual dedicated timeout ≤ plan.residual owners timeout := by
  refine max_le_max le_rfl (sub_le_sub_left ?_ _)
  exact Schedule.secondsOf_mono hfixed fun x hx hmem => hx (h hmem)

/-- The share of a predicted solver in what the fixed slots leave does not become smaller when
others leave the shared core: there is more to share, and fewer ask for it. -/
theorem share_le_share (hfixed : ∀ slot ∈ plan.fixed, 0 ≤ slot.seconds)
    (hpredicted : ∀ slot ∈ plan.predicted, 0 ≤ slot.seconds) (h : dedicated ⊆ owners) {x : String}
    (hx : x ∉ owners) :
    plan.predicted.secondsOf (· = x) * plan.residual dedicated timeout /
        plan.leftOverSeconds dedicated ≤
      plan.predicted.secondsOf (· = x) * plan.residual owners timeout /
        plan.leftOverSeconds owners := by
  have hresidual : plan.residual dedicated timeout ≤ plan.residual owners timeout :=
    residual_le_residual hfixed h
  have hnonneg : 0 ≤ plan.residual dedicated timeout := le_max_left _ _
  have hown : 0 ≤ plan.predicted.secondsOf (· = x) := Schedule.secondsOf_nonneg hpredicted
  have hasked : plan.leftOverSeconds owners ≤ plan.leftOverSeconds dedicated :=
    Schedule.secondsOf_mono hpredicted fun y hy hmem => hy (h hmem)
  have hpart : plan.predicted.secondsOf (· = x) ≤ plan.leftOverSeconds owners :=
    Schedule.secondsOf_mono hpredicted fun y hy => hy ▸ hx
  rcases (hown.trans hpart).lt_or_eq with hpos | hzero
  · exact div_le_div₀ (mul_nonneg hown (hnonneg.trans hresidual))
      (mul_le_mul_of_nonneg_left hresidual hown) hpos hasked
  · -- Nobody who is left asks for time, so `x` has no share in either case.
    have hnone : plan.predicted.secondsOf (· = x) = 0 := le_antisymm (hzero ▸ hpart) hown
    rw [hnone, zero_mul, zero_mul, zero_div, zero_div]

end

/-- More cores never hurt a solver: if it owns a core it keeps one, and otherwise it is given one
or has no less time on the shared core. -/
theorem parallelize_mono (hfixed : ∀ slot ∈ plan.fixed, 0 ≤ slot.seconds)
    (hpredicted : ∀ slot ∈ plan.predicted, 0 ≤ slot.seconds) (h : cores ≤ more) :
    (plan.parallelize cores timeout).dedicated ⊆ (plan.parallelize more timeout).dedicated ∧
      ∀ x ∉ (plan.parallelize more timeout).dedicated,
        (plan.parallelize cores timeout).shared.secondsOf (· = x) ≤
          (plan.parallelize more timeout).shared.secondsOf (· = x) := by
  have hsubset : plan.dedicatedSolvers cores ⊆ plan.dedicatedSolvers more :=
    dedicatedSolvers_subset h
  refine ⟨hsubset, fun x hx => ?_⟩
  have hx' : x ∉ plan.dedicatedSolvers cores := fun hmem => hx (hsubset hmem)
  rw [secondsOf_shared_parallelize hpredicted fun _ heq => heq ▸ hx',
    secondsOf_shared_parallelize hpredicted fun _ heq => heq ▸ hx]
  exact add_le_add_right (share_le_share hfixed hpredicted hsubset hx) _

/-- With a third core the solver `c` leaves the shared one, too. -/
theorem overlapping_mono : (∀ slot ∈ overlappingPlan.fixed, 0 ≤ slot.seconds) ∧
    (∀ slot ∈ overlappingPlan.predicted, 0 ≤ slot.seconds) ∧ 2 ≤ 3 ∧
    (overlappingPlan.parallelize 2 30).dedicated ⊆ (overlappingPlan.parallelize 3 30).dedicated ∧
    ∀ x ∉ (overlappingPlan.parallelize 3 30).dedicated,
      (overlappingPlan.parallelize 2 30).shared.secondsOf (· = x) ≤
        (overlappingPlan.parallelize 3 30).shared.secondsOf (· = x) := by
  have hfixed : ∀ slot ∈ overlappingPlan.fixed, 0 ≤ slot.seconds := by simp [overlappingPlan]
  have hpredicted : ∀ slot ∈ overlappingPlan.predicted, 0 ≤ slot.seconds := by
    simp [overlappingPlan]
  exact ⟨hfixed, hpredicted, by decide, parallelize_mono hfixed hpredicted (by decide)⟩

end Plan

end SolverPortfolio
