import SolverPortfolio.Incumbent

/-
# Comparing values that may be missing

A run keeps values that may be missing: the best one known, the best one of each
worker, the bounds that processes were launched with. `Goal.Covers` says that
one such value is at least as good as another. Along a run the best value known
covers all the others, and each best value covers the ones before it.

Main definitions: `Goal.Covers`.
-/

namespace SolverPortfolio

namespace Goal

/-- A problem with an objective does not ask for just any solution. -/
theorem ne_satisfy {goal : Goal} (h : goal.isOptimization) : goal ≠ .satisfy := by
  intro hsatisfy
  rw [hsatisfy] at h
  cases h

/-- The value `x`, if there is one, does not improve on `best`. -/
def Covers (goal : Goal) (best x : Option Objective) : Prop :=
  ∀ v, x = some v → goal.isBetter best v = false

/-- A missing value is covered by everything. -/
@[simp] theorem covers_none (goal : Goal) (best : Option Objective) : goal.Covers best none := by
  intro v h
  cases h

/-- A value is covered if it does not improve. -/
@[simp] theorem covers_some {goal : Goal} {best : Option Objective} {v : Objective} :
    goal.Covers best (some v) ↔ goal.isBetter best v = false := by
  constructor
  · intro h
    exact h v rfl
  · intro h u hu
    cases hu
    exact h

/-- Where there is an objective, everything covers itself. -/
theorem covers_self {goal : Goal} (h : goal.isOptimization) (x : Option Objective) :
    goal.Covers x x := by
  intro v hv
  rw [hv, isBetter_self, h]
  rfl

/-- A missing value covers missing values only. -/
theorem eq_none_of_covers {goal : Goal} {x : Option Objective} (h : goal.Covers none x) :
    x = none := by
  cases x with
  | none => rfl
  | some v =>
    have hv := h v rfl
    rw [isBetter_none] at hv
    cases hv

/-- What covers a value is there itself. -/
theorem exists_of_covers_some {goal : Goal} {best : Option Objective} {v : Objective}
    (h : goal.Covers best (some v)) : ∃ b, best = some b := by
  cases best with
  | none => cases eq_none_of_covers h
  | some b => exact ⟨b, rfl⟩

/-- Covering goes on along a chain. -/
theorem Covers.trans {goal : Goal} {a b c : Option Objective}
    (hab : goal.Covers a b) (hbc : goal.Covers b c) : goal.Covers a c := by
  intro v hv
  subst hv
  -- A missing value would cover nothing, so that `a` and `b` can be compared with `v`.
  obtain ⟨u, rfl⟩ := exists_of_covers_some hbc
  obtain ⟨t, rfl⟩ := exists_of_covers_some hab
  have hut := hab u rfl
  have hvu := hbc v rfl
  cases goal with
  | satisfy => cases hut
  | minimize =>
    simp only [isBetter, decide_eq_false_iff_not, Int.not_lt] at hut hvu ⊢
    exact Int.le_trans hut hvu
  | maximize =>
    simp only [isBetter, decide_eq_false_iff_not, Int.not_lt] at hut hvu ⊢
    exact Int.le_trans hvu hut

/-- A value covers those that it improves on. -/
theorem covers_of_isBetter {goal : Goal} (h : goal.isOptimization) {x : Option Objective}
    {v : Objective} (hv : goal.isBetter x v) : goal.Covers (some v) x := by
  intro u hu
  subst hu
  cases goal with
  | satisfy => cases h
  | minimize =>
    simp only [isBetter, decide_eq_true_eq, decide_eq_false_iff_not, Int.not_lt] at hv ⊢
    exact Int.le_of_lt hv
  | maximize =>
    simp only [isBetter, decide_eq_true_eq, decide_eq_false_iff_not, Int.not_lt] at hv ⊢
    exact Int.le_of_lt hv

/-- Values that cover each other are equal. -/
theorem eq_of_covers {goal : Goal} {u v : Objective} (huv : goal.Covers (some u) (some v))
    (hvu : goal.Covers (some v) (some u)) : u = v := by
  have h₁ := huv v rfl
  have h₂ := hvu u rfl
  cases goal with
  | satisfy => cases h₁
  | minimize =>
    simp only [isBetter, decide_eq_false_iff_not, Int.not_lt] at h₁ h₂
    exact Int.le_antisymm h₁ h₂
  | maximize =>
    simp only [isBetter, decide_eq_false_iff_not, Int.not_lt] at h₁ h₂
    exact Int.le_antisymm h₂ h₁

/-- A value improves on every other one that it covers. -/
theorem isBetter_of_covers {goal : Goal} {x : Option Objective} {v : Objective}
    (h : goal.Covers (some v) x) (hne : x ≠ some v) : goal.isBetter x v := by
  cases x with
  | none => exact isBetter_none goal v
  | some u =>
    cases hb : goal.isBetter (some u) v with
    | true => rfl
    | false => exact absurd (congrArg some (eq_of_covers (covers_some.2 hb) h)) hne

/-- What improves on a value improves on all that it covers. -/
theorem Covers.isBetter {goal : Goal} (hg : goal.isOptimization) {best x : Option Objective}
    {v : Objective} (h : goal.Covers best x) (hv : goal.isBetter best v) : goal.isBetter x v := by
  refine isBetter_of_covers ((covers_of_isBetter hg hv).trans h) fun hx => ?_
  rw [h v hx] at hv
  cases hv

/-- The first of two values that is there covers the second one, if it covers it when it is
there. -/
theorem covers_orElse {goal : Goal} (h : goal.isOptimization) {x y : Option Objective}
    (hxy : ∀ v, x = some v → goal.Covers x y) : goal.Covers (x <|> y) y := by
  cases x with
  | none => exact covers_self h y
  | some v => exact hxy v rfl

/-- What covers two values covers the first of them that is there. -/
theorem Covers.orElse {goal : Goal} {best x y : Option Objective} (hx : goal.Covers best x)
    (hy : goal.Covers best y) : goal.Covers best (x <|> y) := by
  cases x with
  | none => exact hy
  | some v => exact hx

end Goal

namespace Incumbent

/-! ## Offers -/

/-- An offer never makes the best value worse. -/
theorem covers_best_offer (i : Incumbent) (h : i.goal.isOptimization) (v : Objective) :
    i.goal.Covers (i.offer v).1.best i.best := by
  rw [best_offer]
  split
  · next hv =>
    simp only [accepts, Bool.and_eq_true] at hv
    exact Goal.covers_of_isBetter h hv.2
  · exact Goal.covers_self h _

/-- As long as there is no winner, the best value after an offer covers the value offered. -/
theorem covers_offered (i : Incumbent) (h : i.goal.isOptimization) (hw : i.winner = none)
    (v : Objective) : i.goal.Covers (i.offer v).1.best (some v) := by
  rw [best_offer]
  split
  · exact Goal.covers_self h _
  · next hv =>
    rw [Goal.covers_some]
    simpa [accepts, h, hw] using hv

/-- The best value after an offer is the one before or the one offered. -/
theorem best_offer_eq_or (i : Incumbent) (v : Objective) :
    (i.offer v).1.best = i.best ∨ (i.offer v).1.best = some v := by
  rw [best_offer]
  split
  · exact Or.inr rfl
  · exact Or.inl rfl

end Incumbent

end SolverPortfolio
