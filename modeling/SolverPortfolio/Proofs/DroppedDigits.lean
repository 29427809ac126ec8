import SolverPortfolio.Proofs.NearestDouble

/-
# Digits that are dropped

A result with more digits than a double has is shifted to the right. Two digits are kept of what is
dropped: the first one, and whether there is more behind it. However often digits are dropped, these
two tell whether the rest is less than one half of the last digit, one half or more, and so the
nearest integer.

Main definition: `Number.Approximates`.
Main statements: `Number.Approximates.shiftRight`, `Number.Approximates.isNearestInt`.
-/

namespace SolverPortfolio

namespace Number

open Float.Model.UnpackedFloat

/-- A significand stands for a number between itself and the next one. The first digit behind it
tells whether the rest is one half or more, the second one whether there is a rest that is not one
half. -/
structure Approximates (em : ExtendedMantissa) (a : ℚ) : Prop where
  le : (em.mantissa : ℚ) ≤ a
  lt : a < em.mantissa + 1
  half : em.roundBit = true ↔ em.mantissa + 1 / 2 ≤ a
  rest : em.stickyBit = true ↔ a ≠ em.mantissa ∧ a ≠ em.mantissa + 1 / 2

/-- A whole number stands for itself. -/
theorem approximates_exact (m : ℕ) : Approximates (.ofMantissaAndAccuracy m .exact) m := by
  refine ⟨le_rfl, lt_add_one _, ?_, ?_⟩
  · exact iff_of_false Bool.false_ne_true (by simp [ExtendedMantissa.ofMantissaAndAccuracy])
  · exact iff_of_false Bool.false_ne_true (fun h => h.1 rfl)

/-- A rest that is compared with one half tells the digits behind a significand. -/
theorem approximates_inexact (q : ℕ) {f : ℚ} (hpos : 0 < f) (hlt : f < 1) {order : Ordering}
    (horder : compare (2 * f) 1 = order) :
    Approximates (.ofMantissaAndAccuracy q (.inexact order)) (q + f) := by
  have hfar {g : ℚ} (h : f ≠ g) : (q : ℚ) + f ≠ q + g := fun heq => h (add_left_cancel heq)
  have hnone : (q : ℚ) + f ≠ q := fun heq => hpos.ne' (add_eq_left.mp heq)
  have hlow : (q : ℚ) ≤ q + f := le_add_of_nonneg_right hpos.le
  have hhigh : (q : ℚ) + f < q + 1 := by linarith
  cases order with
  | lt =>
    have hhalf := compare_lt_iff_lt.mp horder
    refine ⟨hlow, hhigh, iff_of_false Bool.false_ne_true ?_, iff_of_true rfl ⟨hnone, hfar ?_⟩⟩
    · simp only [ExtendedMantissa.ofMantissaAndAccuracy, not_le]
      linarith
    · exact ne_of_lt (by linarith)
  | eq =>
    have hhalf := compare_eq_iff_eq.mp horder
    have hf : f = 1 / 2 := by linarith
    refine ⟨hlow, hhigh, iff_of_true rfl ?_, iff_of_false Bool.false_ne_true ?_⟩
    · rw [hf]
      exact le_rfl
    · rw [hf]
      exact fun h => h.2 rfl
  | gt =>
    have hhalf := compare_gt_iff_gt.mp horder
    refine ⟨hlow, hhigh, iff_of_true rfl ?_, iff_of_true rfl ⟨hnone, hfar ?_⟩⟩
    · simp only [ExtendedMantissa.ofMantissaAndAccuracy]
      linarith
    · exact (ne_of_lt (by linarith)).symm

/-- A quotient and the size of its rest stand for a fraction. -/
theorem approximates_div (num : ℕ) {den : ℕ} (hden : 0 < den) :
    Approximates (.ofMantissaAndAccuracy (num / den) (accuracyOfFraction (num % den) den))
      ((num : ℚ) / den) := by
  have hpos : (0 : ℚ) < den := by exact_mod_cast hden
  have hsplit : (num : ℚ) / den = (num / den : ℕ) + (num % den : ℕ) / den := by
    have hnum : (num : ℚ) = den * (num / den : ℕ) + (num % den : ℕ) := by
      exact_mod_cast (Nat.div_add_mod num den).symm
    conv_lhs => rw [hnum, add_div, mul_div_cancel_left₀ _ hpos.ne']
  have hmod := Nat.mod_lt num hden
  rw [hsplit]
  generalize num / den = q
  generalize num % den = r at hmod ⊢
  rw [accuracyOfFraction]
  split
  · next hzero =>
    rw [hzero, Nat.cast_zero, zero_div, add_zero]
    exact approximates_exact q
  · next hzero =>
    have hrest : (0 : ℚ) < r := by exact_mod_cast Nat.pos_of_ne_zero hzero
    refine approximates_inexact q (by positivity) ?_ ?_
    · rw [div_lt_one hpos]
      exact_mod_cast hmod
    · have htwice : 2 * ((r : ℚ) / den) = (2 * r : ℕ) / den := by
        push_cast
        ring
      rw [htwice]
      rcases lt_trichotomy (2 * r) den with hlt | heq | hgt
      · rw [compare_lt_iff_lt.mpr hlt, compare_lt_iff_lt, div_lt_one hpos]
        exact_mod_cast hlt
      · rw [compare_eq_iff_eq.mpr heq, compare_eq_iff_eq, heq, div_self hpos.ne']
      · rw [compare_gt_iff_gt.mpr hgt, compare_gt_iff_gt, one_lt_div hpos]
        exact_mod_cast hgt

variable {em : ExtendedMantissa} {a : ℚ}

/-- Dropping a digit halves the number. -/
theorem Approximates.shiftRightOne (h : Approximates em a) :
    Approximates em.shiftRightOne (a / 2) := by
  obtain ⟨m, round, sticky⟩ := em
  obtain ⟨hle, hlt, hhalf, hrest⟩ := h
  dsimp only at hle hlt hhalf hrest
  have hsplit : (m : ℚ) = 2 * (m / 2 : ℕ) + (m % 2 : ℕ) := by
    exact_mod_cast (Nat.div_add_mod m 2).symm
  -- There is a rest behind the digit dropped unless it is the whole number.
  have hsome : (round || sticky) = true ↔ a ≠ m := by
    rw [Bool.or_eq_true, hhalf, hrest]
    constructor
    · rintro (hge | ⟨hne, -⟩)
      · exact (ne_of_lt (by linarith)).symm
      · exact hne
    · intro hne
      rcases lt_or_ge a (m + 1 / 2) with hlow | hge
      · exact Or.inr ⟨hne, hlow.ne⟩
      · exact Or.inl hge
  rcases Nat.mod_two_eq_zero_or_one m with hmod | hmod
  · rw [hmod, Nat.cast_zero, add_zero] at hsplit
    refine ⟨?_, ?_, iff_of_false ?_ ?_, hsome.trans ⟨fun hne => ⟨?_, ?_⟩, fun hne heq => ?_⟩⟩
    all_goals dsimp only [ExtendedMantissa.shiftRightOne] at *
    · linarith
    · linarith
    · simp [hmod]
    · linarith
    · exact fun heq => hne (by linarith)
    · exact ne_of_lt (by linarith)
    · exact hne.1 (by linarith)
  · rw [hmod, Nat.cast_one] at hsplit
    refine ⟨?_, ?_, iff_of_true ?_ ?_, hsome.trans ⟨fun hne => ⟨?_, ?_⟩, fun hne heq => ?_⟩⟩
    all_goals dsimp only [ExtendedMantissa.shiftRightOne] at *
    · linarith
    · linarith
    · simp [hmod]
    · linarith
    · exact (ne_of_lt (by linarith)).symm
    · exact fun heq => hne (by linarith)
    · exact hne.2 (by linarith)

/-- Dropping digits divides the number by a power of two. -/
theorem Approximates.shiftRight (h : Approximates em a) (n : ℕ) :
    Approximates (em >>> n) (a / 2 ^ n) := by
  change Approximates (n.repeat ExtendedMantissa.shiftRightOne em) _
  induction n with
  | zero => 
    rw [pow_zero, div_one]
    exact h
  | succ n ih => 
    rw [Nat.repeat, pow_succ, ← div_div]
    exact ih.shiftRightOne

/-- The digits behind a significand tell the nearest integer. -/
theorem Approximates.isNearestInt (h : Approximates em a) :
    IsNearestInt a em.roundedMantissa := by
  obtain ⟨m, round, sticky⟩ := em
  obtain ⟨hle, hlt, hhalf, hrest⟩ := h
  dsimp only at hle hlt hhalf hrest
  cases round with
  | false =>
    have hlow : a < m + 1 / 2 := not_le.mp fun hge => Bool.false_ne_true (hhalf.mpr hge)
    have hdown : ExtendedMantissa.roundedMantissa ⟨m, false, sticky⟩ = m := by cases sticky <;> rfl
    rw [hdown]
    refine isNearestInt_of_lt ?_
    rw [Int.cast_natCast, abs_of_nonneg (sub_nonneg.mpr hle)]
    linarith
  | true =>
    have hhigh := hhalf.mp rfl
    cases sticky with
    | false =>
      have heq : a = m + 1 / 2 := by
        by_contra hne
        exact Bool.false_ne_true (hrest.mpr ⟨(ne_of_lt (by linarith)).symm, hne⟩)
      rw [heq]
      exact isNearestInt_half m
    | true =>
      have hne := (hrest.mp rfl).2
      refine isNearestInt_of_lt (q := (m + 1 : ℕ)) ?_
      rw [Int.cast_natCast, Nat.cast_add_one, abs_of_neg (by linarith)]
      have hlt' := lt_of_le_of_ne hhigh hne.symm
      linarith

end Number

end SolverPortfolio
