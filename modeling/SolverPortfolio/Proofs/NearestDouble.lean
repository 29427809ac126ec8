import Mathlib
import SolverPortfolio.Number.Literal

/-
# The double nearest to a number

Doubles are numbers with 53 significant binary digits. The double nearest to a fraction is a
multiple of a power of two that depends on the size of the fraction, so that rounding comes down to
a nearest integer: multiples of smaller powers are too small to be near.

Main definitions: `Number.IsDouble`, `Number.IsNearest`, `Number.Denotes`.
Main statements: `Number.IsNearest.unique`, `Number.isNearest_of_multiple`.
-/

namespace SolverPortfolio

namespace Number

/-! ## Doubles and nearest doubles -/

/-- The numbers with 53 significant binary digits, the last of which stands for `2 ^ (-1074)` or
more. Those smaller than `2 ^ 1024` are the finite doubles. -/
def IsDouble (y : ℚ) : Prop := ∃ m e : ℤ, |m| < 2 ^ 53 ∧ -1074 ≤ e ∧ y = m * 2 ^ e

/-- The double nearest to a number; of two doubles that are equally near it is the one that is an
even multiple of their distance. -/
structure IsNearest (x y : ℚ) : Prop where
  isDouble : IsDouble y
  le : ∀ z, IsDouble z → |x - y| ≤ |x - z|
  even : ∀ z, IsDouble z → |x - z| = |x - y| → z ≠ y → ∃ k : ℤ, y = 2 * k * (y - z)

/-- There is one nearest double. -/
theorem IsNearest.unique {x y z : ℚ} (hy : IsNearest x y) (hz : IsNearest x z) : y = z := by
  by_contra hne
  have hdist : |x - z| = |x - y| := le_antisymm (hz.le y hy.isDouble) (hy.le z hz.isDouble)
  obtain ⟨k, hk⟩ := hy.even z hz.isDouble hdist (Ne.symm hne)
  obtain ⟨l, hl⟩ := hz.even y hy.isDouble hdist.symm hne
  -- Both are even multiples of their distance, which is one multiple of it.
  have hone : (1 : ℚ) = (2 * (k + l) : ℤ) := by
    have hgap : y - z ≠ 0 := sub_ne_zero.mpr hne
    refine mul_right_cancel₀ hgap ?_
    push_cast
    linear_combination hk - hl
  have hodd : (1 : ℤ) = 2 * (k + l) := by exact_mod_cast hone
  omega

/-- A double is the nearest one to itself. -/
theorem IsNearest.eq_of_isDouble {x y : ℚ} (h : IsNearest x y) (hx : IsDouble x) : y = x := by
  have hle := h.le x hx
  rw [sub_self, abs_zero] at hle
  have hzero := abs_eq_zero.mp (le_antisymm hle (abs_nonneg _))
  linarith

/-- A number and its negative are doubles or not. -/
theorem IsDouble.neg {y : ℚ} (h : IsDouble y) : IsDouble (-y) := by
  obtain ⟨m, e, hm, he, rfl⟩ := h
  exact ⟨-m, e, by rwa [abs_neg], he, by push_cast; ring⟩

/-- Negative numbers are rounded as positive ones. -/
theorem IsNearest.neg {x y : ℚ} (h : IsNearest x y) : IsNearest (-x) (-y) := by
  have hdist : ∀ z : ℚ, |-x - z| = |x - -z| := by
    intro z
    rw [← abs_neg]
    ring_nf
  refine ⟨h.isDouble.neg, ?_, ?_⟩
  · intro z hz
    rw [hdist, hdist, neg_neg]
    exact h.le _ hz.neg
  · intro z hz heq hne
    rw [hdist, hdist, neg_neg] at heq
    obtain ⟨k, hk⟩ := h.even (-z) hz.neg heq fun hz' => hne (by rw [← hz', neg_neg])
    exact ⟨k, by linear_combination -hk⟩

/-- Zero is a double. -/
theorem isDouble_zero : IsDouble 0 := ⟨0, 0, by norm_num, by norm_num, by norm_num⟩

/-- A double is the nearest one to itself. -/
theorem isNearest_self {y : ℚ} (h : IsDouble y) : IsNearest y y := by
  refine ⟨h, fun z _ => by simp, fun z _ heq hne => ?_⟩
  rw [sub_self, abs_zero, abs_eq_zero] at heq
  exact absurd (sub_eq_zero.mp heq).symm hne

/-- Zero is the double nearest to zero. -/
theorem isNearest_zero : IsNearest 0 0 := isNearest_self isDouble_zero

/-- Powers of two that are not too small are doubles. -/
theorem isDouble_two_zpow {e : ℤ} (he : -1074 ≤ e) : IsDouble (2 ^ e) :=
  ⟨1, e, by norm_num, he, by rw [Int.cast_one, one_mul]⟩

/-- Powers of two are doubles. -/
theorem isDouble_two_pow (n : ℕ) : IsDouble (2 ^ n) :=
  zpow_natCast (2 : ℚ) n ▸ isDouble_two_zpow (by omega)

/-- Rounding does not go beyond a double above. -/
theorem IsNearest.le_of_le {x y b : ℚ} (h : IsNearest x y) (hb : IsDouble b) (hle : x ≤ b) :
    y ≤ b := by
  by_contra hlt
  have hle' := h.le b hb
  rw [abs_sub_comm x y, abs_sub_comm x b, abs_of_nonneg (by linarith : 0 ≤ y - x),
    abs_of_nonneg (by linarith : 0 ≤ b - x)] at hle'
  linarith

/-- Rounding does not go beyond a double below. -/
theorem IsNearest.ge_of_ge {x y b : ℚ} (h : IsNearest x y) (hb : IsDouble b) (hge : b ≤ x) :
    b ≤ y := by
  have hneg := h.neg.le_of_le hb.neg (neg_le_neg hge)
  linarith

/-- Larger numbers are rounded to larger doubles. -/
theorem IsNearest.mono {v w c d : ℚ} (hc : IsNearest v c) (hd : IsNearest w d) (hle : v ≤ w) :
    c ≤ d := by
  by_contra hlt
  rw [not_le] at hlt
  -- Both numbers lie on the wrong side of the middle, so they are equal.
  have hlow : c + d ≤ 2 * v := by
    have hnear := sq_le_sq.mpr (hc.le d hd.isDouble)
    nlinarith
  have hhigh : 2 * w ≤ c + d := by
    have hnear := sq_le_sq.mpr (hd.le c hc.isDouble)
    nlinarith
  obtain rfl : v = w := by linarith
  exact hlt.ne' (hc.unique hd)

/-- Doubles of `2 ^ 53` and more have no digits behind the point. -/
theorem IsDouble.exists_int {y : ℚ} (h : IsDouble y) (hy : 2 ^ 53 ≤ |y|) : ∃ n : ℤ, y = n := by
  obtain ⟨m, e, hm, -, rfl⟩ := h
  have hpos : (0 : ℚ) < 2 ^ e := by positivity
  have he : 0 ≤ e := by
    by_contra hneg
    have hone : (2 : ℚ) ^ e ≤ 1 := zpow_le_one_of_nonpos₀ one_le_two (not_le.mp hneg).le
    have hm' : |(m : ℚ)| < 2 ^ 53 := by exact_mod_cast hm
    rw [abs_mul, abs_of_pos hpos] at hy
    have hle : |(m : ℚ)| * 2 ^ e ≤ |(m : ℚ)| * 1 := mul_le_mul_of_nonneg_left hone (abs_nonneg _)
    linarith
  obtain ⟨n, rfl⟩ := Int.eq_ofNat_of_zero_le he
  exact ⟨m * 2 ^ n, by push_cast; rw [zpow_natCast]⟩

/-- Whole numbers are rounded to whole numbers. -/
theorem IsNearest.exists_int {n : ℤ} {y : ℚ} (h : IsNearest n y) : ∃ k : ℤ, y = k := by
  rcases lt_or_ge |n| (2 ^ 53) with hlt | hge
  · have hn : IsDouble (n : ℚ) := ⟨n, 0, hlt, by norm_num, by rw [zpow_zero, mul_one]⟩
    exact ⟨n, h.eq_of_isDouble hn⟩
  · refine h.isDouble.exists_int ?_
    have hge' : (2 : ℚ) ^ 53 ≤ |(n : ℚ)| := by exact_mod_cast hge
    rcases le_abs.mp hge' with hpos | hneg
    · exact le_abs.mpr (.inl (h.ge_of_ge (isDouble_two_pow 53) hpos))
    · refine le_abs.mpr (.inr ?_)
      have hle := h.le_of_le (isDouble_two_pow 53).neg (by linarith)
      linarith

/-! ## Nearest integers -/

/-- An integer that is at most one half away, and even if it is one half away. -/
structure IsNearestInt (a : ℚ) (q : ℤ) : Prop where
  half : 2 * |a - q| ≤ 1
  even : 2 * |a - q| = 1 → Even q

section

variable {a : ℚ} {q k : ℤ}

/-- An integer and another one are at least one apart. -/
theorem one_le_abs_sub_add_abs_sub (hne : k ≠ q) : 1 ≤ |a - q| + |a - k| := by
  have hone : (1 : ℚ) ≤ |(k : ℚ) - q| := by
    exact_mod_cast Int.one_le_abs (sub_ne_zero.mpr hne)
  have htriangle := abs_sub_le (k : ℚ) a q
  rw [abs_sub_comm (k : ℚ) a] at htriangle
  linarith

/-- No other integer is nearer. -/
theorem IsNearestInt.le (h : IsNearestInt a q) (k : ℤ) : |a - q| ≤ |a - k| := by
  rcases eq_or_ne k q with rfl | hne
  · exact le_rfl
  · have hone := one_le_abs_sub_add_abs_sub (a := a) hne
    have hhalf := h.half
    linarith

/-- An integer that is less than one half away is the nearest one. -/
theorem isNearestInt_of_lt (h : 2 * |a - q| < 1) : IsNearestInt a q :=
  ⟨h.le, fun heq => absurd heq h.ne⟩

/-- The nearest integer is not beyond an integer above. -/
theorem IsNearestInt.le_of_le (h : IsNearestInt a q) (hle : a ≤ k) : q ≤ k := by
  have hhalf := (abs_le.mp (show |a - q| ≤ 1 / 2 by linarith [h.half])).1
  have hlt : (q : ℚ) < k + 1 := by linarith
  exact Int.lt_add_one_iff.mp (by exact_mod_cast hlt)

/-- The nearest integer is not beyond an integer below. -/
theorem IsNearestInt.ge_of_ge (h : IsNearestInt a q) (hge : k ≤ a) : k ≤ q := by
  have hhalf := (abs_le.mp (show |a - q| ≤ 1 / 2 by linarith [h.half])).2
  have hlt : (k : ℚ) < q + 1 := by linarith
  exact Int.lt_add_one_iff.mp (by exact_mod_cast hlt)

/-- If another integer is as near, it is next to an even one. -/
theorem IsNearestInt.tie (h : IsNearestInt a q) (hne : k ≠ q) (heq : |a - k| = |a - q|) :
    Even q ∧ |q - k| = 1 := by
  have hone := one_le_abs_sub_add_abs_sub (a := a) hne
  have hhalf : 2 * |a - q| = 1 := by
    have := h.half
    linarith
  refine ⟨h.even hhalf, le_antisymm ?_ (Int.one_le_abs (sub_ne_zero.mpr (Ne.symm hne)))⟩
  have htriangle : |(q : ℚ) - k| ≤ 1 := by
    have := abs_sub_le (q : ℚ) a k
    rw [abs_sub_comm (q : ℚ) a] at this
    linarith
  exact_mod_cast htriangle

/-- If another integer is as near, the number of steps to it fits in evenly. -/
theorem IsNearestInt.exists_even_mul (h : IsNearestInt a q) (hne : k ≠ q)
    (heq : |a - k| = |a - q|) : ∃ j : ℤ, q = 2 * j * (q - k) := by
  obtain ⟨⟨j, hj⟩, hnext⟩ := h.tie hne heq
  rcases (abs_eq zero_le_one).mp hnext with hstep | hstep
  · exact ⟨j, by rw [hstep]; omega⟩
  · exact ⟨-j, by rw [hstep]; omega⟩

end

/-- Between two integers the even one is the nearest. -/
theorem isNearestInt_half (m : ℕ) : IsNearestInt ((m : ℚ) + 1 / 2) (m + m % 2 : ℕ) := by
  have heven : Even ((m + m % 2 : ℕ) : ℤ) := by
    rw [Int.even_coe_nat, Nat.even_iff]
    omega
  refine ⟨?_, fun _ => heven⟩
  rcases Nat.mod_two_eq_zero_or_one m with hmod | hmod
  · rw [hmod]
    norm_num
  · rw [hmod]
    norm_num

/-! ## The double nearest to a number of known size -/

/-- Distances in units of a power of two. -/
theorem abs_sub_mul (x : ℚ) (k e : ℤ) : |x - k * 2 ^ e| = |x / 2 ^ e - k| * 2 ^ e := by
  have hpos : (0 : ℚ) < 2 ^ e := by positivity
  have hsplit : x - k * 2 ^ e = (x / 2 ^ e - k) * 2 ^ e := by
    rw [sub_mul, div_mul_cancel₀ _ hpos.ne']
  rw [hsplit, abs_mul, abs_of_pos hpos]

/-- A double with no digit below a power of two is a multiple of that power. -/
theorem exists_multiple {m e f : ℤ} (h : e ≤ f) : ∃ k : ℤ, (m : ℚ) * 2 ^ f = k * 2 ^ e := by
  refine ⟨m * 2 ^ (f - e).toNat, ?_⟩
  have hsplit : (2 : ℚ) ^ f = 2 ^ (f - e).toNat * 2 ^ e := by
    rw [← zpow_natCast, Int.toNat_of_nonneg (sub_nonneg.mpr h), ← zpow_add₀ two_ne_zero,
      sub_add_cancel]
  rw [hsplit]
  push_cast
  ring

/-- A double with a digit below a power of two is less than `2 ^ 52` times that power. -/
theorem lt_of_smaller_exponent {m e f : ℤ} (hm : |m| < 2 ^ 53) (h : f < e) :
    (m : ℚ) * 2 ^ f < 2 ^ 52 * 2 ^ e := by
  have hpos : (0 : ℚ) < 2 ^ f := by positivity
  have hm' : (m : ℚ) < 2 ^ 53 := by exact_mod_cast (abs_lt.mp hm).2
  have hdouble : 2 * (2 : ℚ) ^ f ≤ 2 ^ e := by
    rw [← zpow_one_add₀ two_ne_zero]
    exact zpow_le_zpow_right₀ one_le_two (by omega)
  calc (m : ℚ) * 2 ^ f < 2 ^ 53 * 2 ^ f := mul_lt_mul_of_pos_right hm' hpos
    _ = 2 ^ 52 * (2 * 2 ^ f) := by ring
    _ ≤ 2 ^ 52 * 2 ^ e := mul_le_mul_of_nonneg_left hdouble (by positivity)

/-- A number that needs no digits below a power of two is rounded to the nearest multiple of that
power. -/
theorem isNearest_of_multiple {x : ℚ} {e q : ℤ} (he : -1074 ≤ e) (hq : IsNearestInt (x / 2 ^ e) q)
    (hnonneg : 0 ≤ q) (hle : q ≤ 2 ^ 53) (hx : -1074 < e → 2 ^ 52 * 2 ^ e ≤ x) :
    IsNearest x (q * 2 ^ e) := by
  have hpos : (0 : ℚ) < 2 ^ e := by positivity
  have hmultiple : ∀ k : ℤ, |x - q * 2 ^ e| ≤ |x - k * 2 ^ e| := by
    intro k
    rw [abs_sub_mul, abs_sub_mul]
    exact mul_le_mul_of_nonneg_right (hq.le k) hpos.le
  -- Doubles with smaller digits are not as near as the smallest one without.
  have hsmall : ∀ m f : ℤ, |m| < 2 ^ 53 → -1074 ≤ f → f < e →
      |x - q * 2 ^ e| < |x - m * 2 ^ f| := by
    intro m f hm hf hfe
    have hlt := lt_of_smaller_exponent hm hfe
    have hge := hx (lt_of_le_of_lt hf hfe)
    have hleast := hmultiple (2 ^ 52)
    rw [abs_of_nonneg (show 0 ≤ x - ((2 ^ 52 : ℤ) : ℚ) * 2 ^ e by push_cast; linarith)] at hleast
    rw [abs_of_pos (show 0 < x - m * 2 ^ f by linarith)]
    push_cast at hleast
    linarith
  refine ⟨?_, ?_, ?_⟩
  · rcases lt_or_eq_of_le hle with hlt | heq
    · exact ⟨q, e, by rwa [abs_of_nonneg hnonneg], he, rfl⟩
    · refine ⟨2 ^ 52, e + 1, by norm_num, by omega, ?_⟩
      rw [heq, zpow_add_one₀ two_ne_zero]
      push_cast
      ring
  · rintro z ⟨m, f, hm, hf, rfl⟩
    rcases le_or_gt e f with h | h
    · obtain ⟨k, hk⟩ := exists_multiple (m := m) h
      rw [hk]
      exact hmultiple k
    · exact (hsmall m f hm hf h).le
  · rintro z ⟨m, f, hm, hf, rfl⟩ heq hne
    rcases le_or_gt e f with h | h
    · obtain ⟨k, hk⟩ := exists_multiple (m := m) h
      rw [hk] at heq hne ⊢
      have hkq : k ≠ q := fun hkq => hne (by rw [hkq])
      rw [abs_sub_mul, abs_sub_mul] at heq
      obtain ⟨j, hj⟩ := hq.exists_even_mul hkq (mul_right_cancel₀ hpos.ne' heq)
      have hj' : (q : ℚ) = 2 * j * (q - k) := by exact_mod_cast hj
      exact ⟨j, by linear_combination 2 ^ e * hj'⟩
    · exact absurd heq (hsmall m f hm hf h).ne'

/-! ## The bits of a fraction -/

/-- A fraction is rounded to the nearest integer, half to even. -/
theorem isNearestInt_halfToEven {num den : ℕ} (hden : 0 < den) :
    IsNearestInt ((num : ℚ) / den) (halfToEven num den) := by
  have hpos : (0 : ℚ) < den := by exact_mod_cast hden
  obtain ⟨q, hq⟩ : ∃ q, num / den = q := ⟨_, rfl⟩
  obtain ⟨r, hr⟩ : ∃ r, num % den = r := ⟨_, rfl⟩
  have hnum : (num : ℚ) = den * q + r := by
    exact_mod_cast hq ▸ hr ▸ (Nat.div_add_mod num den).symm
  have hsplit : (num : ℚ) / den = q + r / den := by
    rw [hnum, add_div, mul_div_cancel_left₀ _ hpos.ne']
  have hnonneg : (0 : ℚ) ≤ r / den := by positivity
  rw [halfToEven, hq, hr, hsplit]
  split
  · have hlt : 2 * ((r : ℚ) / den) < 1 := by
      rw [← mul_div_assoc, div_lt_one hpos]
      exact_mod_cast ‹2 * r < den›
    refine isNearestInt_of_lt ?_
    rwa [Int.cast_natCast, add_sub_cancel_left, abs_of_nonneg hnonneg]
  · split
    · have hlt : 1 < 2 * ((r : ℚ) / den) := by
        rw [← mul_div_assoc, one_lt_div hpos]
        exact_mod_cast ‹den < 2 * r›
      have hle : (r : ℚ) / den ≤ 1 := by
        rw [div_le_one hpos]
        exact_mod_cast hr ▸ (Nat.mod_lt num hden).le
      refine isNearestInt_of_lt ?_
      rw [abs_sub_comm, Int.cast_natCast, Nat.cast_add_one, abs_of_nonneg (by linarith)]
      linarith
    · have hhalf : (r : ℚ) / den = 1 / 2 := by
        rw [div_eq_div_iff hpos.ne' two_ne_zero]
        exact_mod_cast (by omega : r * 2 = 1 * den)
      rw [hhalf]
      exact isNearestInt_half q

/-- A fraction in units of a power of two is a fraction. -/
theorem div_two_zpow (num den : ℕ) (e : ℤ) : (num : ℚ) / den / 2 ^ e =
    if e < 0 then ((num * Nat.pow 2 e.natAbs : ℕ) : ℚ) / den
    else (num : ℚ) / (den * Nat.pow 2 e.natAbs : ℕ) := by
  split
  · have he : e = -(e.natAbs : ℤ) := by omega
    conv_lhs => rw [he, zpow_neg, zpow_natCast, div_inv_eq_mul]
    push_cast [Nat.pow_eq]
    rw [div_mul_eq_mul_div]
  · have he : e = (e.natAbs : ℤ) := by omega
    conv_lhs => rw [he, zpow_natCast]
    push_cast [Nat.pow_eq]
    rw [div_div]

/-- The power of two whose multiples are the doubles around a number. -/
structure IsScale (x : ℚ) (e : ℤ) : Prop where
  least : -1074 ≤ e
  lt : x < 2 ^ 53 * 2 ^ e
  le : -1074 < e → 2 ^ 52 * 2 ^ e ≤ x

/-- A fraction lies between two powers of two, which its logarithms give up to one. -/
theorem log2_bounds {num den : ℕ} (hnum : 0 < num) (hden : 0 < den) :
    (2 : ℚ) ^ ((num.log2 : ℤ) - den.log2 - 1) ≤ (num : ℚ) / den ∧
      (num : ℚ) / den < 2 ^ ((num.log2 : ℤ) - den.log2 + 1) := by
  have hpos : (0 : ℚ) < den := by exact_mod_cast hden
  have hnumLow : (2 : ℚ) ^ (num.log2 : ℤ) ≤ num := by
    exact_mod_cast Nat.log2_self_le hnum.ne'
  have hdenLow : (2 : ℚ) ^ (den.log2 : ℤ) ≤ den := by
    exact_mod_cast Nat.log2_self_le hden.ne'
  have hnumHigh : (num : ℚ) < 2 ^ ((num.log2 : ℤ) + 1) := by
    exact_mod_cast Nat.lt_log2_self (n := num)
  have hdenHigh : (den : ℚ) ≤ 2 ^ ((den.log2 : ℤ) + 1) := by
    exact_mod_cast (Nat.lt_log2_self (n := den)).le
  constructor
  · rw [le_div_iff₀ hpos]
    calc (2 : ℚ) ^ ((num.log2 : ℤ) - den.log2 - 1) * den
        ≤ 2 ^ ((num.log2 : ℤ) - den.log2 - 1) * 2 ^ ((den.log2 : ℤ) + 1) :=
          mul_le_mul_of_nonneg_left hdenHigh (by positivity)
      _ = 2 ^ (num.log2 : ℤ) := by
          rw [← zpow_add₀ two_ne_zero]
          ring_nf
      _ ≤ num := hnumLow
  · rw [div_lt_iff₀ hpos]
    calc (num : ℚ) < 2 ^ ((num.log2 : ℤ) + 1) := hnumHigh
      _ = 2 ^ ((num.log2 : ℤ) - den.log2 + 1) * 2 ^ (den.log2 : ℤ) := by
          rw [← zpow_add₀ two_ne_zero]
          ring_nf
      _ ≤ 2 ^ ((num.log2 : ℤ) - den.log2 + 1) * den :=
          mul_le_mul_of_nonneg_left hdenLow (by positivity)

/-- Whether a fraction is smaller than a power of two is seen without division. -/
theorem lt_two_zpow_iff {num den : ℕ} (hden : 0 < den) (e : ℤ) :
    (if e < 0 then num * Nat.pow 2 e.natAbs < den else num < den * Nat.pow 2 e.natAbs) ↔
      (num : ℚ) / den < 2 ^ e := by
  have hpos : (0 : ℚ) < den := by exact_mod_cast hden
  have hpower : 0 < Nat.pow 2 e.natAbs := Nat.two_pow_pos _
  rw [← div_lt_one (by positivity : (0 : ℚ) < 2 ^ e), div_two_zpow]
  split
  · rw [div_lt_one hpos, Nat.cast_lt]
  · rw [div_lt_one (by exact_mod_cast Nat.mul_pos hden hpower), Nat.cast_lt]

/-- The scale of a number is found from the power of two at its first digit. -/
theorem isScale_of_bounds {x : ℚ} {top : ℤ} (hlow : 2 ^ top ≤ x) (hhigh : x < 2 ^ (top + 1)) :
    IsScale x (max (top - 52) (-1074)) := by
  have hpower : ∀ e : ℤ, (2 : ℚ) ^ 52 * 2 ^ e = 2 ^ (52 + e) := fun e => by
    rw [zpow_add₀ two_ne_zero]
    norm_cast
  have hpower' : ∀ e : ℤ, (2 : ℚ) ^ 53 * 2 ^ e = 2 ^ (53 + e) := fun e => by
    rw [zpow_add₀ two_ne_zero]
    norm_cast
  refine ⟨le_max_right _ _, ?_, ?_⟩
  · rw [hpower']
    exact hhigh.trans_le (zpow_le_zpow_right₀ one_le_two (by omega))
  · intro he
    rw [hpower]
    exact le_trans (zpow_le_zpow_right₀ one_le_two (by omega)) hlow

/-- The bits of a fraction are put together from its scale and the nearest multiple. -/
theorem exists_bitsOfRatio {num den : ℕ} (hnum : 0 < num) (hden : 0 < den) :
    ∃ (e : ℤ) (q : ℕ), IsScale ((num : ℚ) / den) e ∧ IsNearestInt ((num : ℚ) / den / 2 ^ e) q ∧
      bitsOfRatio num den = min ((e + 1074).toNat * 2 ^ 52 + q) (2047 * 2 ^ 52) := by
  obtain ⟨hlow, hhigh⟩ := log2_bounds hnum hden
  rw [bitsOfRatio]
  generalize (num.log2 : ℤ) - den.log2 = guess at hlow hhigh ⊢
  have hbelow : (if guess < 0 then decide (num * Nat.pow 2 guess.natAbs < den)
      else decide (num < den * Nat.pow 2 guess.natAbs)) = true ↔ (num : ℚ) / den < 2 ^ guess := by
    rw [← lt_two_zpow_iff hden]
    split <;> exact decide_eq_true_iff
  generalize (if guess < 0 then decide (num * Nat.pow 2 guess.natAbs < den)
      else decide (num < den * Nat.pow 2 guess.natAbs)) = below at hbelow ⊢
  have hscale : IsScale ((num : ℚ) / den)
      (max ((if below = true then guess - 1 else guess) - 52) (-1074)) := by
    split
    · next h =>
      exact isScale_of_bounds hlow (by rw [sub_add_cancel]; exact hbelow.mp h)
    · next h => exact isScale_of_bounds (not_lt.mp (mt hbelow.mpr h)) hhigh
  refine ⟨_, _, hscale, ?_, rfl⟩
  generalize max ((if below = true then guess - 1 else guess) - 52) (-1074) = e
  rw [div_two_zpow]
  split
  · exact isNearestInt_halfToEven hden
  · exact isNearestInt_halfToEven (Nat.mul_pos hden (Nat.two_pow_pos _))

/-! ## What the bits stand for -/

/-- What stands for a number with a sign and a size: a finite double, or an infinite one if the size
is too large. -/
def Denotes (negative : Bool) (y : ℚ) : Parts → Prop
  | .nan => False
  | .infinite sign => sign = negative ∧ 2 ^ 1024 ≤ y
  | .finite sign m e => sign = negative ∧ (m : ℚ) * 2 ^ e = y ∧ y < 2 ^ 1024

/-- Sizes are not negative. -/
theorem Denotes.nonneg {negative : Bool} {y : ℚ} {p : Parts} (h : Denotes negative y p) : 0 ≤ y := by
  cases p with
  | nan => exact h.elim
  | infinite sign => exact le_trans (by positivity) h.2
  | finite sign m e =>
    obtain ⟨-, rfl, -⟩ := h
    positivity

/-- The bit of a sign. -/
def signBit (negative : Bool) : ℕ := if negative then 2 ^ 63 else 0

/-- A sign, eleven bits of exponent and 52 bits of fraction are read back. -/
theorem partsOfBits_add (negative : Bool) {power fraction : ℕ} (hpower : power < 2 ^ 11)
    (hfraction : fraction < 2 ^ 52) :
    partsOfBits (signBit negative + (power * 2 ^ 52 + fraction)) =
      if power = 2047 then if fraction = 0 then .infinite negative else .nan
      else if power = 0 then .finite negative fraction (-1074)
      else .finite negative (2 ^ 52 + fraction) ((power : ℤ) - 1075) := by
  have hsign : decide (Nat.pow 2 63 ≤ signBit negative + (power * 2 ^ 52 + fraction)) = negative := by
    cases negative with
    | false =>
      rw [decide_eq_false_iff_not, signBit, if_neg Bool.false_ne_true]
      simp only [Nat.pow_eq]
      omega
    | true =>
      rw [decide_eq_true_iff, signBit, if_pos rfl]
      simp only [Nat.pow_eq]
      omega
  have hbits : signBit negative = (if negative then 2 ^ 11 else 0) * 2 ^ 52 := by
    cases negative <;> rfl
  have hhigh : (signBit negative + (power * 2 ^ 52 + fraction)) / Nat.pow 2 52 % Nat.pow 2 11 =
      power := by
    rw [hbits]
    simp only [Nat.pow_eq]
    split <;> omega
  have hlow : (signBit negative + (power * 2 ^ 52 + fraction)) % Nat.pow 2 52 = fraction := by
    rw [hbits]
    simp only [Nat.pow_eq]
    split <;> omega
  rw [partsOfBits, hsign, hhigh, hlow]
  rfl

/-- The finite doubles end at `2 ^ 1024`. -/
theorem pow_1024 : (2 : ℚ) ^ 53 * 2 ^ (971 : ℤ) = 2 ^ 1024 := by
  rw [← zpow_natCast, ← zpow_natCast, ← zpow_add₀ two_ne_zero]
  norm_num

/-- Without a bit of exponent the fraction counts the smallest doubles. -/
theorem denotes_small (negative : Bool) {fraction : ℕ} (h : fraction < 2 ^ 52) :
    Denotes negative (fraction * 2 ^ (-1074 : ℤ)) (partsOfBits (signBit negative + fraction)) := by
  have hparts := partsOfBits_add negative (Nat.two_pow_pos 11) h
  rw [Nat.zero_mul, Nat.zero_add, if_neg (by decide), if_pos rfl] at hparts
  rw [hparts]
  refine ⟨rfl, rfl, ?_⟩
  have hlt : (fraction : ℚ) < 2 ^ 53 := by exact_mod_cast h.trans (by decide)
  calc (fraction : ℚ) * 2 ^ (-1074 : ℤ) < 2 ^ 53 * 2 ^ (-1074 : ℤ) :=
        mul_lt_mul_of_pos_right hlt (by positivity)
    _ ≤ 2 ^ 53 * 2 ^ (971 : ℤ) :=
        mul_le_mul_of_nonneg_left (zpow_le_zpow_right₀ one_le_two (by decide)) (by positivity)
    _ = 2 ^ 1024 := pow_1024

/-- With bits of exponent the fraction stands behind a digit one, and what is too large is cut off
at the infinite double. -/
theorem denotes_large (negative : Bool) {power fraction : ℕ} (hpower : 0 < power)
    (hfraction : fraction < 2 ^ 52) :
    Denotes negative ((2 ^ 52 + fraction : ℕ) * 2 ^ ((power : ℤ) - 1075))
      (partsOfBits (signBit negative + min (power * 2 ^ 52 + fraction) (2047 * 2 ^ 52))) := by
  rcases lt_or_ge power 2047 with hlt | hge
  · rw [min_eq_left (by omega), partsOfBits_add negative (by omega) hfraction, if_neg hlt.ne,
      if_neg hpower.ne']
    refine ⟨rfl, rfl, ?_⟩
    have hsignificand : ((2 ^ 52 + fraction : ℕ) : ℚ) < 2 ^ 53 := by
      exact_mod_cast (by omega : 2 ^ 52 + fraction < 2 ^ 53)
    calc ((2 ^ 52 + fraction : ℕ) : ℚ) * 2 ^ ((power : ℤ) - 1075)
        < 2 ^ 53 * 2 ^ ((power : ℤ) - 1075) := mul_lt_mul_of_pos_right hsignificand (by positivity)
      _ ≤ 2 ^ 53 * 2 ^ (971 : ℤ) :=
          mul_le_mul_of_nonneg_left (zpow_le_zpow_right₀ one_le_two (by omega)) (by positivity)
      _ = 2 ^ 1024 := pow_1024
  · have hparts := partsOfBits_add negative (show 2047 < 2 ^ 11 by decide) (Nat.two_pow_pos 52)
    rw [Nat.add_zero, if_pos rfl, if_pos rfl] at hparts
    rw [min_eq_right (by omega), hparts]
    refine ⟨rfl, ?_⟩
    have hsignificand : (2 : ℚ) ^ 52 ≤ (2 ^ 52 + fraction : ℕ) := by
      exact_mod_cast Nat.le_add_right _ _
    calc (2 : ℚ) ^ 1024 = 2 ^ 52 * 2 ^ (972 : ℤ) := by
          rw [← pow_1024, show (972 : ℤ) = 971 + 1 from rfl, zpow_add_one₀ two_ne_zero]
          ring
      _ ≤ 2 ^ 52 * 2 ^ ((power : ℤ) - 1075) :=
          mul_le_mul_of_nonneg_left (zpow_le_zpow_right₀ one_le_two (by omega)) (by positivity)
      _ ≤ (2 ^ 52 + fraction : ℕ) * 2 ^ ((power : ℤ) - 1075) :=
          mul_le_mul_of_nonneg_right hsignificand (by positivity)

/-- The nearest multiple has at most 53 digits, and 53 of them unless the scale is the smallest. -/
theorem IsScale.bounds {x : ℚ} {e : ℤ} {q : ℕ} (he : IsScale x e)
    (hq : IsNearestInt (x / 2 ^ e) q) : q ≤ 2 ^ 53 ∧ (-1074 < e → 2 ^ 52 ≤ q) := by
  have hpos : (0 : ℚ) < 2 ^ e := by positivity
  have hhalf := hq.half
  rw [Int.cast_natCast] at hhalf
  obtain ⟨hlow, hhigh⟩ := abs_le.mp (show |x / 2 ^ e - q| ≤ 1 / 2 by linarith)
  constructor
  · have hlt : x / 2 ^ e < 2 ^ 53 := (div_lt_iff₀ hpos).mpr he.lt
    have hq' : (q : ℚ) < 2 ^ 53 + 1 := by linarith
    exact Nat.lt_succ_iff.mp (by exact_mod_cast hq')
  · intro hleast
    have hle : 2 ^ 52 ≤ x / 2 ^ e := (le_div_iff₀ hpos).mpr (he.le hleast)
    have hq' : (2 : ℚ) ^ 52 < q + 1 := by linarith
    exact Nat.lt_succ_iff.mp (by exact_mod_cast hq')

/-- The bits that a scale and a nearest multiple are put together to stand for that multiple. -/
theorem denotes_partsOfBits (negative : Bool) {x : ℚ} {e : ℤ} {q : ℕ} (he : IsScale x e)
    (hq : IsNearestInt (x / 2 ^ e) q) :
    Denotes negative (q * 2 ^ e)
      (partsOfBits (signBit negative + min ((e + 1074).toNat * 2 ^ 52 + q) (2047 * 2 ^ 52))) := by
  obtain ⟨hle, hge⟩ := he.bounds hq
  have hleast := he.least
  rcases lt_or_ge q (2 ^ 52) with hsmall | hlarge
  · have heq : e = -1074 := le_antisymm (not_lt.mp fun h => absurd (hge h) (by omega)) hleast
    subst heq
    rw [min_eq_left (by omega)]
    simpa using denotes_small negative hsmall
  · rcases lt_or_eq_of_le hle with hlt | rfl
    · have hbits : (e + 1074).toNat * 2 ^ 52 + q =
          ((e + 1074).toNat + 1) * 2 ^ 52 + (q - 2 ^ 52) := by omega
      have hdenotes := denotes_large negative (Nat.succ_pos (e + 1074).toNat)
        (show q - 2 ^ 52 < 2 ^ 52 by omega)
      rw [Nat.add_sub_cancel' hlarge, show (((e + 1074).toNat.succ : ℕ) : ℤ) - 1075 = e by omega]
        at hdenotes
      rwa [hbits]
    · have hbits : (e + 1074).toNat * 2 ^ 52 + 2 ^ 53 = ((e + 1074).toNat + 2) * 2 ^ 52 + 0 := by
        omega
      have hdenotes := denotes_large negative (Nat.succ_pos ((e + 1074).toNat + 1))
        (Nat.two_pow_pos 52)
      rw [Nat.add_zero, show ((((e + 1074).toNat + 1).succ : ℕ) : ℤ) - 1075 = e + 1 by omega,
        zpow_add_one₀ two_ne_zero] at hdenotes
      rw [hbits]
      convert hdenotes using 1
      push_cast
      ring

/-! ## Doubles with given bits -/

section

open Float.Model.UnpackedFloat
open Float.Model (Format)

variable (sign : Sign) (power : BitVec 11) (fraction : BitVec 52)

/-- The negative of a double has the other sign bit. -/
theorem neg_unpack_packComponents :
    (unpack Format.binary64 (packComponents Format.binary64 sign power fraction)).neg =
      unpack Format.binary64 (packComponents Format.binary64 (-sign) power fraction) := by
  simp only [unpack, unpackExponent_packComponents, unpackMantissa_packComponents,
    unpackSign_packComponents, Sign.ofBitVec_toBitVec]
  split
  · split <;> rfl
  · split
    · split <;> rfl
    · rfl

/-- The number that the bits of a double are. -/
theorem toNat_packComponents : (packComponents Format.binary64 sign power fraction).toNat =
    sign.toBitVec.toNat * 2 ^ 63 + (power.toNat * 2 ^ 52 + fraction.toNat) := by
  rw [packComponents, BitVec.toNat_append, BitVec.toNat_append,
    ← Nat.shiftLeft_add_eq_or_of_lt power.isLt, ← Nat.shiftLeft_add_eq_or_of_lt fraction.isLt,
    Nat.shiftLeft_eq, Nat.shiftLeft_eq]
  omega

/-- The bits of a double that is a number or infinite are kept. -/
theorem pack_unpack_packComponents (h : power = -1#11 → fraction = 0) :
    (unpack Format.binary64 (packComponents Format.binary64 sign power fraction)).pack
      Format.binary64 = packComponents Format.binary64 sign power fraction := by
  rw [pack_unpack, if_neg]
  rw [isNaNBits, unpackExponent_packComponents, unpackMantissa_packComponents, decide_eq_true_iff]
  exact fun hnan => hnan.2 (h hnan.1)

end

/-- The bits of a double without the sign are put together from those of its power of two and
those of its fraction. -/
theorem exists_packComponents {bits : ℕ} (h : bits ≤ 2047 * 2 ^ 52) :
    ∃ (power : BitVec 11) (fraction : BitVec 52), (power = -1#11 → fraction = 0) ∧
      power.toNat * 2 ^ 52 + fraction.toNat = bits ∧
      bits.toUInt64.toBitVec =
        Float.Model.UnpackedFloat.packComponents .binary64 .positive power fraction := by
  have hpower : (BitVec.ofNat 11 (bits / 2 ^ 52)).toNat = bits / 2 ^ 52 := by
    rw [BitVec.toNat_ofNat]
    omega
  have hfraction : (BitVec.ofNat 52 (bits % 2 ^ 52)).toNat = bits % 2 ^ 52 := by
    rw [BitVec.toNat_ofNat]
    omega
  refine ⟨BitVec.ofNat 11 (bits / 2 ^ 52), BitVec.ofNat 52 (bits % 2 ^ 52), ?_, ?_, ?_⟩
  · intro hones
    have hpowerMax : bits / 2 ^ 52 = 2047 := by rw [← hpower, hones]; rfl
    refine BitVec.eq_of_toNat_eq ?_
    rw [hfraction]
    exact (by omega : bits % 2 ^ 52 = 0)
  · rw [hpower, hfraction]
    exact Nat.div_add_mod' bits (2 ^ 52)
  · refine BitVec.eq_of_toNat_eq ?_
    rw [toNat_packComponents, hpower, hfraction, UInt64.toNat_toBitVec,
      UInt64.toNat_ofNat_of_lt' (show bits < UInt64.size by rw [UInt64.size]; omega)]
    exact (by omega : bits = 0 * 2 ^ 63 + (bits / 2 ^ 52 * 2 ^ 52 + bits % 2 ^ 52))

/-- A double with given bits has them, and its negative has the other sign bit. -/
theorem toNat_toBits_signed (negative : Bool) {bits : ℕ} (h : bits ≤ 2047 * 2 ^ 52) :
    (Literal.signed negative (Float.ofBits bits.toUInt64)).toBits.toNat =
      signBit negative + bits := by
  obtain ⟨power, fraction, hnan, hsum, hword⟩ := exists_packComponents h
  have hbits : (Float.ofBits bits.toUInt64).toBits.toBitVec =
      Float.Model.UnpackedFloat.packComponents .binary64 .positive power fraction := by
    rw [← pack_unpack_packComponents .positive power fraction hnan, ← hword]
    rfl
  cases negative with
  | false =>
    have hnat := toNat_packComponents .positive power fraction
    rw [← hbits, hsum, UInt64.toNat_toBitVec] at hnat
    have hsign : Float.Model.UnpackedFloat.Sign.positive.toBitVec.toNat = 0 := rfl
    rw [Literal.signed, if_neg Bool.false_ne_true, hnat, hsign, Nat.zero_mul]
    rfl
  | true =>
    have hneg : (-Float.ofBits bits.toUInt64).toBits.toBitVec =
        Float.Model.UnpackedFloat.packComponents .binary64 .negative power fraction := by
      rw [← pack_unpack_packComponents .negative power fraction hnan]
      have hflip := neg_unpack_packComponents .positive power fraction
      rw [← hbits] at hflip
      exact congrArg (Float.Model.UnpackedFloat.pack .binary64) hflip
    have hnat := toNat_packComponents .negative power fraction
    rw [← hneg, hsum, UInt64.toNat_toBitVec] at hnat
    have hsign : Float.Model.UnpackedFloat.Sign.negative.toBitVec.toNat = 1 := rfl
    rw [Literal.signed, if_pos rfl, hnat, hsign, Nat.one_mul]
    rfl

/-- A zero with a sign stands for zero. -/
theorem denotes_signed_zero (negative : Bool) :
    Denotes negative 0 (parts (Literal.signed negative 0)) := by
  have hparts : parts (Literal.signed negative 0) = .finite negative 0 (-1074) := by
    cases negative <;> decide +kernel
  rw [hparts]
  exact ⟨rfl, by norm_num, by positivity⟩

/-- A positive fraction is rounded to the nearest double. -/
theorem exists_isNearest_ofRatio (negative : Bool) {num den : ℕ} (hnum : 0 < num) (hden : 0 < den) :
    ∃ y, IsNearest ((num : ℚ) / den) y ∧ 0 ≤ y ∧
      Denotes negative y (parts (Literal.signed negative (ofRatio num den))) := by
  obtain ⟨e, q, he, hq, hbits⟩ := exists_bitsOfRatio hnum hden
  have hle : bitsOfRatio num den ≤ 2047 * 2 ^ 52 := hbits ▸ min_le_right _ _
  refine ⟨q * 2 ^ e, ?_, by positivity, ?_⟩
  · exact isNearest_of_multiple he.least hq (Int.natCast_nonneg q)
      (by exact_mod_cast (he.bounds hq).1) he.le
  · rw [ofRatio, if_neg hnum.ne', parts, toNat_toBits_signed negative hle, hbits]
    exact denotes_partsOfBits negative he hq

end Number

end SolverPortfolio
