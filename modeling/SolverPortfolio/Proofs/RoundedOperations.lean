import SolverPortfolio.Proofs.Rounding

/-
# Operations on doubles without sign

The sum, the product and the quotient of two doubles without sign are the doubles nearest to the
exact results. What is computed with them is therefore monotone, and it is positive where the exact
result is not too small. A double is cut off to a whole number of 64 bits, and infinity stays
infinite.

Main statements: `Number.exists_isNearest_add`, `Number.exists_isNearest_mul`,
`Number.exists_isNearest_div`, `Number.toNat_toUInt64`, `Number.pos_of_denotes`.
-/

namespace SolverPortfolio

namespace Number

open Float.Model (UnpackedFloat Format totalExponent)
open Float.Model.UnpackedFloat

variable {x y : Float} {a b : ℚ}

/-! ## Operations -/

/-- The double that a result is rounded to stands for the nearest one. -/
theorem exists_denotes {v : ℚ} {parts' : UnpackedFloat}
    (h : ∃ c, IsNearest v c ∧ RoundsTo .positive c parts')
    (hx : x.toBits.toBitVec = pack Format.binary64 parts') :
    ∃ c, IsNearest v c ∧ Denotes false c (parts x) := by
  obtain ⟨c, hc, hrounds⟩ := h
  exact ⟨c, hc, hrounds.denotes hx⟩

/-- A zero without sign is neutral. -/
theorem zero_add_of_parts {n : ℕ} {e f : ℤ} (hx : parts x = .finite false 0 e)
    (hy : parts y = .finite false n f) : x + y = y ∧ y + x = y := by
  have hadd (u v : Float) : (u + v).toBits.toBitVec = pack Format.binary64
      (UnpackedFloat.add Format.binary64 u.toModel.unpack v.toModel.unpack) := rfl
  have hxzero : x.toModel.unpack = .zero .positive := by
    rcases unpack_of_parts hx with ⟨-, hzero⟩ | ⟨hpos, -⟩
    · exact hzero
    · exact absurd hpos (lt_irrefl _)
  rcases unpack_of_parts hy with ⟨-, hy⟩ | ⟨hn, hy⟩
  all_goals
    refine ⟨eq_of_pack_unpack ((hadd x y).trans (congrArg _ ?_)),
      eq_of_pack_unpack ((hadd y x).trans (congrArg _ ?_))⟩
    all_goals
      rw [hxzero, hy]
      rfl

/-- The sum of two doubles without sign is the double nearest to the exact sum. -/
theorem exists_isNearest_add (hx : Denotes false a (parts x)) (hy : Denotes false b (parts y))
    (ha : a < 2 ^ 1024) (hb : b < 2 ^ 1024) :
    ∃ c, IsNearest (a + b) c ∧ Denotes false c (parts (x + y)) := by
  obtain ⟨m, e, hxparts, rfl⟩ := exists_parts_of_denotes ha hx
  obtain ⟨n, f, hyparts, rfl⟩ := exists_parts_of_denotes hb hy
  rcases unpack_of_parts hxparts with ⟨rfl, -⟩ | ⟨hm, hxfinite⟩
  · rw [Nat.cast_zero, zero_mul, zero_add, (zero_add_of_parts hxparts hyparts).1]
    exact ⟨_, isNearest_self (level_of_parts hyparts).1.isRounded.isDouble, hy⟩
  rcases unpack_of_parts hyparts with ⟨rfl, -⟩ | ⟨hn, hyfinite⟩
  · rw [Nat.cast_zero, zero_mul, add_zero, (zero_add_of_parts hyparts hxparts).2]
    exact ⟨_, isNearest_self (level_of_parts hxparts).1.isRounded.isDouble, hx⟩
  obtain ⟨g, hg⟩ : ∃ g, min e f = g := ⟨_, rfl⟩
  obtain ⟨k, hk⟩ : ∃ k, (decreaseExponent m e g).1 + (decreaseExponent n f g).1 = k := ⟨_, rfl⟩
  have hsum : (m : ℚ) * 2 ^ e + n * 2 ^ f = k * 2 ^ g := by
    rw [← decreaseExponent_mul m (show g ≤ e by omega),
      ← decreaseExponent_mul n (show g ≤ f by omega), ← hk]
    push_cast
    ring
  have hkpos : 0 < k := by
    have hpos : (0 : ℚ) < k * 2 ^ g := hsum ▸ by positivity
    exact_mod_cast (pos_iff_pos_of_mul_pos hpos).mpr (by positivity)
  have hadd : (x + y).toBits.toBitVec = pack Format.binary64
      (UnpackedFloat.round Format.binary64 .positive k g) := by
    have hxy : (x + y).toBits.toBitVec = pack Format.binary64
        (UnpackedFloat.add Format.binary64 x.toModel.unpack y.toModel.unpack) := rfl
    rw [← normalize_apply .positive hkpos, ← hk, ← hg, hxy, hxfinite, hyfinite]
    rfl
  rw [hsum]
  exact exists_denotes (round_roundsTo hkpos g .positive) hadd

/-- The product of two doubles without sign is the double nearest to the exact product. -/
theorem exists_isNearest_mul (hx : Denotes false a (parts x)) (hy : Denotes false b (parts y))
    (ha : a < 2 ^ 1024) (hb : b < 2 ^ 1024) :
    ∃ c, IsNearest (a * b) c ∧ Denotes false c (parts (x * y)) := by
  obtain ⟨m, e, hxparts, rfl⟩ := exists_parts_of_denotes ha hx
  obtain ⟨n, f, hyparts, rfl⟩ := exists_parts_of_denotes hb hy
  have hmul : (x * y).toBits.toBitVec = pack Format.binary64
      (UnpackedFloat.mul Format.binary64 x.toModel.unpack y.toModel.unpack) := rfl
  rcases unpack_of_parts hxparts with ⟨rfl, hxzero⟩ | ⟨hm, hxfinite⟩
  · rw [Nat.cast_zero, zero_mul, zero_mul]
    refine ⟨0, isNearest_zero, denotes_of_pack_zero (hmul.trans ?_)⟩
    rw [hxzero]
    rcases unpack_of_parts hyparts with ⟨-, hyzero⟩ | ⟨hn, hyfinite⟩
    · rw [hyzero]
      rfl
    · rw [hyfinite]
      rfl
  · rcases unpack_of_parts hyparts with ⟨rfl, hyzero⟩ | ⟨hn, hyfinite⟩
    · rw [Nat.cast_zero, zero_mul, mul_zero]
      refine ⟨0, isNearest_zero, denotes_of_pack_zero (hmul.trans ?_)⟩
      rw [hxfinite, hyzero]
      rfl
    · rw [hxfinite, hyfinite] at hmul
      have hdigits : (m : ℚ) * 2 ^ e * (n * 2 ^ f) / 2 ^ (e + f) = (m * n : ℕ) := by
        rw [zpow_add₀ two_ne_zero]
        push_cast
        field_simp
      refine exists_denotes (roundWithAccuracy_roundsTo
        (hdigits ▸ approximates_exact (m * n)) ?_ .positive) hmul
      obtain ⟨-, heleast, hmfull⟩ := (level_of_parts hxparts).1.isRounded
      obtain ⟨-, hfleast, hnfull⟩ := (level_of_parts hyparts).1.isRounded
      have hlog (h : 2 ^ 52 ≤ m * n) : 52 ≤ (m * n).log2 :=
        (Nat.le_log2 (Nat.mul_pos hm hn).ne').mpr h
      rcases heleast.lt_or_eq with he | he
      · have := hlog ((hmfull he).trans (Nat.le_mul_of_pos_right m hn))
        omega
      · rcases hfleast.lt_or_eq with hf | hf
        · have := hlog ((hnfull hf).trans (Nat.le_mul_of_pos_left n hm))
          omega
        · omega

/-- The quotient of two doubles without sign is the double nearest to the exact quotient. -/
theorem exists_isNearest_div (hx : Denotes false a (parts x)) (hy : Denotes false b (parts y))
    (ha : a < 2 ^ 1024) (hb : b < 2 ^ 1024) (hpos : 0 < b) :
    ∃ c, IsNearest (a / b) c ∧ Denotes false c (parts (x / y)) := by
  obtain ⟨m, e, hxparts, rfl⟩ := exists_parts_of_denotes ha hx
  obtain ⟨n, f, hyparts, rfl⟩ := exists_parts_of_denotes hb hy
  have hdiv : (x / y).toBits.toBitVec = pack Format.binary64
      (UnpackedFloat.div Format.binary64 x.toModel.unpack y.toModel.unpack) := rfl
  rcases unpack_of_parts hyparts with ⟨rfl, -⟩ | ⟨hn, hyfinite⟩
  · rw [Nat.cast_zero, zero_mul] at hpos
    exact absurd hpos (lt_irrefl _)
  rcases unpack_of_parts hxparts with ⟨rfl, hxzero⟩ | ⟨hm, hxfinite⟩
  · rw [Nat.cast_zero, zero_mul, zero_div]
    refine ⟨0, isNearest_zero, denotes_of_pack_zero (hdiv.trans ?_)⟩
    rw [hxzero, hyfinite]
    rfl
  · rw [hxfinite, hyfinite] at hdiv
    obtain ⟨t, ht⟩ : ∃ t, min (e - f) (max ((m.log2 : ℤ) + e - (n.log2 + f) - 53) (-1074)) = t :=
      ⟨_, rfl⟩
    have htarget : min (e - f) (Format.binary64.targetExponent
        (totalExponent m e - totalExponent n f)) = t := by
      have hmin : Format.binary64.minExponent = -1074 := by decide
      have hbits : (Format.binary64.mantissaBits : ℤ) = 53 := by decide
      rw [← ht, Format.targetExponent, totalExponent, totalExponent, hmin, hbits]
      congr 2
      omega
    obtain ⟨k, hk⟩ : ∃ k, (e - f - t).toNat = k := ⟨_, rfl⟩
    have hk' : (k : ℤ) = e - f - t := by omega
    have hquotient : UnpackedFloat.div Format.binary64 (.finite .positive m e hm)
        (.finite .positive n f hn) = roundWithAccuracy Format.binary64 .positive
          (m * 2 ^ k / n) t (accuracyOfFraction (m * 2 ^ k % n) n) := by
      have hcore : divCore Format.binary64 m e n f =
          (m * 2 ^ k / n, t, accuracyOfFraction (m * 2 ^ k % n) n) := by
        simp only [divCore, htarget, hk, Nat.shiftLeft_eq]
      simp only [UnpackedFloat.div, hcore]
      rfl
    have hdigits : (m : ℚ) * 2 ^ e / (n * 2 ^ f) / 2 ^ t = (m * 2 ^ k : ℕ) / n := by
      have hsplit : (2 : ℚ) ^ e = 2 ^ k * 2 ^ f * 2 ^ t := by
        rw [← zpow_natCast, hk', ← zpow_add₀ two_ne_zero, ← zpow_add₀ two_ne_zero]
        congr 1
        omega
      rw [hsplit]
      push_cast
      field_simp
    refine exists_denotes (roundWithAccuracy_roundsTo (hdigits ▸ approximates_div _ hn) ?_ .positive)
      (hdiv.trans (congrArg _ hquotient))
    rcases le_or_gt t (-1074) with hsmall | hlarge
    · exact le_max_of_le_right hsmall
    · -- The quotient has no fewer than 53 digits.
      have hfull : 2 ^ 52 ≤ m * 2 ^ k / n := by
        rw [Nat.le_div_iff_mul_le hn]
        calc 2 ^ 52 * n ≤ 2 ^ 52 * 2 ^ (n.log2 + 1) :=
              Nat.mul_le_mul_left _ Nat.lt_log2_self.le
          _ = 2 ^ (53 + n.log2) := by ring
          _ ≤ 2 ^ (m.log2 + k) := Nat.pow_le_pow_right two_pos (by omega)
          _ = 2 ^ m.log2 * 2 ^ k := pow_add _ _ _
          _ ≤ m * 2 ^ k := Nat.mul_le_mul_right _ (Nat.log2_self_le hm.ne')
      have hlog := (Nat.le_log2 ((Nat.two_pow_pos 52).trans_le hfull).ne').mpr hfull
      omega

/-! ## Whole numbers and the cases of doubles -/

/-- Whole numbers are rounded to doubles without sign. -/
theorem exists_denotes_ofNat (n : ℕ) :
    ∃ y, IsNearest n y ∧ Denotes false y (parts (ofRatio n 1)) := by
  rcases Nat.eq_zero_or_pos n with rfl | hpos
  · rw [Nat.cast_zero, ofRatio, if_pos rfl]
    exact ⟨0, isNearest_zero, denotes_signed_zero false⟩
  · obtain ⟨y, hy, -, hdenotes⟩ := exists_isNearest_ofRatio false hpos one_pos
    rw [Nat.cast_one, div_one] at hy
    rw [Literal.signed, if_neg Bool.false_ne_true] at hdenotes
    exact ⟨y, hy, hdenotes⟩

/-- Whole numbers between powers of two are rounded to doubles between them. -/
theorem exists_denotes_between {n i j : ℕ} (hlow : 2 ^ i ≤ n) (hhigh : n ≤ 2 ^ j) :
    ∃ y, Denotes false y (parts (ofRatio n 1)) ∧ 2 ^ i ≤ y ∧ y ≤ 2 ^ j := by
  obtain ⟨y, hy, hy'⟩ := exists_denotes_ofNat n
  exact ⟨y, hy', hy.ge_of_ge (isDouble_two_pow i) (by exact_mod_cast hlow),
    hy.le_of_le (isDouble_two_pow j) (by exact_mod_cast hhigh)⟩

/-- Numbers of a moderate size are not too large for a double. -/
theorem lt_two_pow_1024 {n : ℕ} (h : a ≤ 2 ^ n) (hn : n < 1024) : a < 2 ^ 1024 :=
  h.trans_lt (pow_lt_pow_right₀ one_lt_two hn)

/-- A double is undefined, infinite, has a negative sign, is zero or stands for a number. -/
theorem unpack_cases (x : Float) :
    x.toModel.unpack = .notANumber ∨ (∃ s, x.toModel.unpack = .zero s) ∨ x < 0 ∨
      x.toModel.unpack = .infinity .positive ∨ ∃ a, Denotes false a (parts x) ∧ a < 2 ^ 1024 := by
  by_cases hx : x.isNaN = false
  · obtain ⟨hordered, hlevel⟩ := isOrdered_of_isNaN hx
    have hzero : level 0 = 0 := rfl
    cases hunpack : x.toModel.unpack with
    | notANumber => exact Or.inl rfl
    | zero s => exact Or.inr (Or.inl ⟨s, rfl⟩)
    | infinity s =>
      cases s with
      | positive => exact Or.inr (Or.inr (Or.inr (Or.inl rfl)))
      | negative =>
        rw [hunpack] at hlevel
        refine Or.inr (Or.inr (Or.inl ((lt_iff hx rfl).mpr ?_)))
        rw [← hlevel, hzero]
        decide
    | finite s m e hpos =>
      rw [hunpack] at hordered hlevel
      cases hordered with
      | finite s hpos hplaced =>
        cases s with
        | positive =>
          have hpack := (pack_unpack_of_valid x.toModel.valid).symm.trans
            (congrArg (pack Format.binary64) hunpack)
          exact Or.inr (Or.inr (Or.inr (Or.inr ⟨_,
            denotes_of_pack_finite hplaced.isRounded hpos hpack, hplaced.value_lt⟩)))
        | negative =>
          obtain ⟨hlow, -⟩ := hplaced.bounds hpos
          refine Or.inr (Or.inr (Or.inl ((lt_iff hx rfl).mpr ?_)))
          rw [← hlevel, hzero, partsLevel]
          simp only [UnpackedFloat.Sign.apply]
          omega
  · exact Or.inl (unpack_of_isNaN hx)

/-- Whole numbers are cut off from doubles, up to the largest one of 64 bits. -/
theorem toNat_toUInt64 (hx : Denotes false a (parts x)) (ha : a < 2 ^ 1024) :
    x.toUInt64.toNat = min ⌊a⌋₊ (2 ^ 64 - 1) := by
  obtain ⟨m, e, hxparts, rfl⟩ := exists_parts_of_denotes ha hx
  have hword : x.toUInt64 =
    UInt64.ofNatClamp (UnpackedFloat.toInt 0 (UInt64.size - 1) x.toModel.unpack).toNat := rfl
  have hclamp (n : ℕ) : (UInt64.ofNatClamp n).toNat = min n (2 ^ 64 - 1) := by
    unfold UInt64.ofNatClamp
    split
    · next hlt =>
      rw [UInt64.toNat_ofNatLT]
      exact (min_eq_left (Nat.le_sub_one_of_lt hlt)).symm
    · next hge =>
      rw [min_eq_right (by rw [UInt64.size] at hge; omega)]
      rfl
  rw [hword, hclamp]
  congr 1
  rcases unpack_of_parts hxparts with ⟨rfl, hzero⟩ | ⟨hm, hfinite⟩
  · rw [hzero, Nat.cast_zero, zero_mul, Nat.floor_zero]
    rfl
  · have hcut : (UnpackedFloat.toInt 0 (UInt64.size - 1) (.finite .positive m e hm)).toNat =
        m * 2 ^ e.toNat / 2 ^ (-e).toNat := by
      simp only [UnpackedFloat.toInt, roundToInt, decreaseExponent, shiftToExponent,
        mantissa_shiftRight]
      rw [UnpackedFloat.Sign.apply, Int.toNat_natCast, ExtendedMantissa.ofMantissaAndAccuracy,
        Nat.shiftLeft_eq, sub_zero]
      congr 2
      omega
    rw [hfinite, hcut]
    have hvalue : (m : ℚ) * 2 ^ e = (m * 2 ^ e.toNat : ℕ) / (2 ^ (-e).toNat : ℕ) := by
      have hsplit : e = (e.toNat : ℤ) - (-e).toNat := by omega
      conv_lhs => rw [hsplit, zpow_sub₀ two_ne_zero, zpow_natCast, zpow_natCast]
      push_cast
      ring
    rw [hvalue, Nat.floor_div_natCast, Nat.floor_natCast]

/-! ## Infinity -/

/-- The parts of infinity. -/
theorem unpack_infinity : (1 / 0 : Float).toModel.unpack = .infinity .positive := by
  have hbits : (1 / 0 : Float).toBits.toBitVec = pack Format.binary64 (.infinity .positive) := by
    decide +kernel
  exact (congrArg (UnpackedFloat.unpack Format.binary64) hbits).trans rfl

/-- What stands for a number that is too large is infinite. -/
theorem eq_infinity_of_denotes (hx : Denotes false a (parts x)) (ha : 2 ^ 1024 ≤ a) :
    x = 1 / 0 := by
  cases hparts : parts x with
  | nan =>
    rw [hparts] at hx
    exact hx.elim
  | finite sign m e =>
    rw [hparts] at hx
    exact absurd hx.2.2 (not_lt.mpr ha)
  | infinite sign =>
    rw [hparts] at hx
    obtain rfl : sign = false := hx.1
    have hbits : x.toBits.toNat < 2 ^ 64 := x.toBits.toNat_lt
    have hnat : x.toBits.toNat = 2047 * 2 ^ 52 := by
      rw [parts, partsOfBits] at hparts
      simp only [Nat.pow_eq] at hparts
      generalize x.toBits.toNat = bits at hparts hbits ⊢
      split at hparts
      · split at hparts
        · have hsign : bits < 2 ^ 63 := by simpa using hparts
          omega
        · cases hparts
      · split at hparts <;> cases hparts
    have htop : (1 / 0 : Float).toBits.toNat = 2047 * 2 ^ 52 := by decide +kernel
    exact eq_of_toBits (BitVec.eq_of_toNat_eq (hnat.trans htop.symm))

/-- Infinity stays infinite when a number is added to it. -/
theorem infinity_add (hy : Denotes false b (parts y)) (hb : b < 2 ^ 1024) :
    1 / 0 + y = (1 / 0 : Float) := by
  obtain ⟨m, e, hparts, -⟩ := exists_parts_of_denotes hb hy
  have hadd : (1 / 0 + y : Float).toBits.toBitVec = pack Format.binary64
      (UnpackedFloat.add Format.binary64 (1 / 0 : Float).toModel.unpack y.toModel.unpack) := rfl
  refine eq_of_pack_unpack (hadd.trans (congrArg _ ?_))
  rw [unpack_infinity]
  rcases unpack_of_parts hparts with ⟨-, hy⟩ | ⟨hpos, hy⟩
  all_goals
    rw [hy]
    rfl

/-- Infinity stays infinite when it is divided by a positive number. -/
theorem infinity_div (hy : Denotes false b (parts y)) (hb : b < 2 ^ 1024) (hpos : 0 < b) :
    1 / 0 / y = (1 / 0 : Float) := by
  obtain ⟨m, e, hparts, rfl⟩ := exists_parts_of_denotes hb hy
  have hdiv : (1 / 0 / y : Float).toBits.toBitVec = pack Format.binary64
      (UnpackedFloat.div Format.binary64 (1 / 0 : Float).toModel.unpack y.toModel.unpack) := rfl
  refine eq_of_pack_unpack (hdiv.trans (congrArg _ ?_))
  rw [unpack_infinity]
  rcases unpack_of_parts hparts with ⟨rfl, -⟩ | ⟨hm, hy⟩
  · rw [Nat.cast_zero, zero_mul] at hpos
    exact absurd hpos (lt_irrefl _)
  · rw [hy]
    rfl

/-- Infinity is positive. -/
theorem infinity_pos : (0 : Float) < 1 / 0 := by decide +kernel

/-- What stands for a positive number is positive. -/
theorem pos_of_denotes (hx : Denotes false a (parts x)) (ha : 0 < a) : 0 < x := by
  rcases lt_or_ge a (2 ^ 1024) with hlt | hge
  · exact (lt_iff_of_denotes (denotes_signed_zero false) hx (by norm_num) hlt).mpr ha
  · rw [eq_infinity_of_denotes hx hge]
    exact infinity_pos

end Number

end SolverPortfolio
