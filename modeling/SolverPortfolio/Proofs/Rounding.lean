import SolverPortfolio.Proofs.DoubleOrder
import SolverPortfolio.Proofs.DroppedDigits

/-
# Rounded numbers

The operations on doubles compute a result with digits enough, round it to 53 digits and store it in
64 bits. The rounded number is the double nearest to the exact result, and the bits stored stand for
it. Rounding leaves the sign of a result as it is, and no result other than zero is rounded to zero
if it is a multiple of the least double.

Main definitions: `Number.IsRounded`, `Number.RoundsTo`.
Main statements: `Number.roundWithAccuracy_roundsTo`, `Number.round_roundsTo`,
`Number.denotes_of_pack_finite`, `Number.eq_of_denotes`.
-/

namespace SolverPortfolio

namespace Number

open Float.Model (UnpackedFloat Format totalExponent)
open Float.Model.UnpackedFloat

/-! ## Rounding -/

/-- The significands and powers of two of rounded numbers, however large they are. -/
structure IsRounded (m : ℕ) (e : ℤ) : Prop where
  lt : m < 2 ^ 53
  least : -1074 ≤ e
  full : -1074 < e → 2 ^ 52 ≤ m

theorem IsPlaced.isRounded {m : ℕ} {e : ℤ} (h : IsPlaced m e) : IsRounded m e :=
  ⟨h.lt, h.least, h.full⟩

/-- A rounded number is a double. -/
theorem IsRounded.isDouble {m : ℕ} {e : ℤ} (h : IsRounded m e) : IsDouble (m * 2 ^ e) :=
  ⟨m, e, by rw [Nat.abs_cast]; exact_mod_cast h.lt, h.least, rfl⟩

/-- Fewer than 53 digits end with the last possible one. -/
theorem IsRounded.eq_of_lt {m : ℕ} {e : ℤ} (h : IsRounded m e) (hlt : m < 2 ^ 52) : e = -1074 := by
  by_contra hne
  have hfull := h.full (lt_of_le_of_ne h.least (Ne.symm hne))
  omega

/-- The power of two that a number is rounded to a multiple of. -/
theorem targetExponent_eq (m : ℕ) (e : ℤ) :
    Format.binary64.targetExponent (totalExponent m e) = max (m.log2 + e - 52) (-1074) := by
  have hmin : Format.binary64.minExponent = -1074 := by decide
  have hbits : (Format.binary64.mantissaBits : ℤ) = 53 := by decide
  rw [Format.targetExponent, totalExponent, hmin, hbits]
  congr 1
  omega

/-- A rounded number is a multiple of its power of two already. -/
theorem IsRounded.target {m : ℕ} {e : ℤ} (h : IsRounded m e) (hpos : 0 < m) :
    max ((m.log2 : ℤ) + e - 52) (-1074) = e := by
  obtain ⟨hlt, hleast, hfull⟩ := h
  have hlog : m.log2 < 53 := (Nat.log2_lt hpos.ne').mpr hlt
  rcases hleast.lt_or_eq with he | he
  · have hlog' : 52 ≤ m.log2 := (Nat.le_log2 hpos.ne').mpr (hfull he)
    omega
  · omega

/-- Digits zero are dropped without loss. -/
theorem shiftRight_mul_two_pow (m n : ℕ) :
    ExtendedMantissa.ofMantissaAndAccuracy (m * 2 ^ n) .exact >>> n =
      ExtendedMantissa.ofMantissaAndAccuracy m .exact := by
  change n.repeat ExtendedMantissa.shiftRightOne _ = _
  induction n generalizing m with
  | zero => rw [pow_zero, mul_one]; rfl
  | succ n ih =>
    rw [Nat.repeat, pow_succ', ← mul_assoc, ih]
    simp [ExtendedMantissa.ofMantissaAndAccuracy, ExtendedMantissa.shiftRightOne]

/-- The significand that remains when digits are dropped. -/
theorem mantissa_shiftRight (em : ExtendedMantissa) (n : ℕ) :
    (em >>> n).mantissa = em.mantissa / 2 ^ n := by
  change (n.repeat ExtendedMantissa.shiftRightOne em).mantissa = _
  induction n with
  | zero => rw [pow_zero, Nat.div_one]; rfl
  | succ n ih =>
    rw [Nat.repeat, pow_succ, ← Nat.div_div_eq_div_mul, ← ih]
    rfl

/-- A number is shifted to the power of two that it is rounded to a multiple of. -/
theorem shiftToTargetExponent_eq {m : ℕ} {e t : ℤ} {accuracy : Accuracy}
    (h : max ((m.log2 : ℤ) + e - 52) (-1074) = t) (hle : e ≤ t) : shiftToTargetExponent Format.binary64 m e accuracy =
      (ExtendedMantissa.ofMantissaAndAccuracy m accuracy >>> (t - e).toNat, t) := by
  rw [shiftToTargetExponent, targetExponent_eq, h, shiftToExponent,
    Int.toNat_of_nonneg (sub_nonneg.mpr hle), add_sub_cancel]

/-- A rounded number is shifted no more. -/
theorem IsRounded.shift {m : ℕ} {e : ℤ} (h : IsRounded m e) (hpos : 0 < m) :
    shiftToTargetExponent Format.binary64 m e .exact =
      (ExtendedMantissa.ofMantissaAndAccuracy m .exact, e) := by
  rw [shiftToTargetExponent_eq (h.target hpos) le_rfl, sub_self]
  rfl

/-- Digits zero that are dropped do not count in the logarithm. -/
theorem log2_mul_two_pow {m : ℕ} (hpos : 0 < m) (n : ℕ) : (m * 2 ^ n).log2 = m.log2 + n := by
  rw [Nat.log2_eq_iff (Nat.mul_pos hpos (Nat.two_pow_pos n)).ne']
  have hlow := Nat.log2_self_le hpos.ne'
  have hhigh := Nat.lt_log2_self (n := m)
  constructor
  · rw [pow_add]
    exact Nat.mul_le_mul_right _ hlow
  · rw [add_right_comm, pow_add]
    exact Nat.mul_lt_mul_of_pos_right hhigh (Nat.two_pow_pos n)

/-- Of two equal numbers the one with the larger power of two has fewer digits by the difference. -/
theorem mul_two_pow_eq {k m : ℕ} {f e : ℤ} (heq : (k : ℚ) * 2 ^ f = m * 2 ^ e) (hle : e ≤ f) :
    k * 2 ^ (f - e).toNat = m := by
  have hsplit : (2 : ℚ) ^ f = 2 ^ (f - e).toNat * 2 ^ e := by
    rw [← zpow_natCast, Int.toNat_of_nonneg (sub_nonneg.mpr hle), ← zpow_add₀ two_ne_zero,
      sub_add_cancel]
  rw [hsplit, ← mul_assoc] at heq
  exact_mod_cast mul_right_cancel₀ (by positivity : (2 : ℚ) ^ e ≠ 0) heq

/-- A number with too few digits is rounded with zeros behind them. -/
theorem round_eq (s : UnpackedFloat.Sign) {k : ℕ} {f t : ℤ}
    (ht : max ((k.log2 : ℤ) + f - 52) (-1074) = t) :
    UnpackedFloat.round Format.binary64 s k f =
      roundWithAccuracy Format.binary64 s (k * 2 ^ (f - t).toNat) (f - (f - t).toNat) .exact := by
  unfold UnpackedFloat.round
  rw [targetExponent_eq, ht, ← Nat.shiftLeft_eq]
  rfl

/-- What a number is rounded to: zero, or a rounded number, with the sign that is given. -/
inductive RoundsTo (s : UnpackedFloat.Sign) : ℚ → UnpackedFloat → Prop where
  | zero : RoundsTo s 0 (.zero s)
  | finite {m : ℕ} {e : ℤ} (h : IsRounded m e) (hpos : 0 < m) :
      RoundsTo s (m * 2 ^ e) (.finite s m e hpos)

/-- Rounded digits are brought to 53 of them, where they are more. -/
theorem roundsTo_of_shift {m : ℕ} {e t : ℤ} {accuracy : Accuracy} {em : ExtendedMantissa}
    (hshift : shiftToTargetExponent Format.binary64 m e accuracy = (em, t)) (hleast : -1074 ≤ t)
    (hle : em.roundedMantissa ≤ 2 ^ 53) (hfull : -1074 < t → 2 ^ 52 ≤ em.roundedMantissa)
    (s : UnpackedFloat.Sign) :
    RoundsTo s (em.roundedMantissa * 2 ^ t) (roundWithAccuracy Format.binary64 s m e accuracy) := by
  unfold UnpackedFloat.roundWithAccuracy
  simp only [hshift]
  rcases Nat.eq_zero_or_pos em.roundedMantissa with hzero | hpos
  · have hnothing :
        (shiftToTargetExponent Format.binary64 em.roundedMantissa t .exact).1.mantissa = 0 := by
      rw [hzero, shiftToTargetExponent, shiftToExponent, mantissa_shiftRight]
      exact Nat.zero_div _
    rw [dif_pos hnothing, hzero, Nat.cast_zero, zero_mul]
    exact .zero
  · rcases lt_or_eq_of_le hle with hlt | heq
    · have hrounded : IsRounded em.roundedMantissa t := ⟨hlt, hleast, hfull⟩
      simp only [hrounded.shift hpos]
      exact dif_neg hpos.ne' ▸ .finite hrounded hpos
    · -- Rounding up has led to the next power of two.
      have hcarry : em.roundedMantissa = 2 ^ 52 * 2 ^ 1 := heq
      have hrounded : IsRounded (2 ^ 52) (t + 1) := ⟨by norm_num, by omega, fun _ => le_rfl⟩
      have hlog : (2 ^ 52 * 2 ^ 1).log2 = 53 := by decide
      have hshift' : shiftToTargetExponent Format.binary64 (2 ^ 52 * 2 ^ 1) t .exact =
          (ExtendedMantissa.ofMantissaAndAccuracy (2 ^ 52) .exact, t + 1) := by
        rw [shiftToTargetExponent_eq (t := t + 1) (by rw [hlog]; omega) (by omega),
          add_sub_cancel_left, Int.toNat_one, shiftRight_mul_two_pow]
      have hvalue : ((2 ^ 52 * 2 ^ 1 : ℕ) : ℚ) * 2 ^ t = (2 ^ 52 : ℕ) * 2 ^ (t + 1) := by
        rw [zpow_add_one₀ two_ne_zero]
        push_cast
        ring
      simp only [hcarry, hshift']
      rw [hvalue]
      exact dif_neg (Nat.two_pow_pos 52).ne' ▸ .finite hrounded (Nat.two_pow_pos 52)

/-- The scale of a number is told by its digits. -/
theorem isScale_of_approximates {v : ℚ} {m : ℕ} {e t : ℤ} {accuracy : Accuracy}
    (h : Approximates (.ofMantissaAndAccuracy m accuracy) (v / 2 ^ e))
    (ht : max ((m.log2 : ℤ) + e - 52) (-1074) = t) (hle : e ≤ t) : IsScale v t := by
  have hunit : (0 : ℚ) < 2 ^ e := by positivity
  have hmantissa : (ExtendedMantissa.ofMantissaAndAccuracy m accuracy).mantissa = m := by
    cases accuracy with
    | exact => rfl
    | inexact order => cases order <;> rfl
  obtain ⟨hlow, hhigh, -, -⟩ := h
  rw [hmantissa, le_div_iff₀ hunit] at hlow
  rw [hmantissa, div_lt_iff₀ hunit] at hhigh
  rcases Nat.eq_zero_or_pos m with rfl | hpos
  · -- The number is less than the power of two, which is the least one.
    rw [Nat.log2_zero] at ht
    obtain rfl : t = -1074 := by omega
    rw [Nat.cast_zero, zero_add, one_mul] at hhigh
    refine ⟨le_rfl, ?_, fun h => absurd h (lt_irrefl _)⟩
    calc v < 2 ^ e := hhigh
      _ ≤ 2 ^ (-1074 : ℤ) := zpow_le_zpow_right₀ one_le_two hle
      _ ≤ 2 ^ 53 * 2 ^ (-1074 : ℤ) := le_mul_of_one_le_left (by positivity) (by norm_num)
  · rw [← ht]
    have hlogLow : (2 : ℚ) ^ (m.log2 : ℤ) ≤ m := by exact_mod_cast Nat.log2_self_le hpos.ne'
    have hlogHigh : (m : ℚ) + 1 ≤ 2 ^ ((m.log2 : ℤ) + 1) := by
      exact_mod_cast Nat.lt_log2_self (n := m)
    refine isScale_of_bounds ?_ ?_
    · rw [zpow_add₀ two_ne_zero]
      exact (mul_le_mul_of_nonneg_right hlogLow hunit.le).trans hlow
    · rw [add_right_comm, zpow_add₀ two_ne_zero]
      exact hhigh.trans_le (mul_le_mul_of_nonneg_right hlogHigh hunit.le)

/-- What has digits enough is rounded to the nearest double. -/
theorem roundWithAccuracy_roundsTo {v : ℚ} {m : ℕ} {e : ℤ} {accuracy : Accuracy}
    (h : Approximates (.ofMantissaAndAccuracy m accuracy) (v / 2 ^ e))
    (hle : e ≤ max ((m.log2 : ℤ) + e - 52) (-1074)) (s : UnpackedFloat.Sign) :
    ∃ y, IsNearest v y ∧ RoundsTo s y (roundWithAccuracy Format.binary64 s m e accuracy) := by
  obtain ⟨t, ht⟩ : ∃ t, max ((m.log2 : ℤ) + e - 52) (-1074) = t := ⟨_, rfl⟩
  rw [ht] at hle
  have hscale := isScale_of_approximates h ht hle
  have hunits : v / 2 ^ e / 2 ^ (t - e).toNat = v / 2 ^ t := by
    rw [div_div, ← zpow_natCast, Int.toNat_of_nonneg (sub_nonneg.mpr hle),
      ← zpow_add₀ two_ne_zero, add_sub_cancel]
  have hnearest := (h.shiftRight (t - e).toNat).isNearestInt
  rw [hunits] at hnearest
  obtain ⟨hle', hfull⟩ := hscale.bounds hnearest
  refine ⟨_, isNearest_of_multiple hscale.least hnearest (Int.natCast_nonneg _)
    (by exact_mod_cast hle') hscale.le, ?_⟩
  rw [Int.cast_natCast]
  exact roundsTo_of_shift (shiftToTargetExponent_eq ht hle) hscale.least hle' hfull s

/-- A number with any number of digits is rounded to the nearest double. -/
theorem round_roundsTo {k : ℕ} (hpos : 0 < k) (f : ℤ) (s : UnpackedFloat.Sign) :
    ∃ y, IsNearest (k * 2 ^ f) y ∧ RoundsTo s y (UnpackedFloat.round Format.binary64 s k f) := by
  obtain ⟨t, ht⟩ : ∃ t, max ((k.log2 : ℤ) + f - 52) (-1074) = t := ⟨_, rfl⟩
  obtain ⟨j, hj⟩ : ∃ j, (f - t).toNat = j := ⟨_, rfl⟩
  have hdigits : (k : ℚ) * 2 ^ f / 2 ^ (f - j) = (k * 2 ^ j : ℕ) := by
    rw [zpow_sub₀ two_ne_zero, zpow_natCast]
    push_cast
    field_simp
  rw [round_eq s ht, hj]
  refine roundWithAccuracy_roundsTo (hdigits ▸ approximates_exact _) ?_ s
  rw [log2_mul_two_pow hpos]
  omega

/-- A number whose last digit stands for `2 ^ (-1074)` or more is not rounded to zero. -/
theorem exists_round_eq {k : ℕ} {f : ℤ} (hpos : 0 < k) (hf : -1074 ≤ f) (s : UnpackedFloat.Sign) :
    ∃ (m : ℕ) (e : ℤ) (hm : 0 < m), IsRounded m e ∧
      UnpackedFloat.round Format.binary64 s k f = .finite s m e hm := by
  obtain ⟨y, hy, hrounds⟩ := round_roundsTo hpos f s
  have hle : (2 : ℚ) ^ f ≤ k * 2 ^ f :=
    le_mul_of_one_le_left (by positivity) (by exact_mod_cast hpos)
  have hypos : 0 < y := lt_of_lt_of_le (by positivity) (hy.ge_of_ge (isDouble_two_zpow hf) hle)
  generalize UnpackedFloat.round Format.binary64 s k f = a at hrounds ⊢
  cases hrounds with
  | zero => exact absurd hypos (lt_irrefl _)
  | finite h hm => exact ⟨_, _, hm, h, rfl⟩

/-- Aligned significands count units of one power of two. -/
theorem decreaseExponent_mul (m : ℕ) {e t : ℤ} (h : t ≤ e) :
    ((decreaseExponent m e t).1 : ℚ) * 2 ^ t = m * 2 ^ e := by
  have hsplit : (2 : ℚ) ^ e = 2 ^ (e - t).toNat * 2 ^ t := by
    rw [← zpow_natCast, Int.toNat_of_nonneg (sub_nonneg.mpr h), ← zpow_add₀ two_ne_zero,
      sub_add_cancel]
  rw [decreaseExponent, Nat.shiftLeft_eq, hsplit]
  push_cast
  ring

/-- The digits of a number in units of a smaller power of two. -/
theorem fst_decreaseExponent (m : ℕ) (e t : ℤ) :
    (decreaseExponent m e t).1 = m * 2 ^ (e - t).toNat := by
  rw [decreaseExponent, Nat.shiftLeft_eq]

/-- Aligned significands compare as levels do. -/
theorem IsPlaced.aligned_lt_iff {m n : ℕ} {e f : ℤ} (hm : IsPlaced m e) (hn : IsPlaced n f) :
    (decreaseExponent m e (min e f)).1 < (decreaseExponent n f (min e f)).1 ↔
      (e + 1074) * 2 ^ 52 + m < (f + 1074) * 2 ^ 52 + n := by
  obtain ⟨hmlt, heleast, -, hmfull⟩ := hm
  obtain ⟨hnlt, hfleast, -, hnfull⟩ := hn
  have hdouble (k : ℕ) {i j : ℤ} (h : i < j) : k * 2 ≤ k * 2 ^ (j - i).toNat :=
    Nat.mul_le_mul_left k (Nat.le_self_pow (by omega) 2)
  rw [fst_decreaseExponent, fst_decreaseExponent]
  rcases lt_trichotomy e f with hlt | rfl | hgt
  · have hshifted := hdouble n hlt
    rw [min_eq_left hlt.le, sub_self, Int.toNat_zero, pow_zero, mul_one]
    exact iff_of_true (by omega) (by omega)
  · rw [min_self, sub_self, Int.toNat_zero, pow_zero, mul_one, mul_one]
    omega
  · have hshifted := hdouble m hgt
    rw [min_eq_right hgt.le, sub_self, Int.toNat_zero, pow_zero, mul_one]
    exact iff_of_false (by omega) (by omega)

/-- A number with a sign is rounded with that sign. -/
theorem normalize_apply (s : UnpackedFloat.Sign) {k : ℕ} (hpos : 0 < k) (e : ℤ) :
    UnpackedFloat.normalize Format.binary64 (s.apply k) e .positive =
      UnpackedFloat.round Format.binary64 s k e := by
  unfold UnpackedFloat.normalize
  cases s with
  | positive =>
    have hcompare : compare (UnpackedFloat.Sign.positive.apply (k : ℤ)) 0 = .gt :=
      compare_gt_iff_gt.mpr (Int.natCast_pos.mpr hpos)
    rw [hcompare]
    rfl
  | negative =>
    have hcompare : compare (UnpackedFloat.Sign.negative.apply (k : ℤ)) 0 = .lt :=
      compare_lt_iff_lt.mpr (neg_lt_zero.mpr (Int.natCast_pos.mpr hpos))
    have hsize : (-UnpackedFloat.Sign.negative.apply (k : ℤ)).toNat = k := by
      rw [UnpackedFloat.Sign.apply, neg_neg, Int.toNat_natCast]
    rw [hcompare]
    simp only [hsize]

/-! ## Bits -/

/-- The power of two of the last digit as it is stored. -/
theorem biased_eq (e : ℤ) : (e + (Format.binary64.exponentBias : ℤ) +
    (Format.binary64.mantissaBitsWithoutImplicit : ℤ)).toNat = (e + 1075).toNat := by
  have hsum : (Format.binary64.exponentBias : ℤ) +
      (Format.binary64.mantissaBitsWithoutImplicit : ℤ) = 1075 := by decide
  rw [add_assoc, hsum]

/-- The bits of a rounded number: those of infinity if it is too large, and else the power of two
and the digits behind the first one. -/
theorem exists_pack_finite (s : UnpackedFloat.Sign) {m : ℕ} {e : ℤ} (h : IsRounded m e)
    (hpos : 0 < m) :
    ∃ (power : BitVec 11) (fraction : BitVec 52), (power = -1#11 → fraction = 0) ∧
      power.toNat * 2 ^ 52 + fraction.toNat = min ((e + 1074).toNat * 2 ^ 52 + m) (2047 * 2 ^ 52) ∧
      pack Format.binary64 (.finite s m e hpos) =
        packComponents Format.binary64 s power fraction := by
  have ⟨hlt, hleast, hfull⟩ := h
  have hbias := biased_eq e
  have hones : (-1#11 : BitVec 11).toNat = 2047 := rfl
  have hbits : Format.binary64.mantissaBits = 53 := by decide
  simp only [pack, hbias, hbits]
  split
  · next hlarge =>
    have hge := hfull (by omega)
    refine ⟨-1#11, 0, fun _ => rfl, ?_, rfl⟩
    rw [min_eq_right (by omega)]
    rfl
  · next hsmall =>
    have hpower : (BitVec.ofNat 11 (e + 1075).toNat).toNat = (e + 1075).toNat := by
      rw [BitVec.toNat_ofNat, Nat.mod_eq_of_lt (by omega)]
    split
    · next hlog =>
      have hge : 2 ^ 52 ≤ m := (Nat.le_log2 hpos.ne').mp (by omega)
      have hfraction : (BitVec.ofNat 52 m).toNat = m - 2 ^ 52 := by
        rw [BitVec.toNat_ofNat]
        omega
      refine ⟨_, _, fun heq => ?_, ?_, rfl⟩
      · have hnat : (e + 1075).toNat = 2047 := by
          rw [← hpower, heq]
          exact hones
        omega
      · rw [hpower, hfraction, min_eq_left (by omega)]
        omega
    · next hlog =>
      have hlt' : m < 2 ^ 52 := by
        have hle : m.log2 < 53 := (Nat.log2_lt hpos.ne').mpr hlt
        exact (Nat.log2_lt hpos.ne').mp (by omega)
      have he : e = -1074 := h.eq_of_lt hlt'
      have hfraction : (BitVec.ofNat 52 m).toNat = m := by
        rw [BitVec.toNat_ofNat, Nat.mod_eq_of_lt (by omega)]
      refine ⟨0#11, _, fun heq => absurd heq (by decide), ?_, rfl⟩
      rw [hfraction, he]
      change 0 * 2 ^ 52 + m = min ((-1074 + 1074 : ℤ).toNat * 2 ^ 52 + m) (2047 * 2 ^ 52)
      omega

/-- A rounded number that is not zero has a level with its sign. -/
theorem level_of_pack_finite {x : Float} {s : UnpackedFloat.Sign} {m : ℕ} {e : ℤ}
    (h : IsRounded m e) (hpos : 0 < m) (hx : x.toBits.toBitVec = pack Format.binary64 (.finite s m e hpos)) :
    x.isNaN = false ∧ ∃ size : ℕ, 0 < size ∧ level x = s.apply size := by
  obtain ⟨power, fraction, -, hsize, hpack⟩ := exists_pack_finite s h hpos
  refine ⟨isNaN_eq_false_of_pack hx rfl, _, ?_, level_of_packComponents (hx.trans hpack)⟩
  rw [hsize]
  omega

/-- The number that the bits of a rounded number without sign stand for. -/
theorem denotes_of_pack_finite {x : Float} {m : ℕ} {e : ℤ} (h : IsRounded m e) (hpos : 0 < m)
    (hx : x.toBits.toBitVec = pack Format.binary64 (.finite .positive m e hpos)) :
    Denotes false (m * 2 ^ e) (parts x) := by
  obtain ⟨power, fraction, -, hsize, hpack⟩ := exists_pack_finite .positive h hpos
  have hnat : x.toBits.toNat = _ :=
    (congrArg BitVec.toNat (hx.trans hpack)).trans (toNat_packComponents .positive power fraction)
  have hsign : UnpackedFloat.Sign.positive.toBitVec.toNat = 0 := rfl
  have hunit : (0 : ℚ) < 2 ^ e := by positivity
  have hscale : IsScale ((m : ℚ) * 2 ^ e) e :=
    ⟨h.least, mul_lt_mul_of_pos_right (by exact_mod_cast h.lt) hunit,
      fun he => mul_le_mul_of_nonneg_right (by exact_mod_cast h.full he) hunit.le⟩
  have hnearest : IsNearestInt ((m : ℚ) * 2 ^ e / 2 ^ e) m := by
    rw [mul_div_cancel_right₀ _ hunit.ne']
    exact ⟨by simp, fun heq => by simp at heq⟩
  have hdenotes := denotes_partsOfBits false hscale hnearest
  rwa [← hsize, signBit, if_neg Bool.false_ne_true, ← Nat.zero_mul (2 ^ 63), ← hsign,
    ← hnat] at hdenotes

/-- The zero without sign stands for zero. -/
theorem denotes_of_pack_zero {x : Float}
    (hx : x.toBits.toBitVec = pack Format.binary64 (.zero .positive)) :
    Denotes false 0 (parts x) := by
  have hparts : parts x = partsOfBits (pack Format.binary64 (.zero .positive)).toNat :=
    congrArg (fun bits : BitVec 64 => partsOfBits bits.toNat) hx
  have hzero : partsOfBits (pack Format.binary64 (.zero .positive)).toNat =
      .finite false 0 (-1074) := by decide
  rw [hparts, hzero]
  exact ⟨rfl, by norm_num, by norm_num⟩

/-- The bits of what a number without sign is rounded to stand for it. -/
theorem RoundsTo.denotes {x : Float} {y : ℚ} {a : UnpackedFloat} (h : RoundsTo .positive y a)
    (hx : x.toBits.toBitVec = pack Format.binary64 a) : Denotes false y (parts x) := by
  cases h with
  | zero => exact denotes_of_pack_zero hx
  | finite h hpos => exact denotes_of_pack_finite h hpos hx

/-- A finite double without sign in terms of its significand and its power of two. -/
theorem level_of_parts {x : Float} {m : ℕ} {e : ℤ} (h : parts x = .finite false m e) :
    IsPlaced m e ∧ IsUnsigned x ∧ level x = (e + 1074) * 2 ^ 52 + m := by
  have hbits : x.toBits.toNat < 2 ^ 64 := x.toBits.toNat_lt
  rw [parts, partsOfBits] at h
  simp only [Nat.pow_eq] at h
  rw [IsUnsigned, level]
  generalize x.toBits.toNat = bits at h hbits ⊢
  split at h
  · split at h <;> cases h
  · next hpower =>
    split at h
    · next hzero =>
      obtain ⟨hsign, rfl, rfl⟩ : bits < 2 ^ 63 ∧ bits % 2 ^ 52 = m ∧ -1074 = e := by simpa using h
      rw [if_neg (by omega)]
      exact ⟨⟨by omega, le_rfl, by omega, by omega⟩, hsign, by omega⟩
    · next hpos =>
      obtain ⟨hsign, rfl, rfl⟩ : bits < 2 ^ 63 ∧ 2 ^ 52 + bits % 2 ^ 52 = m ∧
          ((bits / 2 ^ 52 % 2 ^ 11 : ℕ) : ℤ) - 1075 = e := by simpa using h
      rw [if_neg (by omega)]
      exact ⟨⟨by omega, by omega, by omega, by omega⟩, hsign, by omega⟩

/-- A double that is read as a finite one is a number. -/
theorem isNaN_of_parts {x : Float} {negative : Bool} {m : ℕ} {e : ℤ}
    (h : parts x = .finite negative m e) : x.isNaN = false := by
  by_contra hnan
  have hbits := (isNaN_unpack_iff_of_valid x.toModel.valid).mp (Bool.not_eq_false _ ▸ hnan)
  have hparts : parts x = partsOfBits (packedNaN Format.binary64).toNat :=
    congrArg (fun bits : BitVec 64 => partsOfBits bits.toNat) hbits
  have hundefined : partsOfBits (packedNaN Format.binary64).toNat = .nan := by decide
  rw [hparts, hundefined] at h
  cases h

/-- What is undefined has no other parts. -/
theorem unpack_of_isNaN {x : Float} (h : ¬ x.isNaN = false) :
    x.toModel.unpack = .notANumber := by
  have hparts : x.toModel.unpack.isNaN = true := Bool.not_eq_false _ ▸ h
  cases hunpack : x.toModel.unpack with
  | notANumber => rfl
  | infinity s | zero s | finite s m e hpos =>
    rw [hunpack] at hparts
    cases hparts

/-- The parts of a finite double without sign. -/
theorem unpack_of_parts {x : Float} {m : ℕ} {e : ℤ} (h : parts x = .finite false m e) :
    (m = 0 ∧ x.toModel.unpack = .zero .positive) ∨
      ∃ hpos : 0 < m, x.toModel.unpack = .finite .positive m e hpos := by
  obtain ⟨hplaced, hunsigned, hlevel⟩ := level_of_parts h
  obtain ⟨hordered, hlevel'⟩ := isOrdered_of_isNaN (isNaN_of_parts h)
  have hsign := isUnsigned_iff_unpack.mp hunsigned
  rw [hlevel] at hlevel'
  obtain ⟨hlt, hleast, hgreatest, hfull⟩ := hplaced
  generalize x.toModel.unpack = a at hordered hlevel' hsign ⊢
  cases hordered with
  | infinity s =>
    cases (hsign : s = .positive)
    simp only [partsLevel, UnpackedFloat.Sign.apply] at hlevel'
    omega
  | zero s =>
    cases (hsign : s = .positive)
    simp only [partsLevel] at hlevel'
    exact .inl ⟨by omega, rfl⟩
  | @finite s m' e' hpos hplaced' =>
    cases (hsign : s = .positive)
    obtain ⟨hlt', hleast', hgreatest', hfull'⟩ := hplaced'
    simp only [partsLevel, UnpackedFloat.Sign.apply] at hlevel'
    obtain rfl : e' = e := by omega
    obtain rfl : m' = m := by omega
    exact .inr ⟨hpos, rfl⟩

/-- A double is determined by its bits. -/
theorem eq_of_toBits {x y : Float} (h : x.toBits.toBitVec = y.toBits.toBitVec) : x = y := by
  obtain ⟨⟨a, ha⟩⟩ := x
  obtain ⟨⟨b, hb⟩⟩ := y
  obtain rfl : a = b := UInt64.toBitVec_inj.mp h
  rfl

/-- The double with the parts of another one is the other one. -/
theorem eq_of_pack_unpack {x y : Float}
    (h : x.toBits.toBitVec = pack Format.binary64 y.toModel.unpack) : x = y :=
  eq_of_toBits (h.trans (pack_unpack_of_valid y.toModel.valid))

/-- What stands for a number that is not too large is finite. -/
theorem exists_parts_of_denotes {x : Float} {q : ℚ} (hq : q < 2 ^ 1024)
    (h : Denotes false q (parts x)) :
    ∃ (m : ℕ) (e : ℤ), parts x = .finite false m e ∧ (m : ℚ) * 2 ^ e = q := by
  cases hparts : parts x with
  | nan =>
    rw [hparts] at h
    exact h.elim
  | infinite sign =>
    rw [hparts] at h
    exact absurd h.2 (not_le.mpr hq)
  | finite sign m e =>
    rw [hparts] at h
    obtain ⟨rfl, hvalue, -⟩ := h
    exact ⟨m, e, rfl, hvalue⟩

/-- The numbers that finite doubles stand for end at `2 ^ 1024`. -/
theorem IsPlaced.value_lt {m : ℕ} {e : ℤ} (h : IsPlaced m e) : (m : ℚ) * 2 ^ e < 2 ^ 1024 := by
  have hlt : (m : ℚ) < 2 ^ 53 := by exact_mod_cast h.lt
  calc (m : ℚ) * 2 ^ e < 2 ^ 53 * 2 ^ e := mul_lt_mul_of_pos_right hlt (by positivity)
    _ ≤ 2 ^ 53 * 2 ^ (971 : ℤ) :=
        mul_le_mul_of_nonneg_left (zpow_le_zpow_right₀ one_le_two h.greatest) (by positivity)
    _ = 2 ^ 1024 := pow_1024

/-- A number has one form as a rounded number. -/
theorem IsRounded.unique {m n : ℕ} {e f : ℤ} (hm : IsRounded m e) (hn : IsRounded n f)
    (heq : (m : ℚ) * 2 ^ e = n * 2 ^ f) : e = f ∧ m = n := by
  wlog hle : e ≤ f generalizing m n e f with hsymm
  · obtain ⟨hef, hmn⟩ := hsymm hn hm heq.symm (not_le.mp hle).le
    exact ⟨hef.symm, hmn.symm⟩
  have hdigits := mul_two_pow_eq heq.symm hle
  rcases hle.lt_or_eq with hlt | rfl
  · -- Digits zero behind 53 digits would be too many.
    have hfull := hn.full (hm.least.trans_lt hlt)
    have hpower : 2 ^ 1 ≤ 2 ^ (f - e).toNat := Nat.pow_le_pow_right two_pos (by omega)
    have hmany := Nat.mul_le_mul hfull hpower
    have hlt := hm.lt
    omega
  · rw [sub_self, Int.toNat_zero, pow_zero, mul_one] at hdigits
    exact ⟨rfl, hdigits.symm⟩

/-- Doubles that stand for one number are one double. -/
theorem eq_of_denotes {x y : Float} {q : ℚ} (hq : q < 2 ^ 1024) (hx : Denotes false q (parts x))
    (hy : Denotes false q (parts y)) : x = y := by
  obtain ⟨m, e, hxparts, hxq⟩ := exists_parts_of_denotes hq hx
  obtain ⟨n, f, hyparts, hyq⟩ := exists_parts_of_denotes hq hy
  obtain ⟨hxplaced, hxsign, hxlevel⟩ := level_of_parts hxparts
  obtain ⟨hyplaced, hysign, hylevel⟩ := level_of_parts hyparts
  obtain ⟨rfl, rfl⟩ := hxplaced.isRounded.unique hyplaced.isRounded (hxq.trans hyq.symm)
  have hlevel := hxlevel.trans hylevel.symm
  rw [level, level, if_neg (not_le.mpr hxsign), if_neg (not_le.mpr hysign)] at hlevel
  exact eq_of_toBits (BitVec.eq_of_toNat_eq (by exact_mod_cast hlevel))

/-- Finite doubles without sign compare as the numbers they stand for. -/
theorem lt_iff_of_denotes {x y : Float} {a b : ℚ} (hx : Denotes false a (parts x))
    (hy : Denotes false b (parts y)) (ha : a < 2 ^ 1024) (hb : b < 2 ^ 1024) :
    x < y ↔ a < b := by
  obtain ⟨m, e, hxparts, rfl⟩ := exists_parts_of_denotes ha hx
  obtain ⟨n, f, hyparts, rfl⟩ := exists_parts_of_denotes hb hy
  obtain ⟨hxplaced, -, hxlevel⟩ := level_of_parts hxparts
  obtain ⟨hyplaced, -, hylevel⟩ := level_of_parts hyparts
  rw [lt_iff (isNaN_of_parts hxparts) (isNaN_of_parts hyparts), hxlevel, hylevel,
    ← hxplaced.aligned_lt_iff hyplaced, ← decreaseExponent_mul m (min_le_left e f),
    ← decreaseExponent_mul n (min_le_right e f), mul_lt_mul_iff_left₀ (by positivity), Nat.cast_lt]

/-- Finite doubles without sign compare as the numbers they stand for. -/
theorem le_iff_of_denotes {x y : Float} {a b : ℚ} (hx : Denotes false a (parts x))
    (hy : Denotes false b (parts y)) (ha : a < 2 ^ 1024) (hb : b < 2 ^ 1024) :
    x ≤ y ↔ a ≤ b := by
  obtain ⟨m, e, hxparts, -⟩ := exists_parts_of_denotes ha hx
  obtain ⟨n, f, hyparts, -⟩ := exists_parts_of_denotes hb hy
  have hxnan := isNaN_of_parts hxparts
  have hynan := isNaN_of_parts hyparts
  rw [← not_lt, ← lt_iff_of_denotes hy hx hb ha, lt_iff hynan hxnan, le_iff hxnan hynan, not_lt]

end Number

end SolverPortfolio
