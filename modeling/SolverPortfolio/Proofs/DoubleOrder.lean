import SolverPortfolio.Proofs.NearestDouble

/-
# The order of doubles

Doubles that are numbers or infinite lie on levels: the bits without the sign, negated if the sign
is set. They compare as their levels do, so that both zeros are equal and infinity is on top. The
order of the bit patterns agrees with this, but puts the negative zero below the other one; among
doubles without sign the two orders are the same. Squares, sums of squares and their roots have no
sign.

Main definitions: `Number.level`, `Number.IsUnsigned`.
Main statements: `Number.lt_iff`, `Number.le_iff`, `Number.beq_iff`, `Number.level_abs`,
`Number.isNaN_add`, `Number.IsUnsigned.sqrt`, `Number.IsUnsigned.orderKey_eq`.
-/

namespace SolverPortfolio

namespace Number

open Float.Model (UnpackedFloat Format)
open Float.Model.UnpackedFloat

/-! ## Levels -/

/-- The bits of a double without the sign, negated if the sign is set. -/
def level (x : Float) : ℤ :=
  let bits := x.toBits.toNat
  if 2 ^ 63 ≤ bits then -((bits - 2 ^ 63 : ℕ) : ℤ) else bits

/-- The level of a double in parts. -/
def partsLevel : UnpackedFloat → ℤ
  | .infinity s => s.apply (2047 * 2 ^ 52)
  | .notANumber => 0
  | .zero _ => 0
  | .finite s m e _ => s.apply ((e + 1074) * 2 ^ 52 + m)

/-- The significands and powers of two of finite doubles: the significand has 53 binary digits
unless the power is the least one. -/
structure IsPlaced (m : ℕ) (e : ℤ) : Prop where
  lt : m < 2 ^ 53
  least : -1074 ≤ e
  greatest : e ≤ 971
  full : -1074 < e → 2 ^ 52 ≤ m

/-- The parts of doubles that are numbers or infinite. -/
inductive IsOrdered : UnpackedFloat → Prop
  | infinity (s : Sign) : IsOrdered (.infinity s)
  | zero (s : Sign) : IsOrdered (.zero s)
  | finite (s : Sign) {m : ℕ} {e : ℤ} (hpos : 0 < m) (hplaced : IsPlaced m e) :
    IsOrdered (.finite s m e hpos)

/-- Finite doubles lie between zero and infinity. -/
theorem IsPlaced.bounds {m : ℕ} {e : ℤ} (h : IsPlaced m e) (hpos : 0 < m) :
    0 < (e + 1074) * 2 ^ 52 + m ∧ (e + 1074) * 2 ^ 52 + m < 2047 * 2 ^ 52 := by
  obtain ⟨hlt, hleast, hgreatest, -⟩ := h
  omega

/-- A larger power of two counts more than any significand. -/
theorem IsPlaced.compare_then {m n : ℕ} {e f : ℤ} (hm : IsPlaced m e) (hn : IsPlaced n f) :
    (compare e f).then (compare m n) =
      compare ((e + 1074) * 2 ^ 52 + m) ((f + 1074) * 2 ^ 52 + n) := by
  obtain ⟨hmlt, heleast, -, hmfull⟩ := hm
  obtain ⟨hnlt, hfleast, -, hnfull⟩ := hn
  rcases lt_trichotomy e f with hlt | rfl | hgt
  · rw [compare_lt_iff_lt.mpr hlt, Ordering.lt_then, eq_comm, compare_lt_iff_lt]
    omega
  · rw [compare_eq_iff_eq.mpr rfl, Ordering.eq_then]
    rcases lt_trichotomy m n with hlt | rfl | hgt
    · rw [compare_lt_iff_lt.mpr hlt, eq_comm, compare_lt_iff_lt]
      omega
    · rw [compare_eq_iff_eq.mpr rfl, compare_eq_iff_eq.mpr rfl]
    · rw [compare_gt_iff_gt.mpr hgt, eq_comm, compare_gt_iff_gt]
      omega
  · rw [compare_gt_iff_gt.mpr hgt, Ordering.gt_then, eq_comm, compare_gt_iff_gt]
    omega

/-- Negative numbers compare the other way round. -/
theorem swap_compare (x y : ℤ) : (compare x y).swap = compare (-x) (-y) := by
  rcases lt_trichotomy x y with hlt | rfl | hgt
  · rw [compare_lt_iff_lt.mpr hlt, eq_comm, Ordering.swap_lt, compare_gt_iff_gt]
    omega
  · rw [compare_eq_iff_eq.mpr rfl, compare_eq_iff_eq.mpr rfl, Ordering.swap_eq]
  · rw [compare_gt_iff_gt.mpr hgt, eq_comm, Ordering.swap_gt, compare_lt_iff_lt]
    omega

/-- Doubles in parts compare as their levels do. -/
theorem IsOrdered.compare_eq {a b : UnpackedFloat} (ha : IsOrdered a) (hb : IsOrdered b) :
    a.compare b = some (compare (partsLevel a) (partsLevel b)) := by
  cases ha with
  | infinity s | zero s =>
    cases hb with
    | infinity t | zero t => cases s <;> cases t <;> decide
    | finite t hpos hplaced =>
      obtain ⟨hlow, hhigh⟩ := hplaced.bounds hpos
      cases s <;> cases t <;> simp only [UnpackedFloat.compare, partsLevel, Sign.apply,
        Option.some.injEq, @eq_comm _ Ordering.lt, @eq_comm _ Ordering.gt, compare_lt_iff_lt,
        compare_gt_iff_gt] <;> omega
  | finite s hpos hplaced =>
    cases hb with
    | infinity t | zero t =>
      obtain ⟨hlow, hhigh⟩ := hplaced.bounds hpos
      cases s <;> cases t <;> simp only [UnpackedFloat.compare, partsLevel, Sign.apply,
        Option.some.injEq, @eq_comm _ Ordering.lt, @eq_comm _ Ordering.gt, compare_lt_iff_lt,
        compare_gt_iff_gt] <;> omega
    | finite t hpos' hplaced' =>
      have hlow := (hplaced.bounds hpos).1
      have hlow' := (hplaced'.bounds hpos').1
      cases s <;> cases t <;> simp only [UnpackedFloat.compare, partsLevel, Sign.apply,
        hplaced.compare_then hplaced', swap_compare]
      · rw [Option.some.injEq, eq_comm, compare_lt_iff_lt]
        omega
      · rw [Option.some.injEq, eq_comm, compare_gt_iff_gt]
        omega

/-! ## Bits -/

section

variable (sign : Sign) (power : BitVec 11) (fraction : BitVec 52)

/-- The parts of a double with given bits, which is a number or infinite. -/
theorem isOrdered_unpack_packComponents (h : power = -1#11 → fraction = 0) :
    IsOrdered (unpack Format.binary64 (packComponents Format.binary64 sign power fraction)) ∧
      partsLevel (unpack Format.binary64 (packComponents Format.binary64 sign power fraction)) =
        sign.apply ((power.toNat * 2 ^ 52 + fraction.toNat : ℕ) : ℤ) := by
  have hpower := power.isLt
  have hfraction := fraction.isLt
  have hbias : (Format.binary64.exponentBias : ℤ) +
      (Format.binary64.mantissaBitsWithoutImplicit : ℤ) = 1075 := by decide
  simp only [unpack, unpackExponent_packComponents, unpackMantissa_packComponents,
    unpackSign_packComponents, Sign.ofBitVec_toBitVec, hbias]
  split
  · next hones =>
    rw [h hones, hones]
    exact ⟨.infinity sign, rfl⟩
  · next hones =>
    have hmax : power.toNat ≠ 2047 := fun heq => hones (BitVec.eq_of_toNat_eq heq)
    split
    · next hzeros =>
      have hzero : power.toNat = 0 := by rw [hzeros]; rfl
      split
      · next hnone =>
        rw [hnone, hzeros]
        exact ⟨.zero sign, by cases sign <;> simp [partsLevel, Sign.apply]⟩
      · refine ⟨.finite sign _ ⟨by omega, by omega, by omega, by omega⟩, ?_⟩
        rw [partsLevel, hzero]
        rfl
    · next hzeros =>
      have hpos : power.toNat ≠ 0 := fun heq => hzeros (BitVec.eq_of_toNat_eq heq)
      have hfull : (1#1 ++ fraction).toNat = 2 ^ 52 + fraction.toNat := by
        rw [BitVec.toNat_append, ← Nat.shiftLeft_add_eq_or_of_lt fraction.isLt]
        rfl
      refine ⟨.finite sign _ ⟨by omega, by omega, by omega, by omega⟩, ?_⟩
      rw [partsLevel, hfull]
      congr 1
      push_cast
      ring

end

/-- A double that is a number or infinite consists of a sign, a power of two and a fraction. -/
theorem exists_toBits_eq {x : Float} (h : x.isNaN = false) :
    ∃ (sign : Sign) (power : BitVec 11) (fraction : BitVec 52), (power = -1#11 → fraction = 0) ∧
      x.toBits.toBitVec = packComponents Format.binary64 sign power fraction := by
  have hbits := @packComponents_unpackSign_unpackExponent_unpackMantissa Format.binary64
    x.toBits.toBitVec
  refine ⟨_, _, _, fun hones => ?_, hbits.symm⟩
  by_contra hfraction
  have hnan := x.toModel.valid.eq_packedNaN hones hfraction
  have hparts : (unpack Format.binary64 x.toModel.toBits.toBitVec).isNaN = true :=
    (isNaN_unpack_iff_of_valid x.toModel.valid).mpr hnan
  exact Bool.false_ne_true (h.symm.trans hparts)

/-- The level of a double is told by its bits. -/
theorem level_of_packComponents {x : Float} {s : Sign} {power : BitVec 11} {fraction : BitVec 52}
    (h : x.toBits.toBitVec = packComponents Format.binary64 s power fraction) :
    level x = s.apply ((power.toNat * 2 ^ 52 + fraction.toNat : ℕ) : ℤ) := by
  have hnat : x.toBits.toNat = _ :=
    (congrArg BitVec.toNat h).trans (toNat_packComponents s power fraction)
  have hpower := power.isLt
  have hfraction := fraction.isLt
  rw [level, hnat]
  cases s with
  | positive =>
    have hsign : Sign.positive.toBitVec.toNat = 0 := rfl
    rw [hsign, if_neg (by omega), Nat.zero_mul, Nat.zero_add]
    rfl
  | negative =>
    have hsign : Sign.negative.toBitVec.toNat = 1 := rfl
    rw [hsign, if_pos (by omega), Nat.one_mul, Nat.add_sub_cancel_left]
    rfl

/-- The level of a double is that of its parts, which are ordered unless it is undefined. -/
theorem isOrdered_of_isNaN {x : Float} (h : x.isNaN = false) :
    IsOrdered x.toModel.unpack ∧ partsLevel x.toModel.unpack = level x := by
  obtain ⟨sign, power, fraction, hnan, hbits⟩ := exists_toBits_eq h
  have hunpack : x.toModel.unpack =
      unpack Format.binary64 (packComponents Format.binary64 sign power fraction) :=
    congrArg (unpack Format.binary64) hbits
  obtain ⟨hordered, hlevel⟩ := isOrdered_unpack_packComponents sign power fraction hnan
  rw [hunpack]
  exact ⟨hordered, hlevel.trans (level_of_packComponents hbits).symm⟩

/-! ## Comparisons -/

/-- Doubles compare as their levels do, unless one is undefined. -/
theorem compare_unpack {x y : Float} (hx : x.isNaN = false) (hy : y.isNaN = false) :
    x.toModel.unpack.compare y.toModel.unpack = some (compare (level x) (level y)) := by
  obtain ⟨hordered, hlevel⟩ := isOrdered_of_isNaN hx
  obtain ⟨hordered', hlevel'⟩ := isOrdered_of_isNaN hy
  rw [hordered.compare_eq hordered', hlevel, hlevel']

/-- One double is smaller than another one just where it is on a lower level. -/
theorem lt_iff {x y : Float} (hx : x.isNaN = false) (hy : y.isNaN = false) :
    x < y ↔ level x < level y := by
  have hcompare : x < y ↔ (x.toModel.unpack.compare y.toModel.unpack == some .lt) = true :=
    decide_eq_true_iff
  rw [hcompare, compare_unpack hx hy, beq_iff_eq, Option.some.injEq, compare_lt_iff_lt]

/-- One double is at most another one just where it is not on a higher level. -/
theorem le_iff {x y : Float} (hx : x.isNaN = false) (hy : y.isNaN = false) :
    x ≤ y ↔ level x ≤ level y := by
  have hcompare : x ≤ y ↔ (x.toModel.unpack.compare y.toModel.unpack).any (·.isLE) = true :=
    decide_eq_true_iff
  rw [hcompare, compare_unpack hx hy, Option.any_some, Ordering.isLE_iff_ne_gt,
    compare_gt_iff_gt, not_lt]

/-- Two doubles are equal just where they are on one level. -/
theorem beq_iff {x y : Float} (hx : x.isNaN = false) (hy : y.isNaN = false) :
    (x == y) = true ↔ level x = level y := by
  have hcompare : (x == y) = true ↔
      (x.toModel.unpack.compare y.toModel.unpack == some .eq) = true := Iff.rfl
  rw [hcompare, compare_unpack hx hy, beq_iff_eq, Option.some.injEq, compare_eq_iff_eq]

/-- No level is above that of infinity. -/
theorem IsOrdered.partsLevel_le {a : UnpackedFloat} (h : IsOrdered a) :
    partsLevel a ≤ 2047 * 2 ^ 52 := by
  cases h with
  | infinity s | zero s => cases s <;> decide
  | finite s hpos hplaced =>
    obtain ⟨hlow, hhigh⟩ := hplaced.bounds hpos
    cases s <;> simp only [partsLevel, Sign.apply] <;> omega

/-- Nothing is larger than infinity. -/
theorem level_le_infinity {x : Float} (h : x.isNaN = false) : level x ≤ level (1 / 0) := by
  obtain ⟨hordered, hlevel⟩ := isOrdered_of_isNaN h
  exact hlevel ▸ hordered.partsLevel_le

/-! ## Sizes -/

/-- The size of a double has the same bits without the sign. -/
theorem abs_unpack_packComponents (sign : Sign) (power : BitVec 11) (fraction : BitVec 52) :
    (unpack Format.binary64 (packComponents Format.binary64 sign power fraction)).abs =
      unpack Format.binary64 (packComponents Format.binary64 .positive power fraction) := by
  simp only [unpack, unpackExponent_packComponents, unpackMantissa_packComponents,
    unpackSign_packComponents, Sign.ofBitVec_toBitVec]
  split
  · split <;> rfl
  · split
    · split <;> rfl
    · rfl

/-- Parts that are ordered are not undefined. -/
theorem IsOrdered.isNaN {a : UnpackedFloat} (h : IsOrdered a) : a.isNaN = false := by
  cases h <;> rfl

/-- The level of the size of a double is the size of its level. -/
theorem level_abs {x : Float} (h : x.isNaN = false) :
    x.abs.isNaN = false ∧ level x.abs = |level x| := by
  obtain ⟨sign, power, fraction, hnan, hbits⟩ := exists_toBits_eq h
  have habs : x.abs.toBits.toBitVec =
      packComponents Format.binary64 .positive power fraction := by
    rw [← pack_unpack_packComponents .positive power fraction hnan,
      ← abs_unpack_packComponents sign power fraction, ← hbits]
    rfl
  have hunpack : x.abs.toModel.unpack =
      unpack Format.binary64 (packComponents Format.binary64 .positive power fraction) :=
    congrArg (unpack Format.binary64) habs
  have hunpack' : x.toModel.unpack =
      unpack Format.binary64 (packComponents Format.binary64 sign power fraction) :=
    congrArg (unpack Format.binary64) hbits
  obtain ⟨hordered, hlevel⟩ := isOrdered_unpack_packComponents .positive power fraction hnan
  have hlevel' := (isOrdered_unpack_packComponents sign power fraction hnan).2
  have hdefined : x.abs.isNaN = false := (congrArg UnpackedFloat.isNaN hunpack).trans hordered.isNaN
  refine ⟨hdefined, ?_⟩
  rw [← (isOrdered_of_isNaN hdefined).2, ← (isOrdered_of_isNaN h).2, hunpack, hunpack', hlevel,
    hlevel']
  cases sign with
  | positive => exact (abs_of_nonneg (Int.natCast_nonneg _)).symm
  | negative => exact ((abs_neg _).trans (abs_of_nonneg (Int.natCast_nonneg _))).symm

/-! ## Signs -/

/-- The sign bit of a double is not set. -/
def IsUnsigned (x : Float) : Prop := x.toBits.toNat < 2 ^ 63

/-- The sign of a double in parts. -/
def partsSign : UnpackedFloat → Sign
  | .infinity s => s
  | .notANumber => .positive
  | .zero s => s
  | .finite s _ _ _ => s

/-- The bits of a double in parts have its sign, and those of a number or infinity are no others. -/
theorem exists_pack_eq (a : UnpackedFloat) : ∃ (power : BitVec 11) (fraction : BitVec 52),
    pack Format.binary64 a = packComponents Format.binary64 (partsSign a) power fraction ∧
      (a.isNaN = false → power = -1#11 → fraction = 0) := by
  have hzeros : (0#11 : BitVec 11) ≠ -1#11 := by decide
  cases a with
  | infinity s => exact ⟨_, _, rfl, fun _ _ => rfl⟩
  | notANumber => exact ⟨_, _, rfl, fun h => by cases h⟩
  | zero s => exact ⟨_, _, rfl, fun _ _ => rfl⟩
  | finite s m e hpos =>
    simp only [pack]
    split
    · exact ⟨_, _, rfl, fun _ _ => rfl⟩
    · next hsmall =>
      split
      · refine ⟨_, _, rfl, fun _ hones => ?_⟩
        have hpower := congrArg BitVec.toNat hones
        rw [BitVec.toNat_ofNat, Nat.mod_eq_of_lt (by omega)] at hpower
        have htop : (-1#11 : BitVec 11).toNat = 2047 := rfl
        omega
      · exact ⟨_, _, rfl, fun _ hones => absurd hones hzeros⟩

/-- What is put together from parts that are defined is defined. -/
theorem isNaN_eq_false_of_pack {x : Float} {a : UnpackedFloat}
    (h : x.toBits.toBitVec = pack Format.binary64 a) (ha : a.isNaN = false) : x.isNaN = false := by
  obtain ⟨power, fraction, hpack, hnan⟩ := exists_pack_eq a
  have hunpack : x.toModel.unpack =
      unpack Format.binary64 (packComponents Format.binary64 (partsSign a) power fraction) :=
    congrArg (unpack Format.binary64) (h.trans hpack)
  have hordered := (isOrdered_unpack_packComponents (partsSign a) power fraction (hnan ha)).1
  exact (congrArg UnpackedFloat.isNaN hunpack).trans hordered.isNaN

/-- What is rounded is a number. -/
theorem isNaN_roundWithAccuracy (s : Sign) (m : ℕ) (e : ℤ) (accuracy : Accuracy) :
    (roundWithAccuracy Format.binary64 s m e accuracy).isNaN = false := by
  unfold roundWithAccuracy
  dsimp only
  split <;> rfl

/-- A sum of finite parts is a number. -/
theorem isNaN_normalize (m e : ℤ) :
    (UnpackedFloat.normalize Format.binary64 m e .positive).isNaN = false := by
  unfold UnpackedFloat.normalize
  split
  · exact isNaN_roundWithAccuracy _ _ _ _
  · rfl
  · exact isNaN_roundWithAccuracy _ _ _ _

/-- A sum with a number is defined. -/
theorem isNaN_add {x y : Float} (hx : x.isNaN = false) (hy : y.isFinite = true) :
    (x + y).isNaN = false := by
  refine isNaN_eq_false_of_pack
    (a := UnpackedFloat.add Format.binary64 x.toModel.unpack y.toModel.unpack) rfl ?_
  change x.toModel.unpack.isNaN = false at hx
  change y.toModel.unpack.isFinite = true at hy
  generalize x.toModel.unpack = a at hx ⊢
  generalize y.toModel.unpack = b at hy ⊢
  cases b with
  | notANumber | infinity t => cases hy
  | zero t =>
    cases a with
    | notANumber => cases hx
    | zero s => cases s <;> cases t <;> rfl
    | infinity s | finite s m e hpos => rfl
  | finite t n f hpos =>
    cases a with
    | notANumber => cases hx
    | infinity s | zero s => rfl
    | finite s m e hpos' => exact isNaN_normalize _ _

/-- The sign bit is that of the parts which a double is made of. -/
theorem isUnsigned_iff {x : Float} {a : UnpackedFloat}
    (h : x.toBits.toBitVec = pack Format.binary64 a) :
    IsUnsigned x ↔ partsSign a = .positive := by
  obtain ⟨power, fraction, hpack, -⟩ := exists_pack_eq a
  have hnat : x.toBits.toNat = _ :=
    (congrArg BitVec.toNat (h.trans hpack)).trans (toNat_packComponents _ power fraction)
  have hpower := power.isLt
  have hfraction := fraction.isLt
  rw [IsUnsigned, hnat]
  cases partsSign a with
  | positive =>
    have hsign : Sign.positive.toBitVec.toNat = 0 := rfl
    exact iff_of_true (by omega) rfl
  | negative =>
    have hsign : Sign.negative.toBitVec.toNat = 1 := rfl
    exact iff_of_false (by omega) (by simp)

/-- The sign bit is that of the parts of a double. -/
theorem isUnsigned_iff_unpack {x : Float} : IsUnsigned x ↔ partsSign x.toModel.unpack = .positive :=
  isUnsigned_iff (pack_unpack_of_valid x.toModel.valid).symm

/-- Rounding keeps the sign. -/
theorem partsSign_roundWithAccuracy (s : Sign) (m : ℕ) (e : ℤ) (accuracy : Accuracy) :
    partsSign (roundWithAccuracy Format.binary64 s m e accuracy) = s := by
  unfold roundWithAccuracy
  dsimp only
  split <;> rfl

/-- A square has no sign. -/
theorem isUnsigned_mul_self (x : Float) : IsUnsigned (x * x) := by
  refine (isUnsigned_iff (a := UnpackedFloat.mul Format.binary64 x.toModel.unpack x.toModel.unpack)
    rfl).mpr ?_
  have hsign : ∀ s : Sign, s * s = .positive := fun s => by cases s <;> rfl
  cases x.toModel.unpack with
  | infinity s => exact hsign s
  | notANumber => rfl
  | zero s => exact hsign s
  | finite s m e hpos => exact (partsSign_roundWithAccuracy _ _ _ _).trans (hsign s)

/-- A sum of whole numbers that are not negative has no sign. -/
theorem partsSign_normalize {m : ℤ} (h : 0 ≤ m) (e : ℤ) :
    partsSign (UnpackedFloat.normalize Format.binary64 m e .positive) = .positive := by
  unfold UnpackedFloat.normalize
  split
  · next hlt => exact absurd (compare_lt_iff_lt.mp hlt) (not_lt.mpr h)
  · rfl
  · exact partsSign_roundWithAccuracy _ _ _ _

/-- Without a sign the parts of a double are not negative. -/
theorem apply_nonneg {s : Sign} (h : s = .positive) (m : ℕ) : 0 ≤ s.apply (m : ℤ) :=
  h ▸ Int.natCast_nonneg m

/-- A sum of doubles without sign has none. -/
theorem partsSign_add {a b : UnpackedFloat} (ha : partsSign a = .positive)
    (hb : partsSign b = .positive) :
    partsSign (UnpackedFloat.add Format.binary64 a b) = .positive := by
  cases a with
  | notANumber => rfl
  | infinity s =>
    cases b with
    | infinity t =>
      cases (ha : s = .positive)
      cases (hb : t = .positive)
      rfl
    | notANumber => rfl
    | zero t | finite t m e hpos => exact ha
  | zero s =>
    cases b with
    | zero t =>
      cases (ha : s = .positive)
      cases (hb : t = .positive)
      rfl
    | notANumber => rfl
    | infinity t | finite t m e hpos => exact hb
  | finite s m e hpos =>
    cases b with
    | notANumber => rfl
    | infinity t => exact hb
    | zero t => exact ha
    | finite t n f hpos' =>
      exact partsSign_normalize (add_nonneg (apply_nonneg ha _) (apply_nonneg hb _)) _

/-- A sum of doubles without sign has none. -/
theorem IsUnsigned.add {x y : Float} (hx : IsUnsigned x) (hy : IsUnsigned y) :
    IsUnsigned (x + y) :=
  (isUnsigned_iff rfl).mpr
    (partsSign_add (isUnsigned_iff_unpack.mp hx) (isUnsigned_iff_unpack.mp hy))

/-- A double without sign has none either when it is added to the negative zero. -/
theorem IsUnsigned.negZero_add {x : Float} (h : IsUnsigned x) : IsUnsigned (-0.0 + x) := by
  have hzero : (-0.0 : Float).toModel.unpack = .zero .negative := rfl
  have hsign := isUnsigned_iff_unpack.mp h
  refine (isUnsigned_iff (a := UnpackedFloat.add Format.binary64 (-0.0 : Float).toModel.unpack
    x.toModel.unpack) rfl).mpr ?_
  rw [hzero]
  cases hparts : x.toModel.unpack with
  | zero s =>
    rw [hparts] at hsign
    cases hsign
    rfl
  | notANumber => rfl
  | infinity s | finite s m e hpos => exact (congrArg partsSign hparts).symm.trans hsign

/-- The root of a double without sign has none. -/
theorem IsUnsigned.sqrt {x : Float} (h : IsUnsigned x) : IsUnsigned x.sqrt := by
  have hsign := isUnsigned_iff_unpack.mp h
  refine (isUnsigned_iff (a := UnpackedFloat.sqrt Format.binary64 x.toModel.unpack) rfl).mpr ?_
  cases hparts : x.toModel.unpack with
  | infinity s | zero s =>
    rw [hparts] at hsign
    cases hsign
    rfl
  | notANumber => rfl
  | finite s m e hpos =>
    rw [hparts] at hsign
    cases hsign
    exact partsSign_roundWithAccuracy _ _ _ _

/-! ## The order of the bit patterns -/

/-- Without a sign the level of a double is its place in the order of the bit patterns. -/
theorem IsUnsigned.orderKey_eq {x : Float} (h : IsUnsigned x) : orderKey x = level x := by
  have hbits : ¬ Nat.pow 2 63 ≤ x.toBits.toNat := not_le.mpr h
  rw [orderKey, if_neg hbits, level, if_neg (not_le.mpr h)]

end Number

end SolverPortfolio
