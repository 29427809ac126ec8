import SolverPortfolio.Proofs.RoundedOperations

/-
# Sums and differences of doubles

A sum of two doubles that is a double itself is not rounded. The negative zero is neutral, with any
sign of a zero. A difference of doubles is negative just if the first one is smaller: the exact
difference is a multiple of the least double, so it is not rounded to zero, and undefined doubles
and infinite ones are compared as they are subtracted.

Main definition: `Number.partsSignum`.
Main statements: `Number.negZero_add`, `Number.denotes_add`, `Number.sub_lt_zero_iff`.
-/

namespace SolverPortfolio

namespace Number

open Float.Model (UnpackedFloat Format totalExponent)
open Float.Model.UnpackedFloat

/-! ## Sums -/

/-- The negative zero is neutral: it changes no number, nor the sign of a zero. -/
theorem negZero_add (x : Float) : -0.0 + x = x := by
  refine eq_of_pack_unpack ?_
  have hzero : (-0.0 : Float).toModel.unpack = .zero .negative := rfl
  change pack Format.binary64 (UnpackedFloat.add Format.binary64 (-0.0 : Float).toModel.unpack
    x.toModel.unpack) = _
  rw [hzero]
  cases x.toModel.unpack with
  | zero s => cases s <;> rfl
  | infinity s | notANumber | finite s m e hpos => rfl

/-- A sum that is a double is not rounded. -/
theorem denotes_add {x y : Float} {a b : ℚ} (hx : Denotes false a (parts x))
    (hy : Denotes false b (parts y)) (ha : 0 ≤ a) (hb : 0 ≤ b) (hsum : IsDouble (a + b))
    (hlt : a + b < 2 ^ 1024) : Denotes false (a + b) (parts (x + y)) := by
  obtain ⟨c, hc, hdenotes⟩ := exists_isNearest_add hx hy
    ((le_add_of_nonneg_right hb).trans_lt hlt) ((le_add_of_nonneg_left ha).trans_lt hlt)
  rwa [hc.eq_of_isDouble hsum] at hdenotes

/-! ## Differences -/

/-- The sign of a double in parts as a number, zero if there is none. -/
def partsSignum : UnpackedFloat → ℤ
  | .infinity s => s.apply 1
  | .finite s _ _ _ => s.apply 1
  | .notANumber => 0
  | .zero _ => 0

/-- Parts that can be packed: finite ones are rounded. -/
def IsPackable : UnpackedFloat → Prop
  | .finite _ m e _ => IsRounded m e
  | _ => True

/-- The comparison of doubles in parts. -/
theorem lt_iff_compare {x y : Float} :
    x < y ↔ (x.toModel.unpack.compare y.toModel.unpack == some .lt) = true := decide_eq_true_iff

/-- A double below zero is one with a negative sign that is neither zero nor undefined. -/
theorem lt_zero_iff_of_pack {x : Float} {a : UnpackedFloat} (ha : IsPackable a)
    (hx : x.toBits.toBitVec = pack Format.binary64 a) : x < 0 ↔ partsSignum a < 0 := by
  have hlevel (hnan : x.isNaN = false) : x < 0 ↔ level x < 0 := lt_iff hnan rfl
  cases a with
  | notANumber =>
    have hundefined : x.toModel.unpack = .notANumber := congrArg (unpack Format.binary64) hx
    rw [lt_iff_compare, hundefined]
    exact iff_of_false (by decide) (by decide)
  | infinity s =>
    rw [hlevel (isNaN_eq_false_of_pack hx rfl), level_of_packComponents hx]
    cases s <;> decide
  | zero s =>
    rw [hlevel (isNaN_eq_false_of_pack hx rfl), level_of_packComponents hx]
    cases s <;> decide
  | finite s m e hpos =>
    obtain ⟨hnan, size, hsize, heq⟩ := level_of_pack_finite ha hpos hx
    rw [hlevel hnan, heq]
    cases s <;> simp only [partsSignum, UnpackedFloat.Sign.apply] <;> omega

/-- A number that is normalized has its sign, unless it is zero. -/
theorem partsSignum_normalize {k : ℤ} {e : ℤ} (he : -1074 ≤ e) :
    IsPackable (UnpackedFloat.normalize Format.binary64 k e .positive) ∧
      (partsSignum (UnpackedFloat.normalize Format.binary64 k e .positive) < 0 ↔ k < 0) := by
  have hsigned (s : UnpackedFloat.Sign) {n : ℕ} (hn : 0 < n) :
      IsPackable (UnpackedFloat.normalize Format.binary64 (s.apply n) e .positive) ∧
        (partsSignum (UnpackedFloat.normalize Format.binary64 (s.apply n) e .positive) < 0 ↔
          s.apply (n : ℤ) < 0) := by
    obtain ⟨m, f, hm, hrounded, heq⟩ := exists_round_eq hn he s
    rw [normalize_apply s hn, heq]
    refine ⟨hrounded, ?_⟩
    cases s <;> simp only [partsSignum, UnpackedFloat.Sign.apply] <;> omega
  rcases lt_trichotomy k 0 with hlt | rfl | hgt
  · obtain ⟨n, rfl⟩ := Int.exists_eq_neg_ofNat hlt.le
    exact hsigned .negative (by omega)
  · exact ⟨trivial, iff_of_false (lt_irrefl _) (lt_irrefl _)⟩
  · obtain ⟨n, rfl⟩ := Int.eq_ofNat_of_zero_le hgt.le
    exact hsigned .positive (by omega)

/-- The sign of a difference tells which of two finite doubles is on the lower level. -/
theorem partsSignum_sub {a b : UnpackedFloat} (ha : IsOrdered a) (hb : IsOrdered b) :
    IsPackable (UnpackedFloat.sub Format.binary64 a b) ∧
      (partsSignum (UnpackedFloat.sub Format.binary64 a b) < 0 ↔ partsLevel a < partsLevel b) := by
  have hnegative : -UnpackedFloat.Sign.negative = .positive := rfl
  have hpositive : -UnpackedFloat.Sign.positive = .negative := rfl
  cases ha with
  | infinity s | zero s =>
    cases hb with
    | infinity t | zero t => cases s <;> cases t <;> exact ⟨trivial, by decide⟩
    | finite t hpos hplaced =>
      obtain ⟨hlow, hhigh⟩ := hplaced.bounds hpos
      refine ⟨by first | exact trivial | exact hplaced.isRounded, ?_⟩
      cases s <;> cases t <;> simp only [UnpackedFloat.sub, partsSignum, partsLevel,
        UnpackedFloat.Sign.apply, hnegative, hpositive] <;> omega
  | @finite s m e hm hplaced =>
    cases hb with
    | infinity t | zero t =>
      obtain ⟨hlow, hhigh⟩ := hplaced.bounds hm
      refine ⟨by first | exact trivial | exact hplaced.isRounded, ?_⟩
      cases s <;> cases t <;> simp only [UnpackedFloat.sub, partsSignum, partsLevel,
        UnpackedFloat.Sign.apply, hnegative, hpositive] <;> omega
    | @finite t n f hn hplaced' =>
      have hless := hplaced.aligned_lt_iff hplaced'
      have hmore := hplaced'.aligned_lt_iff hplaced
      rw [min_comm f e] at hmore
      have hlow := (hplaced.bounds hm).1
      have hlow' := (hplaced'.bounds hn).1
      obtain ⟨hpackable, hsignum⟩ := partsSignum_normalize
        (k := s.apply (decreaseExponent m e (min e f)).1 -
          t.apply (decreaseExponent n f (min e f)).1) (le_min hplaced.least hplaced'.least)
      refine ⟨hpackable, hsignum.trans ?_⟩
      have hmpos : 0 < (decreaseExponent m e (min e f)).1 := by
        rw [fst_decreaseExponent]
        exact Nat.mul_pos hm (Nat.two_pow_pos _)
      have hnpos : 0 < (decreaseExponent n f (min e f)).1 := by
        rw [fst_decreaseExponent]
        exact Nat.mul_pos hn (Nat.two_pow_pos _)
      cases s <;> cases t <;> simp only [partsLevel, UnpackedFloat.Sign.apply] <;> omega

/-- A difference is negative exactly if the first double is the smaller one: differences of
different doubles are not rounded to zero. -/
theorem sub_lt_zero_iff (x y : Float) : x - y < 0 ↔ x < y := by
  have hsub : (x - y).toBits.toBitVec = pack Format.binary64
      (UnpackedFloat.sub Format.binary64 x.toModel.unpack y.toModel.unpack) := rfl
  by_cases hx : x.isNaN = false
  · by_cases hy : y.isNaN = false
    · obtain ⟨hxordered, hxlevel⟩ := isOrdered_of_isNaN hx
      obtain ⟨hyordered, hylevel⟩ := isOrdered_of_isNaN hy
      obtain ⟨hpackable, hsignum⟩ := partsSignum_sub hxordered hyordered
      rw [lt_zero_iff_of_pack hpackable hsub, hsignum, lt_iff hx hy, hxlevel, hylevel]
    · rw [unpack_of_isNaN hy] at hsub
      rw [lt_iff_compare (y := y), unpack_of_isNaN hy]
      generalize x.toModel.unpack = a at hsub ⊢
      cases a with
      | notANumber | infinity s | zero s | finite s m e hpos =>
        rw [lt_zero_iff_of_pack (a := .notANumber) trivial hsub]
        exact iff_of_false (lt_irrefl _) nofun
  · rw [unpack_of_isNaN hx] at hsub
    rw [lt_iff_compare (y := y), unpack_of_isNaN hx,
      lt_zero_iff_of_pack (a := .notANumber) trivial hsub]
    exact iff_of_false (lt_irrefl _) nofun

end Number

end SolverPortfolio
