import SolverPortfolio.Memory
import SolverPortfolio.Proofs.DoubleSums

/-
# How the memory limit grows

The limit of a solver does not fall when the available memory grows: the percentage of it is a
product and a quotient of doubles, and rounding to the nearest double keeps the order, as cutting
off does. A number of MiB is turned into bytes in 64 bits, however, so that only its last 44 binary
digits count, and the limit falls where the others change.

Main statements: `MemoryLimit.bytes_mono`, `MemoryLimit.bytes_hundred`,
`MemoryLimit.bytes_le_bytes_iff`.
-/

namespace SolverPortfolio

namespace MemoryLimit

open Number
open Float.Model (UnpackedFloat Format)
open Float.Model.UnpackedFloat (pack)

variable {total total' : ℕ} {percent : Float}

/-! ## Percentages -/

/-- One hundred is not too large for a double. -/
theorem hundred_lt : (100 : ℚ) < 2 ^ 1024 := lt_two_pow_1024 (n := 7) (by norm_num) (by norm_num)

/-- The significand and the power of two of one hundred. -/
theorem parts_hundred : parts 100 = .finite false 7036874417766400 (-46) := by decide +kernel

/-- The double one hundred stands for one hundred. -/
theorem denotes_hundred : Denotes false 100 (parts 100) := by
  rw [parts_hundred]
  exact ⟨rfl, by norm_num, hundred_lt⟩

/-- What is undefined or a zero with a sign. -/
def IsVoid (x : Float) : Prop :=
  x.toModel.unpack = .notANumber ∨ ∃ s, x.toModel.unpack = .zero s

/-- A percentage that is clamped is undefined, a zero with a sign, or at most one hundred. -/
theorem clamp_cases (percent : Float) : IsVoid (Quantity.clamp 0 100 percent) ∨
    ∃ p, Denotes false p (parts (Quantity.clamp 0 100 percent)) ∧ p ≤ 100 := by
  unfold Quantity.clamp
  split
  · exact Or.inr ⟨0, denotes_signed_zero false, by norm_num⟩
  · next hlow =>
    split
    · exact Or.inr ⟨100, denotes_hundred, le_rfl⟩
    · next hhigh =>
      have hlow' : ¬ percent < 0 := fun h => hlow (decide_eq_true h)
      have hhigh' : ¬ 100 < percent := fun h => hhigh (decide_eq_true h)
      rcases unpack_cases percent with hnan | hzero | hneg | htop | ⟨p, hp, hlt⟩
      · exact Or.inl (Or.inl hnan)
      · exact Or.inl (Or.inr hzero)
      · exact absurd hneg hlow'
      · refine absurd (lt_iff_compare.mpr ?_) hhigh'
        rw [htop]
        decide
      · exact Or.inr ⟨p, hp, not_lt.mp fun h => hhigh'
          ((lt_iff_of_denotes denotes_hundred hp hundred_lt hlt).mpr h)⟩

/-! ## The limit of a solver -/

/-- A double has the parts of what it is put together from, if that is void. -/
theorem isVoid_of_pack {x : Float} {a : UnpackedFloat}
    (ha : a = .notANumber ∨ ∃ s, a = .zero s)
    (hx : x.toBits.toBitVec = pack Format.binary64 a) : IsVoid x := by
  have hunpack : x.toModel.unpack = UnpackedFloat.unpack Format.binary64 (pack Format.binary64 a) :=
    congrArg (UnpackedFloat.unpack Format.binary64) hx
  rcases ha with rfl | ⟨s, rfl⟩
  · exact Or.inl (hunpack.trans rfl)
  · exact Or.inr ⟨s, hunpack.trans (by cases s <;> rfl)⟩

/-- A number times what is void is void. -/
theorem IsVoid.mul {x y : Float} {t : ℚ} (hy : IsVoid y) (hx : Denotes false t (parts x))
    (ht : t < 2 ^ 1024) : IsVoid (x * y) := by
  obtain ⟨m, e, hparts, -⟩ := exists_parts_of_denotes ht hx
  refine isVoid_of_pack
    (a := UnpackedFloat.mul Format.binary64 x.toModel.unpack y.toModel.unpack) ?_ rfl
  rcases unpack_of_parts hparts with ⟨-, hx⟩ | ⟨hm, hx⟩
  all_goals
    rw [hx]
    rcases hy with hy | ⟨s, hy⟩
    all_goals rw [hy]
    · exact Or.inl rfl
    · exact Or.inr ⟨_, rfl⟩

/-- A part of what is void is void. -/
theorem IsVoid.div_hundred {x : Float} (hx : IsVoid x) : IsVoid (x / 100) := by
  refine isVoid_of_pack
    (a := UnpackedFloat.div Format.binary64 x.toModel.unpack (100 : Float).toModel.unpack) ?_ rfl
  rcases unpack_of_parts parts_hundred with ⟨hzero, -⟩ | ⟨hpos, hhundred⟩
  · exact absurd hzero (by decide)
  · rw [hhundred]
    rcases hx with hx | ⟨s, hx⟩
    all_goals rw [hx]
    · exact Or.inl rfl
    · exact Or.inr ⟨_, rfl⟩

/-- What is void is cut off to nothing. -/
theorem IsVoid.toUInt64 {x : Float} (hx : IsVoid x) : x.toUInt64 = 0 := by
  have hword : x.toUInt64 =
    UInt64.ofNatClamp (UnpackedFloat.toInt 0 (UInt64.size - 1) x.toModel.unpack).toNat := rfl
  rw [hword]
  rcases hx with hx | ⟨s, hx⟩
  all_goals
    rw [hx]
    rfl

/-- Without a percentage, or with a zero, there is no memory for a solver. -/
theorem bytes_of_isVoid (h : IsVoid (Quantity.clamp 0 100 percent)) (hlt : total < 2 ^ 64) :
    bytes ⟨total, percent⟩ = 0 := by
  obtain ⟨t, ht, htdenotes⟩ := exists_denotes_ofNat total
  have ht' : t ≤ 2 ^ 64 := ht.le_of_le (isDouble_two_pow 64) (by exact_mod_cast hlt.le)
  have hproduct := h.mul htdenotes (lt_two_pow_1024 ht' (by norm_num))
  rw [bytes, hproduct.div_hundred.toUInt64]
  rfl

/-- With a percentage the limit is computed in two roundings. -/
theorem exists_bytes_eq {p : ℚ} (hp : Denotes false p (parts (Quantity.clamp 0 100 percent)))
    (hle : p ≤ 100) {total : ℕ} (htotal : total < 2 ^ 64) :
    ∃ t c d, IsNearest total t ∧ IsNearest (t * p) c ∧ IsNearest (c / 100) d ∧
      bytes ⟨total, percent⟩ = min ⌊d⌋₊ (2 ^ 64 - 1) := by
  obtain ⟨t, ht, htdenotes⟩ := exists_denotes_ofNat total
  have ht' : t ≤ 2 ^ 64 := ht.le_of_le (isDouble_two_pow 64) (by exact_mod_cast htotal.le)
  have hp' : p ≤ 2 ^ 7 := hle.trans (by norm_num)
  obtain ⟨c, hc, hcdenotes⟩ := exists_isNearest_mul htdenotes hp
    (lt_two_pow_1024 ht' (by norm_num)) (lt_two_pow_1024 hp' (by norm_num))
  have hc' : c ≤ 2 ^ 71 := by
    refine hc.le_of_le (isDouble_two_pow 71) ?_
    calc t * p ≤ 2 ^ 64 * 2 ^ 7 := mul_le_mul ht' hp' hp.nonneg (by positivity)
      _ = 2 ^ 71 := by norm_num
  obtain ⟨d, hd, hddenotes⟩ := exists_isNearest_div hcdenotes denotes_hundred
    (lt_two_pow_1024 hc' (by norm_num)) hundred_lt (by norm_num)
  have hd' : d ≤ 2 ^ 71 := by
    refine hd.le_of_le (isDouble_two_pow 71) ?_
    rw [div_le_iff₀ (by norm_num)]
    linarith
  exact ⟨t, c, d, ht, hc, hd, toNat_toUInt64 hddenotes (lt_two_pow_1024 hd' (by norm_num))⟩

/-- More memory leaves a solver no less. -/
theorem bytes_mono (hle : total ≤ total') (hlt : total' < 2 ^ 64) (percent : Float) :
    bytes ⟨total, percent⟩ ≤ bytes ⟨total', percent⟩ := by
  rcases clamp_cases percent with hvoid | ⟨p, hp, hple⟩
  · rw [bytes_of_isVoid hvoid (hle.trans_lt hlt)]
    exact Nat.zero_le _
  · obtain ⟨t, c, d, ht, hc, hd, heq⟩ := exists_bytes_eq hp hple (hle.trans_lt hlt)
    obtain ⟨t', c', d', ht', hc', hd', heq'⟩ := exists_bytes_eq hp hple hlt
    have htt : t ≤ t' := ht.mono ht' (by exact_mod_cast hle)
    have hcc : c ≤ c' := hc.mono hc' (mul_le_mul_of_nonneg_right htt hp.nonneg)
    have hdd : d ≤ d' := hd.mono hd' (div_le_div_of_nonneg_right hcc (by norm_num))
    rw [heq, heq']
    exact min_le_min_right _ (Nat.floor_mono hdd)

/-- A number of MiB that does not need all the digits of a double is a double. -/
theorem isDouble_mib {n : ℕ} (hn : n < 2 ^ 53) : IsDouble ((n * bytesPerMiB : ℕ) : ℚ) := by
  refine ⟨n, 20, by rw [Nat.abs_cast]; exact_mod_cast hn, by norm_num, ?_⟩
  rw [bytesPerMiB, Nat.cast_mul]
  norm_num

/-- The limit of one hundred percent is all the memory, if it has not too many digits. -/
theorem bytes_hundred {k : ℕ} (hk : k < 2 ^ 44) :
    bytes ⟨k * bytesPerMiB, 100⟩ = k * bytesPerMiB := by
  have hpercent : Denotes false 100 (parts (Quantity.clamp 0 100 (100 : Float))) := denotes_hundred
  have hlt : k * bytesPerMiB < 2 ^ 64 := by
    rw [bytesPerMiB, Nat.pow_eq]
    omega
  obtain ⟨t, c, d, ht, hc, hd, heq⟩ := exists_bytes_eq hpercent le_rfl hlt
  have ht' := ht.eq_of_isDouble (isDouble_mib (by omega))
  have hproduct : t * 100 = ((k * 100 * bytesPerMiB : ℕ) : ℚ) := by
    rw [ht']
    push_cast
    ring
  have hc' := hc.eq_of_isDouble (hproduct ▸ isDouble_mib (by omega))
  have hquotient : c / 100 = ((k * bytesPerMiB : ℕ) : ℚ) := by
    rw [hc', ht', mul_div_cancel_right₀ _ (by norm_num)]
  have hd' := hd.eq_of_isDouble (hquotient ▸ isDouble_mib (by omega))
  rw [heq, hd', hquotient, Nat.floor_natCast, min_eq_left (by omega)]

/-- Only the last 44 binary digits of a number of MiB count. -/
theorem bytesOfMiB_eq (mib : ℕ) : bytesOfMiB mib = mib % 2 ^ 44 * bytesPerMiB := by
  have hsplit : Nat.pow 2 64 = 2 ^ 44 * bytesPerMiB := by decide
  rw [bytesOfMiB, hsplit, Nat.mul_mod_mul_right]

/-- The memory that a setting asks for is computed without loss just if it has at most 44 binary
digits, and of two settings the first one leaves solvers no more than the second one, at each
percentage, just if it does not ask for more in these digits. -/
theorem bytes_le_bytes_iff {first second : List Char} {mib mib' : ℕ}
    (hfirst : Text.readNat? (Nat.pow 2 64 - 1) first = some mib)
    (hsecond : Text.readNat? (Nat.pow 2 64 - 1) second = some mib') (machine : ℕ) :
    (available (some first) machine = mib * bytesPerMiB ↔ mib < 2 ^ 44) ∧
    ((∀ percent, bytes ⟨available (some first) machine, percent⟩
        ≤ bytes ⟨available (some second) machine, percent⟩) ↔ mib % 2 ^ 44 ≤ mib' % 2 ^ 44) := by
  have havailable {text : List Char} {n : ℕ}
      (h : Text.readNat? (Nat.pow 2 64 - 1) text = some n) :
      available (some text) machine = n % 2 ^ 44 * bytesPerMiB := by
    rw [← bytesOfMiB_eq, available, Option.bind_some, h]
  have hpos : 0 < bytesPerMiB := by decide
  rw [havailable hfirst, havailable hsecond]
  refine ⟨?_, fun h => ?_, fun h percent => ?_⟩
  · rw [Nat.mul_right_cancel_iff hpos]
    exact ⟨fun h => h ▸ Nat.mod_lt _ (by norm_num), Nat.mod_eq_of_lt⟩
  · have hall := h 100
    rw [bytes_hundred (Nat.mod_lt _ (by norm_num)),
      bytes_hundred (Nat.mod_lt _ (by norm_num))] at hall
    exact Nat.le_of_mul_le_mul_right hall hpos
  · refine bytes_mono (Nat.mul_le_mul_right _ h) ?_ percent
    rw [← bytesOfMiB_eq]
    exact bytesOfMiB_lt mib'

/-- A setting of 4096 leaves solvers no more than one of 8192. -/
theorem bytes_4096_le_bytes_8192 :
    Text.readNat? (Nat.pow 2 64 - 1) "4096".toList = some 4096 ∧
      Text.readNat? (Nat.pow 2 64 - 1) "8192".toList = some 8192 ∧
      ∀ percent, bytes ⟨available (some "4096".toList) 0, percent⟩
        ≤ bytes ⟨available (some "8192".toList) 0, percent⟩ := by
  have hfirst : Text.readNat? (Nat.pow 2 64 - 1) "4096".toList = some 4096 := by decide
  have hsecond : Text.readNat? (Nat.pow 2 64 - 1) "8192".toList = some 8192 := by decide
  exact ⟨hfirst, hsecond, (bytes_le_bytes_iff hfirst hsecond 0).2.mpr (by decide)⟩

/-- The first number of MiB with 45 binary digits leaves solvers nothing, the number before it
leaves them all the memory that it stands for. -/
theorem bytes_17592186044416_lt :
    Text.readNat? (Nat.pow 2 64 - 1) "17592186044415".toList = some 17592186044415 ∧
      Text.readNat? (Nat.pow 2 64 - 1) "17592186044416".toList = some 17592186044416 ∧
      available (some "17592186044416".toList) 0 = 0 ∧
      bytes ⟨available (some "17592186044416".toList) 0, 100⟩
        < bytes ⟨available (some "17592186044415".toList) 0, 100⟩ := by
  decide +kernel

end MemoryLimit

end SolverPortfolio
