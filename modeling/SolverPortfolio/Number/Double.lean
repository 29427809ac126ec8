/-
# Doubles as exact numbers

A double is read as a sign, a significand and a power of two, and a positive
fraction is rounded to the double nearest to it. The order of the bit patterns
is a total order in which `-0.0` stands below `0.0` and a NaN beyond the
infinities of its sign.

Main definitions: `halfToEven`, `Parts`, `parts`, `ofRatio`, `powerOfTen`,
`orderKey`.
-/

namespace SolverPortfolio.Number

/-- The whole number nearest to `num / den`; of two equally near ones the even one. -/
def halfToEven (num den : Nat) : Nat :=
  let q := num / den
  let r := num % den
  if 2 * r < den then q else if den < 2 * r then q + 1 else q + q % 2

/-- A fraction that is expanded is rounded alike. -/
theorem halfToEven_mul {c : Nat} (hc : 0 < c) (a b : Nat) :
    halfToEven (a * c) (b * c) = halfToEven a b := by
  have hrest : 2 * (a % b * c) = 2 * (a % b) * c := (Nat.mul_assoc ..).symm
  simp only [halfToEven, Nat.mul_div_mul_right _ _ hc, Nat.mul_mod_mul_right, hrest,
    Nat.mul_lt_mul_right hc]

/-- Equal fractions are rounded alike. -/
theorem halfToEven_congr {a b c d : Nat} (hb : 0 < b) (hd : 0 < d) (h : a * d = c * b) :
    halfToEven a b = halfToEven c d := by
  rw [← halfToEven_mul hd a b, h, Nat.mul_comm b d, halfToEven_mul hb c d]

/-- A fraction of a number is not rounded beyond the number. -/
theorem halfToEven_le {a b : Nat} (hb : 0 < b) : halfToEven a b ≤ a := by
  have hmod := Nat.div_add_mod a b
  unfold halfToEven
  dsimp only
  split
  · exact Nat.div_le_self a b
  · -- Only a quotient with a rest is rounded up, and such a one is smaller than the dividend.
    have hup : b < 2 * (a % b) ∨ 2 * (a % b) = b → a / b + 1 ≤ a := by
      intro h
      have hle : a / b ≤ b * (a / b) := Nat.le_mul_of_pos_left _ hb
      omega
    split
    · next h => exact hup (Or.inl h)
    · have hparity : a / b % 2 ≤ 1 := Nat.le_of_lt_succ (Nat.mod_lt _ (by decide))
      have hle := hup (Or.inr (by omega))
      omega

/-- What a double stands for. A finite one is `significand * 2 ^ exponent` with a sign. -/
inductive Parts where
  | nan
  | infinite (negative : Bool)
  | finite (negative : Bool) (significand : Nat) (exponent : Int)
  deriving Repr, DecidableEq

/-- Reads the 64 bits of a double: a sign bit, eleven bits of exponent, 52 of fraction. -/
def partsOfBits (bits : Nat) : Parts :=
  let negative : Bool := Nat.pow 2 63 ≤ bits
  let power : Nat := bits / Nat.pow 2 52 % Nat.pow 2 11
  let fraction : Nat := bits % Nat.pow 2 52
  if power = 2047 then
    if fraction = 0 then .infinite negative else .nan
  else if power = 0 then .finite negative fraction (-1074)
  else .finite negative (Nat.pow 2 52 + fraction) ((power : Int) - 1075)

/-- What the double `x` stands for. -/
def parts (x : Float) : Parts := partsOfBits x.toBits.toNat

/-- The bits of the double nearest to the positive fraction `num / den`, ties going to the even
significand; infinity where the fraction is too large. -/
def bitsOfRatio (num den : Nat) : Nat :=
  let guess : Int := (num.log2 : Int) - den.log2
  let below : Bool :=
    if guess < 0 then num * Nat.pow 2 guess.natAbs < den else num < den * Nat.pow 2 guess.natAbs
  let top := if below then guess - 1 else guess
  let e := max (top - 52) (-1074)
  let q :=
    if e < 0 then halfToEven (num * Nat.pow 2 e.natAbs) den
    else halfToEven num (den * Nat.pow 2 e.natAbs)
  min ((e + 1074).toNat * Nat.pow 2 52 + q) (2047 * Nat.pow 2 52)

/-- The double nearest to `num / den`, where `den` is positive. -/
def ofRatio (num den : Nat) : Float :=
  if num = 0 then 0 else Float.ofBits (bitsOfRatio num den).toUInt64

/-- The double nearest to `10 ^ k`. -/
def powerOfTen (k : Nat) : Float := ofRatio (Nat.pow 10 k) 1

/-- Increases along the total order of doubles by bit pattern. -/
def orderKey (x : Float) : Int :=
  let bits := x.toBits.toNat
  if Nat.pow 2 63 ≤ bits then -1 - ((bits - Nat.pow 2 63 : Nat) : Int) else (bits : Int)

end SolverPortfolio.Number
