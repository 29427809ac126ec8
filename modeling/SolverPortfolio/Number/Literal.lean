import SolverPortfolio.Number.Double
import SolverPortfolio.Text.Integer

/-
# Decimal numerals

A numeral is a sign, digits before and after a point, and a power of ten. It
denotes a rational number; two readings turn it into a double. `toFloat` rounds
the rational to the nearest double. `scaled?` keeps the leading 64 bits of the
digits and moves the point by multiplying or dividing with powers of ten in
double arithmetic, and has no value where that leaves the finite range.

Main definitions: `Literal`, `Literal.toFloat`, `Literal.scaled?`,
`readFloat`.
-/

namespace SolverPortfolio.Number

open SolverPortfolio.Text (isDigit digitValue digitsValue)

/-- A decimal numeral: digits before and after the point, and the power of ten that follows. -/
structure Literal where
  negative : Bool
  whole : List Char
  fraction : List Char
  exponent : Int
  deriving Repr, DecidableEq

namespace Literal

/-- All digits read as one whole number. -/
def significand (l : Literal) : Nat := digitsValue (l.whole ++ l.fraction)

/-- The power of ten that scales the significand. -/
def power (l : Literal) : Int := l.exponent - l.fraction.length

/-- Is the numeral a zero? -/
def isZero (l : Literal) : Bool := l.significand == 0

/-- Sets the sign of a double that has none. -/
def signed (negative : Bool) (x : Float) : Float := if negative then -x else x

/-! ## The nearest double -/

/-- The double nearest to the number the numeral denotes; infinity beyond the finite range. A
numeral whose first digit lies far outside that range is decided by the place of the digit. -/
def toFloat (l : Literal) : Float :=
  let significant := (l.whole ++ l.fraction).dropWhile (· = '0')
  let place : Int := l.power + significant.length
  let size : Float :=
    if significant.isEmpty || place < -400 then 0
    else if 400 < place then 1 / 0
    else if l.power < 0 then ofRatio (digitsValue significant) (Nat.pow 10 l.power.natAbs)
    else ofRatio (digitsValue significant * Nat.pow 10 l.power.natAbs) 1
  signed l.negative size

/-! ## Scaling a 64-bit significand -/

/-- The largest 64-bit significand. -/
def maxSignificand : Nat := Nat.pow 2 64 - 1

/-- Takes digits into a significand while it fits 64 bits. The result is the significand, the
number of digits taken and the digits left. -/
def takeDigits (acc taken : Nat) : List Char → Nat × Nat × List Char
  | [] => (acc, taken, [])
  | d :: ds =>
    let next := 10 * acc + digitValue d
    if maxSignificand < next then (acc, taken, d :: ds) else takeDigits next (taken + 1) ds

/-- Multiplies or divides `x` by the power of ten `10 ^ e`, at most 308 places at a time; a product
that is not finite has no value. -/
def scaleBy? : Nat → Float → Int → Option Float
  | 0, _, _ => none
  | fuel + 1, x, e =>
    if e.natAbs ≤ 308 then
      if 0 ≤ e then
        let y := x * powerOfTen e.natAbs
        if y.isInf then none else some y
      else some (x / powerOfTen e.natAbs)
    else if x == 0 then some x
    else if 0 ≤ e then none
    else scaleBy? fuel (x / powerOfTen 308) (e + 308)

/-- The exponent of a numeral as far as it can matter: a power of ten beyond 32 bits. -/
def exponentLimit : Nat := Nat.pow 2 31 - 1

/-- The double obtained by scaling the leading 64 bits of the digits; `none` beyond the finite
range. Digits of the whole part beyond 64 bits count as a power of ten, those of the fraction are
passed over. -/
def scaled? (l : Literal) : Option Float :=
  let (whole, _, dropped) := takeDigits 0 0 l.whole
  let (m, taken, _) := takeDigits whole 0 l.fraction
  if exponentLimit < l.exponent.natAbs then
    if m ≠ 0 ∧ 0 ≤ l.exponent then none else some (signed l.negative 0)
  else
    let e := (dropped.length : Int) - taken + l.exponent
    (scaleBy? (e.natAbs / 308 + 2) (ofRatio m 1) e).map (signed l.negative)

end Literal

/-! ## Reading a number -/

/-- Why a text is no number. -/
inductive ReadError where
  | empty
  | invalid
  deriving Repr, DecidableEq

/-- The text shown for a text that is no number. -/
def ReadError.message : ReadError → String
  | .empty => "cannot parse float from empty string"
  | .invalid => "invalid float literal"

/-- The small ASCII letter of a large one. -/
def lowerCase (s : List Char) : List Char := s.map Char.toLower

/-- Reads the power of ten of a numeral: nothing, or the letter `e` in either case, an optional
sign and at least one digit. -/
def readExponent? : List Char → Option Int
  | [] => some 0
  | c :: rest =>
    if c = 'e' ∨ c = 'E' then
      let (negative, ds) := match rest with
        | '-' :: ds => (true, ds)
        | '+' :: ds => (false, ds)
        | ds => (false, ds)
      if ds.isEmpty || !ds.all isDigit then none
      else some (if negative then -(digitsValue ds : Int) else digitsValue ds)
    else none

/-- Reads a numeral without sign: digits, an optional point with digits, at least one digit in
all, and an optional power of ten. -/
def readMagnitude? (negative : Bool) (s : List Char) : Option Literal :=
  let whole := s.takeWhile isDigit
  let rest := s.dropWhile isDigit
  let (fraction, rest) := match rest with
    | '.' :: more => (more.takeWhile isDigit, more.dropWhile isDigit)
    | _ => ([], rest)
  if whole.isEmpty && fraction.isEmpty then none
  else (readExponent? rest).map fun exponent => ⟨negative, whole, fraction, exponent⟩

/-- Splits off an optional sign. -/
def splitSign : List Char → Bool × List Char
  | '-' :: rest => (true, rest)
  | '+' :: rest => (false, rest)
  | rest => (false, rest)

/-- Reads a numeral with an optional sign. -/
def readLiteral? (s : List Char) : Option Literal :=
  readMagnitude? (splitSign s).1 (splitSign s).2

/-- Reads a double: a numeral, rounded to the nearest double, or one of the words `inf`,
`infinity` and `nan` in letters of any case, each with an optional sign. -/
def readFloat (s : List Char) : Except ReadError Float :=
  if s.isEmpty then .error .empty
  else
    let (negative, rest) := splitSign s
    let word := String.ofList (lowerCase rest)
    if word = "inf" || word = "infinity" then .ok (Literal.signed negative (1 / 0))
    else if word = "nan" then .ok (0 / 0)
    else match readMagnitude? negative rest with
      | some l => .ok l.toFloat
      | none => .error .invalid

end SolverPortfolio.Number
