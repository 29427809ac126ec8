import SolverPortfolio.Number.Double

/-
# Doubles as text

`showShortest` writes the fewest digits that read back as the same double,
never with a power of ten and without a point for a whole number;
`showPlaces2` writes two digits after the point, rounding the exact value with
ties to even.

Main definitions: `shortestDigits`, `showShortest`, `showPlaces2`.
-/

namespace SolverPortfolio.Number

/-! ## The fewest digits -/

/-- The interval of numbers that round to one positive double, in units of `scaleNum / scaleDen`:
the double is `4 * significand` units. -/
structure Interval where
  low : Nat
  high : Nat
  value : Nat
  scaleNum : Nat
  scaleDen : Nat
  closed : Bool

/-- The numbers that round to `m * 2 ^ e`. Below a power of two the next double is only half as
far away. -/
def interval (m : Nat) (e : Int) : Interval :=
  { low := if m = Nat.pow 2 52 ∧ -1074 < e then 4 * m - 1 else 4 * m - 2
    high := 4 * m + 2
    value := 4 * m
    scaleNum := Nat.pow 2 e.toNat
    scaleDen := 4 * Nat.pow 2 (-e).toNat
    closed := m % 2 = 0 }

/-- Does `d * 10 ^ g` lie in the interval? -/
def Interval.contains (i : Interval) (d : Nat) (g : Int) : Bool :=
  let x := d * Nat.pow 10 g.toNat * i.scaleDen
  let unit := Nat.pow 10 (-g).toNat * i.scaleNum
  if i.closed then i.low * unit ≤ x && x ≤ i.high * unit
  else i.low * unit < x && x < i.high * unit

/-- The multiple of `10 ^ g` in the interval that is nearest to its double, the greater one of two
that are equally near, if one of the two neighbours of the double on that grid lies in the
interval. -/
def Interval.onGrid? (i : Interval) (g : Int) : Option Nat :=
  let num := i.value * i.scaleNum * Nat.pow 10 (-g).toNat
  let den := i.scaleDen * Nat.pow 10 g.toNat
  let d := num / den
  match 0 < d && i.contains d g, i.contains (d + 1) g with
  | true, true => some (if 2 * (num % den) < den then d else d + 1)
  | true, false => some d
  | false, true => some (d + 1)
  | false, false => none

/-- The coarsest grid `10 ^ g` with a point in the interval, tried from `g` downwards. -/
def Interval.firstGrid (i : Interval) : Nat → Int → Nat × Int
  | 0, g => (0, g)
  | fuel + 1, g =>
    match i.onGrid? g with
    | some d => (d, g)
    | none => i.firstGrid fuel (g - 1)

/-- Digits `d` and a power of ten `g` such that `d * 10 ^ g` reads back as the positive double
`m * 2 ^ e`, with the fewest digits. A double has at most 17 of them, and the search begins at
most two places above the first. -/
def shortestDigits (m : Nat) (e : Int) : Nat × Int :=
  let top : Int := ((m.log2 : Int) + 1 + e) * 30103 / 100000 + 1
  (interval m e).firstGrid 24 top

/-! ## Positional text -/

/-- The digits of a number with zeros in front, at least `width` of them. -/
def padded (width n : Nat) : String :=
  let ds := toString n
  String.ofList (List.replicate (width - ds.length) '0') ++ ds

/-- Writes `d * 10 ^ g` without a power of ten. -/
def positional (d : Nat) (g : Int) : String :=
  if 0 ≤ g then toString d ++ String.ofList (List.replicate g.toNat '0')
  else
    let places := g.natAbs
    let ds := (padded (places + 1) d).toList
    String.ofList (ds.take (ds.length - places)) ++ "." ++
      String.ofList (ds.drop (ds.length - places))

/-- A minus sign in front of the text of a negative number. -/
def withSign (negative : Bool) (text : String) : String :=
  if negative then "-" ++ text else text

/-- Writes the fewest digits that read back as `x`. -/
def showShortest (x : Float) : String :=
  match parts x with
  | .nan => "NaN"
  | .infinite negative => withSign negative "inf"
  | .finite negative 0 _ => withSign negative "0"
  | .finite negative m e =>
    let (d, g) := shortestDigits m e
    withSign negative (positional d g)

/-- Writes `x` with two digits after the point. -/
def showPlaces2 (x : Float) : String :=
  match parts x with
  | .nan => "NaN"
  | .infinite negative => withSign negative "inf"
  | .finite negative m e =>
    let hundredths := halfToEven (m * Nat.pow 2 e.toNat * 100) (Nat.pow 2 (-e).toNat)
    withSign negative (toString (hundredths / 100) ++ "." ++ padded 2 (hundredths % 100))

end SolverPortfolio.Number
