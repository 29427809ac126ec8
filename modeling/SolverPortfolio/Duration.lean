import SolverPortfolio.Number.Double
import SolverPortfolio.Quantity

/-
# Durations

Durations and instants are counted in nanoseconds, an instant from the start of
a run. Numbers of seconds are rounded to whole nanoseconds, and those that are
negative, not a number or too large for 64 bits of seconds are no durations.

Main definitions: `Duration`, `Instant`, `Duration.ofSeconds?`, `Timed`.
-/

namespace SolverPortfolio

open SolverPortfolio.Number

/-- A length of time, in nanoseconds. -/
abbrev Duration := Nat

/-- A point in time: the nanoseconds since the start of a run. -/
abbrev Instant := Nat

namespace Duration

/-- The nanoseconds of a second. -/
def perSecond : Nat := 1000000000

/-- The longest duration. -/
def longest : Duration := (Nat.pow 2 64 - 1) * perSecond + (perSecond - 1)

/-- A number of milliseconds. -/
def ofMillis (n : Nat) : Duration := n * 1000000

/-- A whole number of seconds. -/
def ofWholeSeconds (n : Nat) : Duration := n * perSecond

/-- The sum of two durations, or the longest one if that is too large. -/
def saturatingAdd (a b : Duration) : Duration := min (a + b) longest

/-- A sum of durations is a duration. -/
theorem saturatingAdd_le_longest (a b : Duration) : saturatingAdd a b ≤ longest :=
  Nat.min_le_right _ _

/-- A sum that is not too large is exact. -/
theorem saturatingAdd_of_le {a b : Duration} (h : a + b ≤ longest) : saturatingAdd a b = a + b :=
  Nat.min_eq_left h

/-- The duration of `num / den` seconds, to the nearest nanosecond, ties going to the even one. -/
def ofRatio? (num den : Nat) : Option Duration :=
  let n := halfToEven (num * perSecond) den
  if n ≤ longest then some n else none

/-- The duration of a double number of seconds. -/
def ofSeconds? (x : Float) : Option Duration :=
  match parts x with
  | .finite negative m e =>
    if negative && m ≠ 0 then none
    else if 0 ≤ e then ofRatio? (m * Nat.pow 2 e.toNat) 1
    else ofRatio? m (Nat.pow 2 (-e).toNat)
  | _ => none

/-- A duration in seconds, as a double: the whole seconds plus the rest. -/
def toSeconds (d : Duration) : Float :=
  Number.ofRatio (d / perSecond) 1 + Number.ofRatio (d % perSecond) 1 / Number.ofRatio perSecond 1

/-- A duration in whole seconds, rounded up. -/
def ceilSeconds (d : Duration) : Nat := (toSeconds d).ceil.toUInt64.toNat

end Duration

/-- Numbers that can stand for seconds. -/
class Timed (α : Type) extends Quantity α where
  /-- The duration of a number of seconds, if there is one. -/
  duration? : α → Option Duration
  /-- A duration in seconds. -/
  seconds : Duration → α

instance : Timed Float where
  duration? := Duration.ofSeconds?
  seconds := Duration.toSeconds

instance : Timed Rat where
  duration? x := if x < 0 then none else Duration.ofRatio? x.num.toNat x.den
  seconds d := mkRat d Duration.perSecond

namespace Timed

variable {α : Type} [Timed α]

/-- Is a number of seconds a time to run for? -/
def isPositive (x : α) : Bool := Quantity.lt 0 x

/-- An equal share of a duration among a number of solvers, in seconds. -/
def share (d : Duration) (among : Nat) : α := seconds d / Quantity.ofNat among

end Timed

end SolverPortfolio
