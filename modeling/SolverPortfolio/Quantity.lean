import SolverPortfolio.Number.Literal

/-
# The numbers of schedules

Times, scores and features are doubles when the program runs, and exact
rationals when one reasons about the rules alone. `Quantity` names what the
rules need of a number, so that each rule is stated once for both.

Main definitions: `Quantity`, `Quantity.sum`, `Quantity.larger`,
`Quantity.clamp`.
-/

namespace SolverPortfolio

open SolverPortfolio.Number

/-- Numbers with the operations that schedules are computed with. -/
class Quantity (α : Type) extends Zero α, Add α, Sub α, Mul α, Div α, BEq α where
  /-- The sum of no numbers: adding it changes no number, nor the sign of a zero. -/
  emptySum : α
  /-- The number nearest to `num / den`. -/
  ofRatio : Nat → Nat → α
  /-- The number a numeral stands for, if it is not too large. -/
  ofLiteral? : Literal → Option α
  /-- Is the first number smaller? -/
  lt : α → α → Bool
  /-- A total order for sorting, which agrees with `lt`. -/
  sortsBefore : α → α → Bool
  /-- Infinity, if it is one of the numbers. -/
  infinity? : Option α

namespace Quantity

variable {α : Type} [Quantity α]

/-- A whole number. -/
def ofNat (n : Nat) : α := ofRatio n 1

/-- The sum of the numbers from left to right. -/
def sum (xs : List α) : α := xs.foldl (· + ·) emptySum

/-- The larger of two numbers; one that differs from itself never wins. -/
def larger (a b : α) : α :=
  if lt a b then b else if a == a then a else b

/-- Moves a number into the range from `low` to `high`. -/
def clamp (low high x : α) : α :=
  if lt x low then low else if lt high x then high else x

/-- Is the number below infinity? -/
def isBounded (x : α) : Bool :=
  match (infinity? : Option α) with
  | some top => lt x top
  | none => true

/-- Is the number infinity? -/
def isInfinity (x : α) : Bool :=
  match (infinity? : Option α) with
  | some top => x == top
  | none => false

/-- The sorting order on numbers of which `none` stands for infinity. -/
def extendedSortsBefore : Option α → Option α → Bool
  | some x, some y => sortsBefore x y
  | some x, none =>
    match (infinity? : Option α) with
    | some top => sortsBefore x top
    | none => true
  | none, some y =>
    match (infinity? : Option α) with
    | some top => sortsBefore top y
    | none => false
  | none, none => true

end Quantity

/-- Doubles: a numeral is read through its leading 64 bits, and the order of sorting is that of
the bit patterns. -/
instance : Quantity Float where
  zero := 0
  emptySum := -0.0
  ofRatio := Number.ofRatio
  ofLiteral? := Literal.scaled?
  lt x y := decide (x < y)
  sortsBefore x y := decide (orderKey x ≤ orderKey y)
  infinity? := some (1 / 0)

/-- Exact rationals. -/
instance : Quantity Rat where
  zero := 0
  emptySum := 0
  ofRatio num den := mkRat num den
  ofLiteral? l :=
    let size : Rat :=
      if 0 ≤ l.power then ((l.significand * Nat.pow 10 l.power.natAbs : Nat) : Rat)
      else mkRat l.significand (Nat.pow 10 l.power.natAbs)
    some (if l.negative then -size else size)
  lt x y := decide (x < y)
  sortsBefore x y := decide (x ≤ y)
  infinity? := none

end SolverPortfolio
