/-
# Ranges of code points

A property of characters is kept as the ranges of the code points that have it,
in increasing order.

Main definitions: `isInRanges`.
-/

namespace SolverPortfolio.Text

/-- Looks for a code point in the ranges between two places of the table. -/
def inRanges (table : Array (Nat × Nat)) (n : Nat) : Nat → Nat → Nat → Bool
  | 0, _, _ => false
  | fuel + 1, first, last =>
    if last ≤ first then false
    else
      let middle := (first + last) / 2
      match table[middle]? with
      | none => false
      | some (low, high) =>
        if n < low then inRanges table n fuel first middle
        else if high < n then inRanges table n fuel (middle + 1) last
        else true

/-- Is a code point in one of the ranges of a table? -/
def isInRanges (table : Array (Nat × Nat)) (n : Nat) : Bool :=
  inRanges table n (table.size + 1) 0 table.size

end SolverPortfolio.Text
