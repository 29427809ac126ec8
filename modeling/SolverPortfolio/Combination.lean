/-
# Combinations and their ranks

`choose n k` counts the `k`-element subsets of an `n`-element list in 64-bit
words: it is the binomial coefficient, or `maxCount` where that is larger.
`unrank h k xs` is the subset of rank `h` among the `k`-element subsets of `xs`
in lexicographic order of positions, found without listing the others, and
`subsets k xs` lists them all in that order.

Main definitions: `choose`, `binomial`, `positions`, `unrank`, `subsets`.
-/

namespace SolverPortfolio.Combination

/-- The largest count that a 64-bit word holds. -/
def maxCount : Nat := Nat.pow 2 64 - 1

/-- A binomial coefficient was asked for a negative argument. -/
structure NegativeArgument where
  n : Int
  k : Int
  deriving Repr, DecidableEq

/-- The text shown for a negative argument. -/
def NegativeArgument.message (e : NegativeArgument) : String :=
  s!"negative argument in binomial coefficient: n = {e.n}, k = {e.k}"

/-- A subset was asked for a rank at or above the number of subsets. -/
structure RankOutOfRange where
  rank : Nat
  count : Nat
  deriving Repr, DecidableEq

/-- The text shown for a rank that no subset has. -/
def RankOutOfRange.message (e : RankOutOfRange) : String :=
  s!"subset rank {e.rank} is out of range: there are only {e.count} subsets"

/-! ## Counting -/

/-- Continues from `acc`, the number of `i`-element subsets of `delta + i` elements, for `todo`
more steps; each step multiplies before it divides, so that the division is exact. A value above
`maxCount` ends the walk at once: these numbers only grow. -/
def climb (delta : Nat) : Nat → Nat → Nat → Nat
  | 0, _, acc => acc
  | todo + 1, i, acc =>
    let next := acc * (delta + (i + 1)) / (i + 1)
    if maxCount < next then maxCount else climb delta todo (i + 1) next

/-- The number of `k`-element subsets of `n` elements, at most `maxCount`. -/
def choose (n k : Nat) : Nat :=
  if n < k then 0
  else if k = 0 ∨ n = k then 1
  else
    let small := min k (n - k)
    let delta := n - small
    climb delta (small - 1) 1 (delta + 1)

/-- The binomial coefficient of signed arguments, neither of which may be negative. -/
def binomial (n k : Int) : Except NegativeArgument Nat :=
  if n < 0 ∨ k < 0 then .error ⟨n, k⟩ else .ok (choose n.toNat k.toNat)

/-! ## Ranks -/

/-- The largest `v` below `a` with `choose v b ≤ x`; `0` where there is none. -/
def largestBelow (b x : Nat) : Nat → Nat
  | 0 => 0
  | v + 1 => if choose v b ≤ x then v else largestBelow b x v

/-- The positions of a `b`-element subset of the last `a` of `n` positions, of which `x` subsets
come later in lexicographic order. -/
def positions (n : Nat) : Nat → Nat → Nat → List Nat
  | 0, _, _ => []
  | b + 1, a, x =>
    let v := largestBelow (b + 1) x a
    (n - 1 - v) :: positions n b v (x - choose v (b + 1))

/-- The subset of rank `h` among the `k`-element subsets of `xs`. -/
def unrank {α : Type} (h k : Nat) (xs : List α) : Except RankOutOfRange (List α) :=
  let n := xs.length
  let count := choose n k
  if count ≤ h then .error ⟨h, count⟩
  else .ok ((positions n k n (count - 1 - h)).filterMap fun p => xs[p]?)

/-- All `k`-element subsets of `xs`, in the order of their ranks. -/
def subsets {α : Type} (k : Nat) (xs : List α) : List (List α) :=
  (List.range (choose xs.length k)).filterMap fun h => (unrank h k xs).toOption

end SolverPortfolio.Combination
