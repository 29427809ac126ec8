import Mathlib.Data.Nat.PSub
import SolverPortfolio.Proofs.Ranking

/-
# Counting subsets in words

A binomial coefficient is counted by a walk through smaller ones, each of which is the one before,
multiplied and then divided. The walk takes its numbers from 64-bit words and multiplies in double
words of 128 bits. The same walk with a guard before every step never gives way: a number that is
not cut off yet fits a word, so that its product with another word fits a double word, and what is
multiplied is again a binomial coefficient times the divisor. Binomial coefficients only grow along
the walk, so that a walk that is cut off early would have ended above the largest word.

Main definitions: `doubleWord?`, `quotient?`, `guardedClimb`, `guardedChoose`.
Main statements: `guardedClimb_eq`, `guardedChoose_eq`, `choose_saturates`.
-/

namespace SolverPortfolio.Combination

/-! ## The guarded walk -/

/-- A number, if a double word holds it. -/
def doubleWord? (n : Nat) : Option Nat := if n < Nat.pow 2 128 then some n else none

/-- A number, if a word holds it. -/
def word? (n : Nat) : Option Nat := if n ≤ maxCount then some n else none

/-- A quotient, if the division leaves no rest. -/
def quotient? (a b : Nat) : Option Nat := if b ∣ a then some (a / b) else none

/-- The walk of `climb` in double words; none if a sum or a product does not fit one, or a division
leaves a rest. -/
def guardedClimb (delta : Nat) : Nat → Nat → Nat → Option Nat
  | 0, _, acc => some acc
  | todo + 1, i, acc => do
    let factor ← doubleWord? (delta + (i + 1))
    let product ← doubleWord? (acc * factor)
    let next ← quotient? product (i + 1)
    if maxCount < next then some maxCount else guardedClimb delta todo (i + 1) next

/-- The count of `choose`, with a guard before every step that words and double words could
refuse; none if a guard gives way. -/
def guardedChoose (n k : Nat) : Option Nat :=
  if n < k then some 0
  else if k = 0 ∨ n = k then some 1
  else do
    let others ← n.psub k
    let delta := max k others
    let first ← doubleWord? (delta + 1)
    word? (← guardedClimb delta (min k others - 1) 1 first)

/-! ## Guards that hold -/

/-- What is below the square of the number of words fits a double word. -/
theorem doubleWord?_of_le {n : Nat} (h : n ≤ maxCount * maxCount) : doubleWord? n = some n :=
  if_pos (Nat.lt_of_le_of_lt h (by decide))

/-- A product of words fits a double word. -/
theorem doubleWord?_mul {a b : Nat} (ha : a ≤ maxCount) (hb : b ≤ maxCount) :
    doubleWord? (a * b) = some (a * b) :=
  doubleWord?_of_le (Nat.mul_le_mul ha hb)

/-- A word fits a double word. -/
theorem doubleWord?_word {n : Nat} (h : n ≤ maxCount) : doubleWord? n = some n :=
  doubleWord?_of_le (h.trans (by decide))

/-- A step of the walk divides without a rest, and leads to the next binomial coefficient. -/
theorem quotient?_choose (delta i : Nat) :
    quotient? ((delta + i).choose i * (delta + (i + 1))) (i + 1) =
      some ((delta + (i + 1)).choose (i + 1)) := by
  have hexact : i + 1 ∣ (delta + i).choose i * (delta + (i + 1)) := by
    refine ⟨(delta + i + 1).choose (i + 1), ?_⟩
    rw [Nat.mul_comm, ← Nat.add_assoc, Nat.add_one_mul_choose_eq, Nat.mul_comm]
  rw [quotient?, if_pos hexact, step_choose]

/-- No guard of the walk gives way, from a count that fits a word and as long as the numbers it is
multiplied with fit words. -/
theorem guardedClimb_eq {delta todo i : Nat} (hcount : (delta + i).choose i ≤ maxCount)
    (hword : delta + (i + todo) ≤ maxCount) :
    guardedClimb delta todo i ((delta + i).choose i) =
      some (climb delta todo i ((delta + i).choose i)) := by
  -- The induction is on the steps to come; the number reached is always a binomial coefficient.
  induction todo generalizing i with
  | zero => rfl
  | succ todo ih =>
    have hfactor : delta + (i + 1) ≤ maxCount := by omega
    simp only [guardedClimb, climb, doubleWord?_word hfactor, doubleWord?_mul hcount hfactor,
      quotient?_choose, step_choose, Option.bind_eq_bind, Option.bind_some]
    split
    · rfl
    · next hsmall => exact ih (Nat.not_lt.mp hsmall) (by omega)

/-- No guard of a whole walk gives way: one element can be chosen in as many ways as there are
elements. -/
theorem guardedClimb_one {delta todo : Nat} (hword : delta + (1 + todo) ≤ maxCount) :
    guardedClimb delta todo 1 (delta + 1) = some (climb delta todo 1 (delta + 1)) := by
  have hfirst : (delta + 1).choose 1 = delta + 1 := Nat.choose_one_right _
  have hcount : (delta + 1).choose 1 ≤ maxCount := by omega
  have hclimb := guardedClimb_eq hcount hword
  rwa [hfirst] at hclimb

/-- No guard gives way while words are counted with. -/
theorem guardedChoose_eq {n k : Nat} (hn : n ≤ maxCount) :
    guardedChoose n k = some (choose n k) := by
  have hcount := choose_eq_min (k := k) hn
  unfold guardedChoose
  unfold choose at hcount ⊢
  split
  · rfl
  · next hle =>
    split
    · rfl
    · next hinner =>
      have hdelta : max k (n - k) = n - min k (n - k) := by omega
      have hfirst : n - min k (n - k) + 1 ≤ maxCount := by omega
      have hword : n - min k (n - k) + (1 + (min k (n - k) - 1)) ≤ maxCount := by omega
      have hclimb := guardedClimb_one hword
      simp only [if_neg hle, if_neg hinner] at hcount
      simp only [Nat.psub_eq_sub (Nat.not_lt.mp hle), hdelta, doubleWord?_word hfirst, hclimb,
        Option.bind_eq_bind, Option.bind_some]
      -- What the walk ends at is the count, which fits a word.
      exact if_pos (hcount ▸ Nat.min_le_right _ _)

/-- The walk to this count goes beyond the largest word in its last step. -/
example : guardedChoose 68 34 = some maxCount := by decide +kernel

/-! ## Signed arguments -/

/-- A signed word that is not negative is read as the same number without a sign. -/
theorem toNat_toUInt64_of_nonneg {n : Int64} (h : 0 ≤ n) : n.toUInt64.toNat = n.toInt.toNat :=
  Int64.toNat_toUInt64_of_le h

/-- A signed word is negative if its number is. -/
theorem toInt_neg_iff (n : Int64) : n.toInt < 0 ↔ n < 0 := by
  rw [Int64.lt_iff_toInt_lt]
  rfl

/-- The binomial coefficient of signed words. -/
theorem binomial_toInt (n k : Int64) : binomial n.toInt k.toInt =
    if n < 0 ∨ k < 0 then .error ⟨n.toInt, k.toInt⟩
    else .ok (choose n.toUInt64.toNat k.toUInt64.toNat) := by
  unfold binomial
  simp only [toInt_neg_iff]
  split
  · rfl
  · next hsigns =>
    obtain ⟨hn, hk⟩ := not_or.mp hsigns
    rw [toNat_toUInt64_of_nonneg (Int64.not_lt.mp hn), toNat_toUInt64_of_nonneg (Int64.not_lt.mp hk)]

/-- For all words the count is the binomial coefficient, or the largest word if that is smaller; no
product on the way is too large for a double word, and every division is exact. Signed words are
refused if one of them is negative, and only then; all others are counted as words. -/
theorem choose_saturates :
    (∀ n k : UInt64,
      choose n.toNat k.toNat = min (n.toNat.choose k.toNat) (2 ^ 64 - 1) ∧
        guardedChoose n.toNat k.toNat = some (choose n.toNat k.toNat)) ∧
      ∀ n k : Int64,
        (∀ e, binomial n.toInt k.toInt = .error e ↔
          (n < 0 ∨ k < 0) ∧ e = ⟨n.toInt, k.toInt⟩) ∧
        ∀ count, binomial n.toInt k.toInt = .ok count ↔
          (0 ≤ n ∧ 0 ≤ k) ∧ count = choose n.toUInt64.toNat k.toUInt64.toNat := by
  refine ⟨fun n k => ?_, fun n k => ?_⟩
  · have hn : n.toNat ≤ maxCount := Nat.le_pred_of_lt n.toNat_lt
    exact ⟨choose_eq_min hn, guardedChoose_eq hn⟩
  · rw [binomial_toInt, ← Int64.not_lt, ← Int64.not_lt, ← not_or]
    split
    · next hsigns => simp [hsigns, eq_comm]
    · next hsigns => simp [hsigns, eq_comm]

end SolverPortfolio.Combination
