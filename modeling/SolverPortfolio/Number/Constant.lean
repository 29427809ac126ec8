import SolverPortfolio.Text.Integer

/-
# Whole numbers in three bases

A whole number is written in base sixteen after `0x`, in base eight after `0`,
and in base ten otherwise.

Main definitions: `Number.hexDigit?`, `Number.readConstant`, `Number.readWhole?`.
-/

namespace SolverPortfolio.Number

/-- The value of a digit up to `f`. -/
def hexDigit? (c : Char) : Option Nat :=
  if '0' ≤ c ∧ c ≤ '9' then some (c.toNat - 48)
  else if 'a' ≤ c ∧ c ≤ 'f' then some (c.toNat - 87)
  else if 'A' ≤ c ∧ c ≤ 'F' then some (c.toNat - 55)
  else none

/-- The digits to a base at the start of a text. -/
def digitsIn (base : Nat) (s : List Char) : List Char :=
  s.takeWhile fun c => ((hexDigit? c).map fun d => decide (d < base)).getD false

/-- The number that digits to a base denote. -/
def baseValue (base : Nat) (ds : List Char) : Nat :=
  ds.foldl (fun n c => base * n + (hexDigit? c).getD 0) 0

/-- The number at the start of a text, and how many characters it takes; that is none if there is no
number. -/
def readConstant (s : List Char) : Nat × Nat :=
  let base := if s.head? = some '0' then 8 else 10
  let plain := (baseValue base (digitsIn base s), (digitsIn base s).length)
  match s with
  | '0' :: mark :: rest =>
    let ds := digitsIn 16 rest
    if (mark = 'x' || mark = 'X') && !ds.isEmpty then (baseValue 16 ds, ds.length + 2) else plain
  | _ => plain

/-- There are no more digits than characters. -/
theorem length_digitsIn_le (base : Nat) (s : List Char) : (digitsIn base s).length ≤ s.length :=
  (List.takeWhile_prefix _).length_le

/-- A number takes no more characters than there are. -/
theorem readConstant_snd_le (s : List Char) : (readConstant s).2 ≤ s.length := by
  unfold readConstant
  generalize (if s.head? = some '0' then 8 else 10) = base
  have plain := length_digitsIn_le base s
  dsimp only
  split
  · next mark rest =>
    have hex := length_digitsIn_le 16 rest
    split
    · simp only [List.length_cons]
      omega
    · exact plain
  · exact plain

/-- Blanks that may stand before a number. -/
def isGap (c : Char) : Bool := c = ' ' || ('\t' ≤ c && c ≤ '\r')

/-- The number at the start of a text, after blanks and a sign, and what follows it. -/
def readWhole? (s : List Char) : Option (Int × List Char) :=
  let s := s.dropWhile isGap
  let (negative, s) := match s with
    | '-' :: rest => (true, rest)
    | '+' :: rest => (false, rest)
    | _ => (false, s)
  let (n, length) := readConstant s
  if length = 0 then none else some (if negative then -(n : Int) else n, s.drop length)

end SolverPortfolio.Number
