/-
# Decimal integers in texts

Reading whole numbers written in ASCII digits with an optional sign, and the
ranges of 32-bit and 64-bit words. A number of the range that is written in
decimal is read back.

Main definitions: `readNat?`, `readInt?`, `digitsValue`.
Main statements: `readDigits?_toDigits`, `readInt?_toString`.
-/

namespace SolverPortfolio.Text

/-- An ASCII digit. -/
def isDigit (c : Char) : Bool := '0' ≤ c && c ≤ '9'

/-- The number an ASCII digit stands for. -/
def digitValue (c : Char) : Nat := c.toNat - '0'.toNat

/-- The number that a row of digits denotes, after `acc` for the digits before. -/
def digitsValueFrom (acc : Nat) (ds : List Char) : Nat :=
  ds.foldl (fun n d => 10 * n + digitValue d) acc

/-- The number that a row of digits denotes. -/
def digitsValue (ds : List Char) : Nat := digitsValueFrom 0 ds

/-- Reads one or more digits that denote a number of at most `bound`. -/
def readDigits? (bound : Nat) (ds : List Char) : Option Nat :=
  if ds.isEmpty || !ds.all isDigit then none
  else
    let n := digitsValue ds
    if n ≤ bound then some n else none

/-- A row of digits denotes the number that they are the decimal digits of. -/
@[simp] theorem digitsValue_toDigits (n : Nat) : digitsValue (Nat.toDigits 10 n) = n :=
  Nat.ofDigitChars_eq_foldl.symm.trans Nat.ofDigitChars_ten_toDigits

/-- Decimal digits are digits. -/
theorem isDigit_of_mem_toDigits {n : Nat} {c : Char} (h : c ∈ Nat.toDigits 10 n) :
    isDigit c = true := by
  have hdigit := Nat.isDigit_of_mem_toDigits (by decide) (by decide) h
  rw [Char.isDigit, Bool.and_eq_true, decide_eq_true_eq, decide_eq_true_eq] at hdigit
  exact Bool.and_eq_true_iff.mpr ⟨decide_eq_true hdigit.1, decide_eq_true hdigit.2⟩

/-- The decimal digits of a number are read. -/
theorem readDigits?_toDigits {bound n : Nat} (h : n ≤ bound) :
    readDigits? bound (Nat.toDigits 10 n) = some n := by
  have hempty : (Nat.toDigits 10 n).isEmpty = false :=
    List.isEmpty_eq_false_iff.mpr Nat.toDigits_ne_nil
  have hdigits : (Nat.toDigits 10 n).all isDigit = true :=
    List.all_eq_true.mpr fun _ => isDigit_of_mem_toDigits
  simp [readDigits?, hempty, hdigits, h]

/-- Reads an unsigned number of at most `bound`: an optional plus sign, then digits. -/
def readNat? (bound : Nat) (s : List Char) : Option Nat :=
  match s with
  | '+' :: ds => readDigits? bound ds
  | ds => readDigits? bound ds

/-- Reads a signed number of a two's-complement word with `bits` bits: an optional sign, then
digits. -/
def readInt? (bits : Nat) (s : List Char) : Option Int :=
  match s with
  | '-' :: ds => (readDigits? (Nat.pow 2 (bits - 1)) ds).map fun n => -(n : Int)
  | '+' :: ds => (readDigits? (Nat.pow 2 (bits - 1) - 1) ds).map Int.ofNat
  | ds => (readDigits? (Nat.pow 2 (bits - 1) - 1) ds).map Int.ofNat

/-- A number without sign is read digit by digit. -/
theorem readInt?_of_isDigit {c : Char} {ds : List Char} (bits : Nat) (h : isDigit c = true) :
    readInt? bits (c :: ds) = (readDigits? (Nat.pow 2 (bits - 1) - 1) (c :: ds)).map Int.ofNat := by
  unfold readInt?
  split
  · next heq => cases heq; cases h
  · next heq => cases heq; cases h
  · rfl

/-- The decimal text of a number has a minus sign if the number is negative, and digits. -/
theorem toList_toString (v : Int) : (toString v).toList =
    if 0 ≤ v then Nat.toDigits 10 v.toNat else '-' :: Nat.toDigits 10 (-v).toNat := by
  rw [Int.toString_eq_repr, Int.repr_eq_if]
  split
  · rw [Nat.repr_eq_ofList_toDigits, String.toList_ofList]
  · simp [Nat.repr_eq_ofList_toDigits]

/-- The decimal text of a number consists of digits, but for the sign. -/
theorem eq_or_isDigit_of_mem_toString {v : Int} {c : Char} (h : c ∈ (toString v).toList) :
    c = '-' ∨ isDigit c = true := by
  rw [toList_toString] at h
  split at h
  · exact .inr (isDigit_of_mem_toDigits h)
  · exact (List.mem_cons.mp h).imp_right isDigit_of_mem_toDigits

/-- The numbers of a word are read as they are written. -/
theorem readInt?_toString {bits : Nat} {v : Int} (hlow : -(Nat.pow 2 (bits - 1) : Int) ≤ v)
    (hhigh : v < Nat.pow 2 (bits - 1)) : readInt? bits (toString v).toList = some v := by
  rw [toList_toString]
  split
  · have hread : readDigits? (Nat.pow 2 (bits - 1) - 1) (Nat.toDigits 10 v.toNat) = some v.toNat :=
      readDigits?_toDigits (by omega)
    cases hds : Nat.toDigits 10 v.toNat with
    | nil => exact absurd hds Nat.toDigits_ne_nil
    | cons c ds =>
      rw [readInt?_of_isDigit bits (isDigit_of_mem_toDigits (hds ▸ List.mem_cons_self)), ← hds,
        hread, Option.map_some, Int.ofNat_eq_natCast, Int.toNat_of_nonneg ‹_›]
  · have hread : readDigits? (Nat.pow 2 (bits - 1)) (Nat.toDigits 10 (-v).toNat) =
        some (-v).toNat := readDigits?_toDigits (by omega)
    rw [readInt?, hread]
    exact congrArg some (show -((-v).toNat : Int) = v by omega)

end SolverPortfolio.Text
