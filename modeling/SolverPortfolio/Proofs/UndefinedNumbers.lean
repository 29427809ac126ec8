import SolverPortfolio.Proofs.ExactQuantity

/-
# Exact numbers and the undefined one

Among doubles there is one that is no number. Every operation passes it on, and no comparison holds
of it, not even that with itself. This is what the rationals become when such an undefined number
is added to them. There is no infinity, so a division by zero is undefined, too.

Main definitions: `Exact`, `Exact.IsNumber`, `Exact.known?`, `Exact.filled`.
Main statements: `Exact.exists_of_compares`, `Exact.isNumber_lift`, `Exact.clamp_number`,
`Exact.clamp_undefined`.
-/

namespace SolverPortfolio

/-- A rational number, or the undefined one. -/
inductive Exact where
  | number (value : Rat)
  | undefined
  deriving DecidableEq, Repr

namespace Exact

/-! ## Operations -/

/-- An operation on numbers; it is undefined where an operand is. -/
def lift (f : Rat → Rat → Rat) : Exact → Exact → Exact
  | number x, number y => number (f x y)
  | _, _ => undefined

/-- A comparison of numbers; nothing compares with the undefined one. -/
def compares (r : Rat → Rat → Bool) : Exact → Exact → Bool
  | number x, number y => r x y
  | _, _ => false

/-- The quotient; it is undefined where an operand is, and where the divisor is zero. -/
def quotient (x y : Exact) : Exact := if y = number 0 then undefined else lift (· / ·) x y

/-- The order of sorting has the undefined one at the end. -/
def sortsBefore : Exact → Exact → Bool
  | number x, number y => decide (x ≤ y)
  | undefined, number _ => false
  | _, undefined => true

instance : Quantity Exact where
  zero := number 0
  add := lift (· + ·)
  sub := lift (· - ·)
  mul := lift (· * ·)
  div := quotient
  beq := compares (· == ·)
  emptySum := number 0
  ofRatio num den := number (mkRat num den)
  ofLiteral? l := (Quantity.ofLiteral? l).map number
  lt := compares fun x y => decide (x < y)
  sortsBefore := sortsBefore
  infinity? := none

/-- Numbers are ordered as rationals, and the undefined one stands in no order. -/
instance : LE Exact where
  le x y := compares (fun p q => decide (p ≤ q)) x y = true

instance : LT Exact where
  lt x y := Quantity.lt x y = true

instance : DecidableLE Exact := fun _ _ => inferInstanceAs (Decidable (_ = true))

instance : DecidableLT Exact := fun _ _ => inferInstanceAs (Decidable (_ = true))

section

variable {x y : Exact} {p q : Rat} {rel : Rat → Rat → Bool}

@[simp] theorem number_add (p q : Rat) : number p + number q = number (p + q) := rfl

@[simp] theorem number_sub (p q : Rat) : number p - number q = number (p - q) := rfl

@[simp] theorem number_mul (p q : Rat) : number p * number q = number (p * q) := rfl

/-- A quotient of numbers is that of the rationals. -/
theorem number_div (p : Rat) (hq : q ≠ 0) : number p / number q = number (p / q) :=
  if_neg fun heq => hq (number.inj heq)

@[simp] theorem lt_number : Quantity.lt (number p) (number q) = true ↔ p < q :=
  decide_eq_true_iff

@[simp] theorem number_le_number : number p ≤ number q ↔ p ≤ q := decide_eq_true_iff

/-- What compares is a number. -/
theorem exists_of_compares (h : compares rel x y = true) :
    ∃ p q, x = number p ∧ y = number q ∧ rel p q = true := by
  cases x with
  | undefined => cases h
  | number p =>
    cases y with
    | undefined => cases h
    | number q => exact ⟨p, q, rfl, rfl, h⟩

/-- Two values are equal if they are one number. -/
theorem beq_iff : compares (· == ·) x y = true ↔ ∃ p, x = number p ∧ y = number p := by
  constructor
  · intro h
    obtain ⟨p, q, rfl, rfl, heq⟩ := exists_of_compares h
    exact ⟨p, rfl, congrArg number (beq_iff_eq.mp heq).symm⟩
  · rintro ⟨p, rfl, rfl⟩
    exact beq_self_eq_true p

/-- Just numbers are ordered. -/
theorem exists_of_le (h : x ≤ y) : ∃ p q, x = number p ∧ y = number q ∧ p ≤ q := by
  obtain ⟨p, q, rfl, rfl, hle⟩ := exists_of_compares h
  exact ⟨p, q, rfl, rfl, of_decide_eq_true hle⟩

/-- Just numbers are smaller than others. -/
theorem exists_of_lt (h : x < y) : ∃ p q, x = number p ∧ y = number q ∧ p < q := by
  obtain ⟨p, q, rfl, rfl, hlt⟩ := exists_of_compares h
  exact ⟨p, q, rfl, rfl, of_decide_eq_true hlt⟩

end

/-! ## Numbers among them -/

/-- It is a number. -/
def IsNumber (x : Exact) : Prop := ∃ p, x = number p

section

variable {x y : Exact} {f : Rat → Rat → Rat}

@[simp] theorem isNumber_number (p : Rat) : (number p).IsNumber := ⟨p, rfl⟩

@[simp] theorem not_isNumber_undefined : ¬ undefined.IsNumber := fun ⟨_, h⟩ => nomatch h

/-- What is no number is undefined. -/
theorem eq_undefined_iff : x = undefined ↔ ¬ x.IsNumber := by
  cases x <;> simp

/-- The result is a number if both operands are. -/
theorem isNumber_lift : (lift f x y).IsNumber ↔ x.IsNumber ∧ y.IsNumber := by
  cases x <;> cases y <;> simp [lift]

theorem isNumber_add : (x + y).IsNumber ↔ x.IsNumber ∧ y.IsNumber := isNumber_lift

theorem isNumber_sub : (x - y).IsNumber ↔ x.IsNumber ∧ y.IsNumber := isNumber_lift

theorem isNumber_mul : (x * y).IsNumber ↔ x.IsNumber ∧ y.IsNumber := isNumber_lift

/-- A quotient that is a number is one of numbers. -/
theorem IsNumber.of_div (h : (x / y).IsNumber) : x.IsNumber ∧ y.IsNumber := by
  change (quotient x y).IsNumber at h
  rw [quotient] at h
  split at h
  · exact absurd h not_isNumber_undefined
  · exact isNumber_lift.mp h

/-- A number is moved into a range as a rational is. -/
theorem clamp_number (p q r : Rat) :
    Quantity.clamp (number p) (number q) (number r) = number (Quantity.clamp p q r) := by
  simp only [Quantity.clamp, lt_number, Quantity.lt_rat]
  split
  · rfl
  · split <;> rfl

/-- The undefined one is moved nowhere. -/
@[simp] theorem clamp_undefined (x y : Exact) : Quantity.clamp x y undefined = undefined := by
  cases x <;> cases y <;> rfl

end

/-! ## Unknown components -/

/-- A component of a vector; the undefined one is unknown. -/
def known? : Exact → Option Exact
  | number p => some (number p)
  | undefined => none

/-- The component itself, or the default in place of the undefined one. -/
def filled (default x : Exact) : Exact := x.known?.getD default

/-- Once the default has been filled in, nothing more changes. -/
@[simp] theorem filled_filled (default x : Exact) :
    filled default (filled default x) = filled default x := by
  cases x with
  | number p => rfl
  | undefined => cases default <;> rfl

end Exact

end SolverPortfolio
