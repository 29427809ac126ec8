import SolverPortfolio.Number.Constant
import SolverPortfolio.Shell.State

/-
# Arithmetic of the shell

Expressions over whole numbers of 64 bits, with the operators of C. A name
stands for the value of a variable, and an unset variable counts as zero.

Main definitions: `Shell.Arithmetic.evaluate`.
-/

namespace SolverPortfolio.Shell.Arithmetic

/-- Why an expression has no value. -/
inductive Fault where
  /-- A variable has a value that is no number. -/
  | notNumber (value : Octets)
  | divisionByZero
  /-- Something else should follow. -/
  | expecting (what : String)
  | tooDeep

/-- The words for why an expression has no value. -/
def Fault.message (expression : Octets) (f : Fault) : String :=
  let inExpression := fun cause : String =>
    s!"arithmetic expression: {cause}: \"{Octets.toText expression}\""
  match f with
  | notNumber value => s!"Illegal number: {Octets.toText value}"
  | divisionByZero => inExpression "division by zero"
  | expecting what => inExpression s!"expecting {what}"
  | tooDeep => inExpression "expression too deep"

/-- Computing a part of an expression: what is still to be read, and the state of the shell. -/
abbrev Computing := StateT (Octets × State) (Except Fault)

/-- The number of 64 bits with the same remainder. -/
def wrap (n : Int) : Int := n.bmod 18446744073709551616

/-- The operators with two operands, and how closely they bind; an operator stands before those
that it begins with. -/
def operators : List (String × Nat) :=
  [("||", 1), ("&&", 2), ("|", 3), ("^", 4), ("&", 5), ("==", 6), ("!=", 6), ("<<", 8), (">>", 8),
    ("<=", 7), (">=", 7), ("<", 7), (">", 7), ("+", 9), ("-", 9), ("*", 10), ("/", 10), ("%", 10)]

/-- The operators that assign. -/
def assignments : List (String × String) :=
  [("=", ""), ("+=", "+"), ("-=", "-"), ("*=", "*"), ("/=", "/"), ("%=", "%"), ("<<=", "<<"),
    (">>=", ">>"), ("&=", "&"), ("|=", "|"), ("^=", "^")]

/-- One for what holds, and zero for what does not. -/
def truth (b : Bool) : Int := if b then 1 else 0

/-- The number of places that a number is shifted by. -/
def places (n : Int) : Nat := (n % 64).toNat

/-- An operation on the bits of two numbers. -/
def onBits (f : Nat → Nat → Nat) (a b : Int) : Int :=
  wrap (f (a % 18446744073709551616).toNat (b % 18446744073709551616).toNat)

/-- Applies an operator. -/
def apply (operator : String) (a b : Int) : Except Fault Int :=
  match operator with
  | "||" => .ok (truth (a ≠ 0 ∨ b ≠ 0))
  | "&&" => .ok (truth (a ≠ 0 ∧ b ≠ 0))
  | "|" => .ok (onBits Nat.lor a b)
  | "^" => .ok (onBits Nat.xor a b)
  | "&" => .ok (onBits Nat.land a b)
  | "==" => .ok (truth (a = b))
  | "!=" => .ok (truth (a ≠ b))
  | "<<" => .ok (wrap (a * Nat.pow 2 (places b)))
  | ">>" => .ok (a.fdiv (Nat.pow 2 (places b)))
  | "<=" => .ok (truth (a ≤ b))
  | ">=" => .ok (truth (b ≤ a))
  | "<" => .ok (truth (a < b))
  | ">" => .ok (truth (b < a))
  | "+" => .ok (wrap (a + b))
  | "-" => .ok (wrap (a - b))
  | "*" => .ok (wrap (a * b))
  | "/" => if b = 0 then .error .divisionByZero else .ok (wrap (a.tdiv b))
  | "%" => if b = 0 then .error .divisionByZero else .ok (wrap (a.tmod b))
  | _ => .ok b

/-- The greatest number of 64 bits. -/
def greatest : Nat := 9223372036854775807

/-- Reads the value of a variable as a number with blanks around it, where blanks alone are zero. -/
def readNumber? (s : Octets) : Option Int :=
  if Text.allBlank s then some 0
  else
    match Number.readWhole? s with
    | some (n, rest) =>
      if rest.all Number.isGap && -(greatest : Int) - 1 ≤ n && n ≤ greatest then some n else none
    | none => none

/-- A number as octets. -/
def ofInt (n : Int) : Octets := (toString n).toList

/-- Passes over blanks, and gives what is still to be read. -/
def peek : Computing Octets := do
  modify fun (s, state) => (s.dropWhile fun c => c = ' ' || c = '\t' || c = '\n', state)
  return (← get).1

/-- Passes over characters. -/
def skip (n : Nat) : Computing Unit := modify fun (s, state) => (s.drop n, state)

/-- The value of a variable. -/
def valueOf (name : Octets) : Computing Int := do
  match (← get).2.value? name with
  | none => return 0
  | some s =>
    match readNumber? s with
    | some n => return n
    | none => throw (.notNumber s)

/-- The operator that assigns at the start of a text, and the number of its characters. -/
def assignment? (s : Octets) : Option (String × Nat) :=
  (assignments.find? fun (sign, _) =>
    sign.toList.isPrefixOf s && !(sign = "=" && (s.drop 1).head? = some '=')).map
      fun (sign, operator) => (operator, sign.length)

mutual

/-- Computes an expression. -/
def expression : Nat → Computing Int
  | 0 => throw .tooDeep
  | fuel + 1 => do
    let s ← peek
    let name := if (s.head?.map isNameStart).getD false then s.takeWhile isNameChar else []
    let after := (s.drop name.length).dropWhile fun c => c = ' ' || c = '\t'
    match name, assignment? after with
    | _ :: _, some (operator, n) => do
      skip (s.length - after.length + n)
      let b ← expression fuel
      let value ← if operator = "" then pure b
        else liftM (apply operator (← valueOf name) b)
      modify fun (s, state) => (s, state.assign name (ofInt value))
      return value
    | _, _ => do
      let test ← operation fuel 1
      match ← peek with
      | '?' :: _ => do
        skip 1
        let a ← expression fuel
        match ← peek with
        | ':' :: _ => do
          skip 1
          let b ← expression fuel
          return if test ≠ 0 then a else b
        | _ => throw (.expecting "':'")
      | _ => return test

/-- Computes operands that are joined by operators which bind at least as closely as given. -/
def operation : Nat → Nat → Computing Int
  | 0, _ => throw .tooDeep
  | fuel + 1, level => do
    let first ← operand fuel
    operationFrom fuel level first

/-- Goes on with the operators after an operand. -/
def operationFrom : Nat → Nat → Int → Computing Int
  | 0, _, _ => throw .tooDeep
  | fuel + 1, level, first => do
    let s ← peek
    match operators.find? fun (sign, _) => sign.toList.isPrefixOf s with
    | some (sign, binding) =>
      if binding < level then return first
      else do
        skip sign.length
        let second ← operation fuel (binding + 1)
        operationFrom fuel level (← liftM (apply sign first second))
    | none => return first

/-- Computes an operand. -/
def operand : Nat → Computing Int
  | 0 => throw .tooDeep
  | fuel + 1 => do
    match ← peek with
    | '-' :: _ => do
      skip 1
      return wrap (-(← operand fuel))
    | '+' :: _ => do
      skip 1
      operand fuel
    | '!' :: _ => do
      skip 1
      return truth ((← operand fuel) = 0)
    | '~' :: _ => do
      skip 1
      return -(← operand fuel) - 1
    | '(' :: _ => do
      skip 1
      let value ← expression fuel
      match ← peek with
      | ')' :: _ => do
        skip 1
        return value
      | _ => throw (.expecting "')'")
    | s =>
      let word := s.takeWhile isNameChar
      if isName word then do
        skip word.length
        valueOf word
      else
        let (n, length) := Number.readConstant s
        if length = 0 then throw (.expecting "primary")
        else do
          skip length
          return (min n greatest : Nat)

end

/-- The value of an expression, and the state of the shell after it. -/
def evaluate (s : Octets) (state : State) : Except String (Int × State) :=
  let compute : Computing Int := do
    let value ← if (← peek).isEmpty then pure 0 else expression (10 * s.length + 20)
    if (← peek).isEmpty then return value else throw (.expecting "EOF")
  match compute.run (s, state) with
  | .ok (value, _, state) => .ok (value, state)
  | .error fault => .error (fault.message s)

end SolverPortfolio.Shell.Arithmetic
