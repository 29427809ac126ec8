import SolverPortfolio.Rehearsal.Disk
import SolverPortfolio.Text.Integer
import SolverPortfolio.Text.Octets

/-
# Conditions

A condition is a list of words that is true or false: a test of a text, a
number or a file, or several of them joined by operators.

Main definitions: `Condition.Fault`, `Condition.holds`.
-/

namespace SolverPortfolio.Condition

/-- Why a condition is neither true nor false. -/
inductive Fault where
  | unexpectedOperator (word : Octets)
  | argumentExpected (word : Octets)
  | illegalNumber (word : Octets)
  | closingExpected
  deriving Repr, DecidableEq

/-- The words for a fault. -/
def Fault.message : Fault → String
  | unexpectedOperator [] => "unexpected operator"
  | unexpectedOperator word => s!"{Octets.toText word}: unexpected operator"
  | argumentExpected word => s!"{Octets.toText word}: argument expected"
  | illegalNumber word => s!"Illegal number: {Octets.toText word}"
  | closingExpected => "closing paren expected"

/-- What conditions are about. -/
structure Setting where
  disk : Disk
  /-- May two equals signs stand for one? -/
  doublesEquals : Bool

/-! ## Tests -/

/-- The letters of tests of files. -/
def fileTests : Octets := "edfrwxsLhpSbcugkOG".toList

/-- The test of a file that a letter names. -/
def testFile (disk : Disk) (letter : Char) (path : Octets) : Bool :=
  match disk.find (Octets.toText path) with
  | .error _ => false
  | .ok node =>
    match letter, node with
    | 'd', .directory => true
    | 'd', _ => false
    | 'f', .file _ => true
    | 'f', .program _ => true
    | 'f', _ => false
    | 'x', .file _ => false
    | 'x', .sink => false
    | 's', .file content => !content.isEmpty
    | 's', .sink => false
    | 'c', .sink => true
    | _, _ => letter = 'e' || letter = 'r' || letter = 'w' || letter = 'x' || letter = 's'

/-- The test that an operator with one operand asks for. -/
def testOne? (disk : Disk) (operator operand : Octets) : Option Bool :=
  match operator with
  | ['-', 'n'] => some (!operand.isEmpty)
  | ['-', 'z'] => some operand.isEmpty
  | ['-', 't'] => some false
  | ['-', c] => if fileTests.contains c then some (testFile disk c operand) else none
  | _ => none

/-- Reads a number. -/
def number (s : Octets) : Except Fault Int :=
  match Text.readInt? 64 (Text.trim s) with
  | some n => .ok n
  | none => .error (.illegalNumber s)

/-- The operators that compare numbers. -/
def comparisons : List (String × (Int → Int → Bool)) :=
  [("-eq", fun a b => a = b), ("-ne", fun a b => a ≠ b), ("-lt", fun a b => a < b),
    ("-le", fun a b => a ≤ b), ("-gt", fun a b => b < a), ("-ge", fun a b => b ≤ a)]

/-- The operators that compare texts. -/
def orders : List (String × (Octets → Octets → Bool)) :=
  [("=", fun a b => a = b), ("!=", fun a b => a ≠ b), ("<", fun a b => a < b),
    (">", fun a b => b < a)]

/-- The test that an operator with two operands asks for. -/
def testTwo? (setting : Setting) (operator a b : Octets) : Option (Except Fault Bool) :=
  let isDouble := setting.doublesEquals && operator = ['=', '=']
  let name := String.ofList (if isDouble then ['='] else operator)
  match orders.lookup name, comparisons.lookup name with
  | some f, _ => some (.ok (f a b))
  | none, some f => some (do return f (← number a) (← number b))
  | none, none => none

/-! ## Conditions -/

mutual

/-- Reads conditions that are joined by `-o`, and gives back what follows. -/
def alternatives : Nat → Setting → List Octets → Except Fault (Bool × List Octets)
  | 0, _, rest => .error (.argumentExpected (rest.headD []))
  | fuel + 1, setting, words => do
    let (first, rest) ← conjunction fuel setting words
    match rest with
    | ['-', 'o'] :: rest => do
      let (second, rest) ← alternatives fuel setting rest
      return (first || second, rest)
    | _ => return (first, rest)

/-- Reads conditions that are joined by `-a`. -/
def conjunction : Nat → Setting → List Octets → Except Fault (Bool × List Octets)
  | 0, _, rest => .error (.argumentExpected (rest.headD []))
  | fuel + 1, setting, words => do
    let (first, rest) ← simple fuel setting words
    match rest with
    | ['-', 'a'] :: rest => do
      let (second, rest) ← conjunction fuel setting rest
      return (first && second, rest)
    | _ => return (first, rest)

/-- Reads a condition without operators between conditions. -/
def simple : Nat → Setting → List Octets → Except Fault (Bool × List Octets)
  | 0, _, rest => .error (.argumentExpected (rest.headD []))
  | fuel + 1, setting, words =>
    match words with
    | [] => .ok (false, [])
    | a :: rest =>
      match rest with
      | operator :: b :: after =>
        match testTwo? setting operator a b with
        | some answer => answer.map fun holds => (holds, after)
        | none => single fuel setting a rest
      | [operator] =>
        match testTwo? setting operator a [] with
        | some _ => .error (.argumentExpected operator)
        | none => single fuel setting a rest
      | [] => single fuel setting a rest

/-- Reads a condition that begins with a given word, which is not compared with another. -/
def single : Nat → Setting → Octets → List Octets → Except Fault (Bool × List Octets)
  | 0, _, a, _ => .error (.argumentExpected a)
  | fuel + 1, setting, a, rest =>
    match a, rest with
    | ['!'], _ :: _ => do
      let (holds, rest) ← simple fuel setting rest
      return (!holds, rest)
    | ['('], _ :: _ => do
      let (holds, rest) ← alternatives fuel setting rest
      match rest with
      | [')'] :: rest => return (holds, rest)
      | _ => throw .closingExpected
    | _, operand :: after =>
      match testOne? setting.disk a operand with
      | some holds => .ok (holds, after)
      | none => .ok (!a.isEmpty, rest)
    | _, [] => .ok (!a.isEmpty, [])

end

/-- Does a condition hold? -/
def holds (setting : Setting) (words : List Octets) : Except Fault Bool :=
  match words with
  | [] => .ok false
  | [a] => .ok (!a.isEmpty)
  | _ =>
    match alternatives (4 * words.length + 4) setting words with
    | .error e => .error e
    | .ok (answer, []) => .ok answer
    | .ok (_, rest) =>
      .error (.unexpectedOperator ((words[words.length - rest.length - 1]?).getD []))

/-- The exit code for a condition, and the complaint about it. -/
def status (setting : Setting) (words : List Octets) : Nat × Option String :=
  match holds setting words with
  | .ok true => (0, none)
  | .ok false => (1, none)
  | .error e => (2, some e.message)

end SolverPortfolio.Condition
