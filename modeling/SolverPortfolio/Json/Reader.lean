import SolverPortfolio.Json.Basic

/-
# Reading JSON

The grammar of RFC 8259 and nothing beyond it: no comments, no trailing commas,
no leading zeros, no control characters in strings. Each reader takes a text
and gives the value with the text after it.

Main definitions: `Json.readValue?`, `Json.read?`.
-/

namespace SolverPortfolio.Json

open SolverPortfolio.Number
open SolverPortfolio.Text (isDigit)

/-- The white space of JSON. -/
def isSpace (c : Char) : Bool :=
  c = ' ' || c = '\t' || c = '\n' || c = '\r'

/-- Passes over white space. -/
def skipSpace (s : List Char) : List Char := s.dropWhile isSpace

/-- Reads a given word. -/
def readWord? (word : String) (s : List Char) : Option (List Char) :=
  if word.toList.isPrefixOf s then some (s.drop word.length) else none

/-! ## Numbers -/

/-- Reads at least one digit. -/
def readDigits1? (s : List Char) : Option (List Char × List Char) :=
  let ds := s.takeWhile isDigit
  if ds.isEmpty then none else some (ds, s.dropWhile isDigit)

/-- Reads the whole part of a number: a zero, or digits that begin with none. -/
def readWhole? : List Char → Option (List Char × List Char)
  | '0' :: rest =>
    match rest with
    | d :: _ => if isDigit d then none else some (['0'], rest)
    | [] => some (['0'], [])
  | s => readDigits1? s

/-- Reads a point and digits, if there is a point. -/
def readFraction? : List Char → Option (List Char × List Char)
  | '.' :: rest => readDigits1? rest
  | s => some ([], s)

/-- Reads a power of ten, if there is one. -/
def readPower? : List Char → Option (Int × List Char)
  | c :: rest =>
    if c = 'e' ∨ c = 'E' then
      let (negative, body) := match rest with
        | '-' :: more => (true, more)
        | '+' :: more => (false, more)
        | more => (false, more)
      (readDigits1? body).map fun (ds, after) =>
        let n : Int := Text.digitsValue ds
        (if negative then -n else n, after)
    else some (0, c :: rest)
  | [] => some (0, [])

/-- Reads a number. -/
def readNumber? (s : List Char) : Option (Literal × List Char) := do
  let (negative, s) := match s with
    | '-' :: rest => (true, rest)
    | _ => (false, s)
  let (whole, s) ← readWhole? s
  let (fraction, s) ← readFraction? s
  let (exponent, s) ← readPower? s
  return (⟨negative, whole, fraction, exponent⟩, s)

/-! ## Strings -/

/-- The number a hexadecimal digit stands for. -/
def hexValue? (c : Char) : Option Nat :=
  if isDigit c then some (Text.digitValue c)
  else if 'a' ≤ c ∧ c ≤ 'f' then some (c.toNat - 'a'.toNat + 10)
  else if 'A' ≤ c ∧ c ≤ 'F' then some (c.toNat - 'A'.toNat + 10)
  else none

/-- The character after a backslash that stands for one character. -/
def shortEscape? : Char → Option Char
  | '"' => some '"'
  | '\\' => some '\\'
  | '/' => some '/'
  | 'b' => some '\x08'
  | 'f' => some '\x0c'
  | 'n' => some '\n'
  | 'r' => some '\r'
  | 't' => some '\t'
  | _ => none

/-- A unit of a string: a character, or the number of an escape with four hexadecimal digits. -/
inductive Unit16 where
  | char (c : Char)
  | code (n : Nat)
  deriving Repr, DecidableEq

/-- Reads the units of a string up to its closing quote. -/
def readUnits? : List Char → Option (List Unit16 × List Char)
  | [] => none
  | '"' :: rest => some ([], rest)
  | '\\' :: 'u' :: a :: b :: c :: d :: rest => do
    let a ← hexValue? a
    let b ← hexValue? b
    let c ← hexValue? c
    let d ← hexValue? d
    let (units, after) ← readUnits? rest
    return (.code (((a * 16 + b) * 16 + c) * 16 + d) :: units, after)
  | '\\' :: e :: rest => do
    let c ← shortEscape? e
    let (units, after) ← readUnits? rest
    return (.char c :: units, after)
  | c :: rest =>
    if c.toNat < 0x20 then none
    else do
      let (units, after) ← readUnits? rest
      return (.char c :: units, after)

/-- The text that units denote. Two escapes that are the halves of a surrogate pair denote one
character; a half on its own denotes none. -/
def textOfUnits? : List Unit16 → Option (List Char)
  | [] => some []
  | .char c :: rest => (textOfUnits? rest).map (c :: ·)
  | .code hi :: .code lo :: rest =>
    if 0xD800 ≤ hi ∧ hi < 0xDC00 then
      if 0xDC00 ≤ lo ∧ lo < 0xE000 then
        (textOfUnits? rest).map
          (Char.ofNat (0x10000 + (hi - 0xD800) * 0x400 + (lo - 0xDC00)) :: ·)
      else none
    else if 0xDC00 ≤ hi ∧ hi < 0xE000 then none
    else (textOfUnits? (.code lo :: rest)).map (Char.ofNat hi :: ·)
  | .code n :: rest =>
    if 0xD800 ≤ n ∧ n < 0xE000 then none
    else (textOfUnits? rest).map (Char.ofNat n :: ·)

/-- Reads the rest of a string after its opening quote. -/
def readString? (s : List Char) : Option (Option String × List Char) :=
  (readUnits? s).map fun (units, after) => ((textOfUnits? units).map String.ofList, after)

/-! ## Values -/

mutual
/-- Reads a value; `fuel` bounds the steps, and the length of the text is enough. -/
def readValueWith (fuel : Nat) (s : List Char) : Option (Json × List Char) :=
  match fuel with
  | 0 => none
  | fuel + 1 =>
    match skipSpace s with
    | [] => none
    | '"' :: rest => (readString? rest).map fun (text, after) => (.string text, after)
    | '[' :: rest =>
      match skipSpace rest with
      | ']' :: after => some (.array [], after)
      | body => (readItems fuel body).map fun (items, after) => (.array items, after)
    | '\x7b' :: rest =>
      match skipSpace rest with
      | '\x7d' :: after => some (.object [], after)
      | body => (readMembers fuel body).map fun (members, after) => (.object members, after)
    | c :: rest =>
      if c = 't' then (readWord? "rue" rest).map (.bool true, ·)
      else if c = 'f' then (readWord? "alse" rest).map (.bool false, ·)
      else if c = 'n' then (readWord? "ull" rest).map (.null, ·)
      else (readNumber? (c :: rest)).map fun (l, after) => (.number l, after)

/-- Reads one or more items of an array and its closing bracket. -/
def readItems (fuel : Nat) (s : List Char) : Option (List Json × List Char) :=
  match fuel with
  | 0 => none
  | fuel + 1 =>
    match readValueWith fuel s with
    | none => none
    | some (v, rest) =>
      match skipSpace rest with
      | ',' :: more => (readItems fuel more).map fun (vs, after) => (v :: vs, after)
      | ']' :: after => some ([v], after)
      | _ => none

/-- Reads one or more members of an object and its closing brace. -/
def readMembers (fuel : Nat) (s : List Char) : Option (List (Option String × Json) × List Char) :=
  match fuel with
  | 0 => none
  | fuel + 1 =>
    match skipSpace s with
    | '"' :: rest =>
      match readString? rest with
      | none => none
      | some (name, rest) =>
        match skipSpace rest with
        | ':' :: rest =>
          match readValueWith fuel rest with
          | none => none
          | some (v, rest) =>
            match skipSpace rest with
            | ',' :: more => (readMembers fuel more).map fun (ms, after) => ((name, v) :: ms, after)
            | '\x7d' :: after => some ([(name, v)], after)
            | _ => none
        | _ => none
    | _ => none
end

/-- Reads the value at the beginning of a text. -/
def readValue? (s : List Char) : Option (Json × List Char) :=
  readValueWith (2 * s.length + 2) s

/-- Reads a text that holds one value and, around it, white space only. -/
def read? (s : List Char) : Option Json :=
  match readValue? s with
  | some (v, rest) => if (skipSpace rest).isEmpty then some v else none
  | none => none

end SolverPortfolio.Json
