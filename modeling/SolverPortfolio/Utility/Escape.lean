import SolverPortfolio.Number.Constant
import SolverPortfolio.Text.Octets

/-
# Escapes

A backslash and the characters after it stand for a character that is hard to
write. The shell and the programs beside it know different escapes.

Main definitions: `EscapeStyle`, `readEscape`, `unescape`.
-/

namespace SolverPortfolio

/-- Which escapes are known. -/
structure EscapeStyle where
  /-- Are there escapes for quotes, for the escape character, and by hexadecimal code? -/
  extended : Bool
  /-- May a zero stand before three octal digits, and does `\c` end all output? -/
  inText : Bool

/-- What an escape stands for. -/
structure Escaped where
  result : Octets
  /-- The number of characters after the backslash that belong to it. -/
  length : Nat
  /-- Does the output end here? -/
  stops : Bool

/-- The characters that a letter after a backslash stands for. -/
def escapeLetters : List (Char × Char) :=
  [('n', '\n'), ('t', '\t'), ('r', '\r'), ('a', '\x07'), ('b', '\x08'), ('f', '\x0c'),
    ('v', '\x0b'), ('\\', '\\')]

/-- The letters that only the extended style has. -/
def extendedLetters : List (Char × Char) := [('e', '\x1b'), ('"', '"')]

/-- Octal digits at the start of a text, at most three of them. -/
def octalDigits (s : Octets) : Octets := (s.take 3).takeWhile fun c => '0' ≤ c && c ≤ '7'

/-- The octet that octal digits stand for. -/
def ofOctal (digits : Octets) : Char :=
  Char.ofNat (digits.foldl (fun n d => 8 * n + Text.digitValue d) 0 % 256)

/-- Reads what follows a backslash. -/
def readEscape (style : EscapeStyle) (s : Octets) : Escaped :=
  match s with
  | [] => ⟨['\\'], 0, false⟩
  | c :: rest =>
    let zero := style.inText && c = '0' && !(octalDigits rest).isEmpty
    let octal := octalDigits (if zero then rest else s)
    if c = 'c' && (style.inText || style.extended) then ⟨[], 1, true⟩
    else if !octal.isEmpty then ⟨[ofOctal octal], octal.length + (if zero then 1 else 0), false⟩
    else
      let letters := if style.extended then escapeLetters ++ extendedLetters else escapeLetters
      match letters.lookup c with
      | some d => ⟨[d], 1, false⟩
      | none =>
        let hex := Number.digitsIn 16 (rest.take 2)
        if style.extended && c = 'x' && !hex.isEmpty then
          ⟨[Char.ofNat (Number.baseValue 16 hex)], hex.length + 1, false⟩
        else ⟨['\\'], 0, false⟩

/-- Replaces escapes. `skip` characters belong to what was read before. The flag tells whether the
output ends. -/
def unescapeFrom (style : EscapeStyle) : Nat → Octets → Octets × Bool
  | _, [] => ([], false)
  | skip + 1, _ :: rest => unescapeFrom style skip rest
  | 0, c :: rest =>
    if c = '\\' then
      let e := readEscape style rest
      if e.stops then (e.result, true)
      else
        let (more, stops) := unescapeFrom style e.length rest
        (e.result ++ more, stops)
    else
      let (more, stops) := unescapeFrom style 0 rest
      (c :: more, stops)

/-- Replaces the escapes of a text. The flag tells whether the output ends with it. -/
def unescape (style : EscapeStyle) (s : Octets) : Octets × Bool := unescapeFrom style 0 s

end SolverPortfolio
