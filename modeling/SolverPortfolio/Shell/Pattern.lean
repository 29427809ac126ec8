import SolverPortfolio.Text.CharacterClass
import SolverPortfolio.Text.Octets

/-
# Shell patterns

In a pattern a star matches any text, a question mark any character, and
brackets one of several characters; quoted characters match themselves.

Main definitions: `Shell.Field`, `Shell.Pattern.ofField`,
`Shell.Pattern.accepts`, `Shell.Pattern.dropMatch`.
-/

namespace SolverPortfolio.Shell

/-- Characters, and whether each of them was quoted. -/
abbrev Field := List (Char × Bool)

namespace Field

/-- The characters of a field. -/
def plain (f : Field) : Octets := f.map (·.1)

/-- Characters that are all quoted, or all not. -/
def ofOctets (s : Octets) (quoted : Bool) : Field := s.map fun c => (c, quoted)

end Field

/-- A part of a pattern. -/
inductive PatternPart where
  | char (c : Char)
  | anyChar
  | anyText
  /-- One of the characters of the ranges, or none of them. -/
  | oneOf (negated : Bool) (ranges : List Text.CharacterRange)
  deriving DecidableEq

/-- Does a part other than a star match a character? -/
def PatternPart.accepts (p : PatternPart) (c : Char) : Bool :=
  match p with
  | .char d => decide (c = d)
  | .anyChar => true
  | .anyText => true
  | .oneOf negated ranges => Text.isWithin ranges c != negated

/-- A pattern. -/
abbrev Pattern := List PatternPart

namespace Pattern

/-! ## Reading -/

/-- The ranges that brackets hold, and the number of characters up to the closing bracket and with
it. A closing bracket that comes first stands for itself. -/
def rangesFrom : Nat → Bool → Field → Option (List Text.CharacterRange × Nat)
  | 0, _, _ => none
  | _, _, [] => none
  | fuel + 1, isFirst, (c, quoted) :: rest =>
    if c = ']' && !quoted && !isFirst then some ([], 1)
    else if c = '[' && !quoted && (rest.head?.map (·.1)) = some ':' then
      let name := ((rest.drop 1).takeWhile fun x => x.1 ≠ ':').map (·.1)
      match Text.classRanges? name with
      | some ranges =>
        (rangesFrom fuel false (rest.drop (name.length + 3))).map fun (more, n) =>
          (ranges ++ more, n + name.length + 4)
      | none => (rangesFrom fuel false rest).map fun (more, n) => ((c, c) :: more, n + 1)
    else
      match rest with
      | ('-', false) :: (d, q) :: after =>
        if d = ']' && !q then
          (rangesFrom fuel false rest).map fun (more, n) => ((c, c) :: more, n + 1)
        else (rangesFrom fuel false after).map fun (more, n) => ((c, d) :: more, n + 3)
      | _ => (rangesFrom fuel false rest).map fun (more, n) => ((c, c) :: more, n + 1)

/-- Reads what brackets hold: whether the characters are excluded, the ranges, and the number of
characters read. -/
def brackets? (f : Field) : Option (Bool × List Text.CharacterRange × Nat) :=
  match f with
  | ('!', false) :: rest =>
    (rangesFrom (f.length + 1) true rest).map fun (ranges, n) => (true, ranges, n + 1)
  | ('^', false) :: rest =>
    (rangesFrom (f.length + 1) true rest).map fun (ranges, n) => (true, ranges, n + 1)
  | _ => (rangesFrom (f.length + 1) true f).map fun (ranges, n) => (false, ranges, n)

/-- Reads a pattern. `skip` characters belong to what was read before. -/
def partsFrom : Nat → Field → Pattern
  | _, [] => []
  | skip + 1, _ :: rest => partsFrom skip rest
  | 0, (c, quoted) :: rest =>
    if quoted then .char c :: partsFrom 0 rest
    else if c = '*' then .anyText :: partsFrom 0 rest
    else if c = '?' then .anyChar :: partsFrom 0 rest
    else if c = '[' then
      match brackets? rest with
      | some (negated, ranges, n) => .oneOf negated ranges :: partsFrom n rest
      | none => .char c :: partsFrom 0 rest
    else if c = '\\' then
      match rest with
      | (d, _) :: _ => .char d :: partsFrom 1 rest
      | [] => [.char c]
    else .char c :: partsFrom 0 rest

/-- The pattern that a field is. -/
def ofField (f : Field) : Pattern := partsFrom 0 f

/-! ## Matching -/

/-- Does a pattern match a whole text? -/
def accepts : Pattern → Octets → Bool
  | [], [] => true
  | [], _ :: _ => false
  | .anyText :: ps, [] => accepts ps []
  | .anyText :: ps, c :: cs => accepts ps (c :: cs) || accepts (.anyText :: ps) cs
  | _ :: _, [] => false
  | p :: ps, c :: cs => p.accepts c && accepts ps cs
termination_by ps s => ps.length + s.length

/-- A text without the shortest or the longest part at one of its ends that a pattern matches. -/
def dropMatch (p : Pattern) (atEnd longest : Bool) (s : Octets) : Octets :=
  let lengths := List.range (s.length + 1)
  let lengths := if longest then lengths.reverse else lengths
  let found := lengths.find? fun n =>
    accepts p (if atEnd then s.drop (s.length - n) else s.take n)
  match found with
  | some n => if atEnd then s.take (s.length - n) else s.drop n
  | none => s

end Pattern

end SolverPortfolio.Shell
