import SolverPortfolio.Text.CharacterClass
import SolverPortfolio.Utility.Basic
import SolverPortfolio.Utility.Escape

/-
# Maps of characters

Each character of a first set becomes the one at the same place of a second set,
or is deleted; characters that repeat may be squeezed into one.

Main definitions: `CharacterMap.readSet`, `CharacterMap.Plan.apply`,
`CharacterMap.tr`.
-/

namespace SolverPortfolio.CharacterMap

/-! ## Sets -/

/-- The characters from one to another. -/
def between (first last : Char) : Octets :=
  (List.range (last.toNat + 1 - first.toNat)).map fun i => Char.ofNat (first.toNat + i)

/-- Reads a set, whose escapes are replaced. -/
def readSetFrom : Nat → Octets → Octets
  | _, [] => []
  | skip + 1, _ :: rest => readSetFrom skip rest
  | 0, c :: rest =>
    let name := (rest.drop 1).takeWhile (· ≠ ':')
    let ranges := if c = '[' && rest.head? = some ':' then Text.classRanges? name else none
    match ranges, rest with
    | some ranges, _ =>
      (ranges.flatMap fun (first, last) => between first last) ++ readSetFrom (name.length + 3) rest
    | none, '-' :: last :: _ => between c last ++ readSetFrom 2 rest
    | none, _ => c :: readSetFrom 0 rest

/-- Reads a set. -/
def readSet (s : Octets) : Octets := readSetFrom 0 (unescape ⟨false, false⟩ s).1

/-- The octets that are not in a set. -/
def complement (set : Octets) : Octets :=
  (between '\x00' (Char.ofNat 255)).filter fun c => !set.contains c

/-! ## Mapping -/

/-- Deletes characters of a set. -/
def delete (set s : Octets) : Octets := s.filter fun c => !set.contains c

/-- Squeezes characters of a set that repeat into one. -/
def squeeze (set : Octets) : Octets → Octets
  | [] => []
  | [c] => [c]
  | c :: d :: rest =>
    if c = d && set.contains c then squeeze set (d :: rest) else c :: squeeze set (d :: rest)

/-- The character at the place in the second set that a character has in the first set, or the last
one of the second set if that is shorter. -/
def image (first second : Octets) (c : Char) : Char :=
  match (List.range first.length).reverse.find? fun i => first[i]? = some c with
  | some i => (second[i]? <|> second.getLast?).getD c
  | none => c

/-- What is done to a text. -/
structure Plan where
  complements : Bool
  deletes : Bool
  squeezes : Bool
  sets : List Octets

/-- Does to a text what was asked for. -/
def Plan.apply (p : Plan) (s : Octets) : Octets :=
  match p.sets.map readSet with
  | [] => s
  | first :: more =>
    let first := if p.complements then complement first else first
    match more with
    | [] =>
      if p.deletes then delete first s else if p.squeezes then squeeze first s else s
    | second :: _ =>
      let changed := if p.deletes then delete first s else s.map (image first second)
      if p.squeezes then squeeze second changed else changed

/-- The utility that maps characters. -/
def tr (disk : Disk) (arguments : List Octets) : Deed :=
  let (options, sets) := splitOptions [] arguments
  let plan : Plan :=
    { complements := hasOption options 'c' || hasOption options 'C'
      deletes := hasOption options 'd'
      squeezes := hasOption options 's'
      sets }
  let help := "Try 'tr --help' for more information."
  let filter : Deed := .filter
    (Filter.ofText ("tr: " ++ ·) disk [] fun s ended => Progress.atEnd (plan.apply s) ended)
  match sets with
  | [] => .finish ⟨[], ["tr: missing operand", help], 1⟩
  | [set] =>
    if plan.deletes || plan.squeezes then filter
    else .finish ⟨[], [s!"tr: missing operand after '{Octets.toText set}'",
      "Two strings must be given when translating.", help], 1⟩
  | _ => filter

end SolverPortfolio.CharacterMap
