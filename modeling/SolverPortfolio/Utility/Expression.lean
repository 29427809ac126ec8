import SolverPortfolio.Text.CharacterClass
import SolverPortfolio.Text.Integer
import SolverPortfolio.Text.Octets

/-
# Regular expressions

Expressions that match parts of lines, in the basic form, where a backslash
makes parentheses and braces special, and in the extended form, where it makes
them plain. Of several matches at one place a longer one is preferred.

Main definitions: `Expression`, `Expression.read?`, `Expression.find?`.
-/

namespace SolverPortfolio

/-- A regular expression. -/
inductive Expression where
  | empty
  | oneOf (negated : Bool) (ranges : List Text.CharacterRange)
  | atStart
  | atEnd
  /-- The place between a character of a word and another character, or any other place. -/
  | wordEdge (isEdge : Bool)
  | group (number : Nat) (e : Expression)
  /-- The text that a group has matched. -/
  | again (number : Nat)
  | sequence (first second : Expression)
  | either (first second : Expression)
  | repeated (e : Expression) (least : Nat) (most : Option Nat)

namespace Expression

/-- A character. -/
def char (c : Char) : Expression := .oneOf false [(c, c)]

/-- The characters of words. -/
def wordCharacters : List Text.CharacterRange := [('0', '9'), ('A', 'Z'), ('_', '_'), ('a', 'z')]

/-- The characters that are blank. -/
def blanks : List Text.CharacterRange := [('\t', '\r'), (' ', ' ')]

/-! ## Reading -/

/-- The ranges that brackets hold, and what follows them. -/
def readRanges : Nat → Bool → Octets → Option (List Text.CharacterRange × Octets)
  | 0, _, _ => none
  | _, _, [] => none
  | fuel + 1, isFirst, c :: rest =>
    if c = ']' && !isFirst then some ([], rest)
    else if c = '[' && rest.head? = some ':' then
      let name := (rest.drop 1).takeWhile (· ≠ ':')
      match Text.classRanges? name with
      | some ranges =>
        let after := rest.drop (name.length + 3)
        (readRanges fuel false after).map fun (more, s) => (ranges ++ more, s)
      | none => none
    else
      match rest with
      | '-' :: d :: after =>
        if d = ']' then (readRanges fuel false rest).map fun (more, s) => ((c, c) :: more, s)
        else (readRanges fuel false after).map fun (more, s) => ((c, d) :: more, s)
      | _ => (readRanges fuel false rest).map fun (more, s) => ((c, c) :: more, s)

/-- Reads brackets, after the opening one. -/
def readBrackets (s : Octets) : Option (Expression × Octets) :=
  match s with
  | '^' :: rest =>
    (readRanges (s.length + 1) true rest).map fun (ranges, rest) => (.oneOf true ranges, rest)
  | _ => (readRanges (s.length + 1) true s).map fun (ranges, rest) => (.oneOf false ranges, rest)

/-- Reads the bounds of a repetition, after the opening brace, up to the closing one. -/
def readBounds (extended : Bool) (s : Octets) : Option (Nat × Option Nat × Octets) :=
  let low := s.takeWhile Text.isDigit
  let s := s.drop low.length
  let (high, s) : Option Octets × Octets := match s with
    | ',' :: rest => (some (rest.takeWhile Text.isDigit), rest.dropWhile Text.isDigit)
    | _ => (none, s)
  let least := Text.digitsValue low
  let most := match high with
    | none => some least
    | some [] => none
    | some ds => some (Text.digitsValue ds)
  match extended, s with
  | true, '\x7d' :: rest => some (least, most, rest)
  | false, '\\' :: '\x7d' :: rest => some (least, most, rest)
  | _, _ => none

/-- The sign of a repetition at the start of a text: its bounds and what follows. -/
def readRepetition (extended : Bool) (s : Octets) : Option (Nat × Option Nat × Octets) :=
  match extended, s with
  | _, '*' :: rest => some (0, none, rest)
  | true, '+' :: rest => some (1, none, rest)
  | true, '?' :: rest => some (0, some 1, rest)
  | true, '\x7b' :: rest => readBounds true rest
  | false, '\\' :: '+' :: rest => some (1, none, rest)
  | false, '\\' :: '?' :: rest => some (0, some 1, rest)
  | false, '\\' :: '\x7b' :: rest => readBounds false rest
  | _, _ => none

/-- What a letter after a backslash means. -/
def escaped (c : Char) : Expression :=
  if c = 'n' then char '\n'
  else if c = 't' then char '\t'
  else if c = 'w' then .oneOf false wordCharacters
  else if c = 'W' then .oneOf true wordCharacters
  else if c = 's' then .oneOf false blanks
  else if c = 'S' then .oneOf true blanks
  else if c = 'b' || c = '<' || c = '>' then .wordEdge true
  else if c = 'B' then .wordEdge false
  else if '1' ≤ c && c ≤ '9' then .again (Text.digitValue c)
  else char c

/-- Does an alternative end here? -/
def endsHere (extended : Bool) (s : Octets) : Bool :=
  match extended, s with
  | _, [] => true
  | true, '|' :: _ => true
  | true, ')' :: _ => true
  | false, '\\' :: '|' :: _ => true
  | false, '\\' :: ')' :: _ => true
  | _, _ => false

/-- Reading a part of an expression: what is still to be read, and the number of groups. -/
abbrev Reading := StateT (Octets × Nat) Option

mutual

/-- Reads alternatives. -/
def alternatives : Nat → Bool → Reading Expression
  | 0, _ => failure
  | fuel + 1, extended => do
    let first ← pieces fuel extended true .empty
    match extended, (← get).1 with
    | true, '|' :: rest => do
      modify fun (_, n) => (rest, n)
      return .either first (← alternatives fuel extended)
    | false, '\\' :: '|' :: rest => do
      modify fun (_, n) => (rest, n)
      return .either first (← alternatives fuel extended)
    | _, _ => return first

/-- Reads the pieces of an alternative, after those read before. -/
def pieces : Nat → Bool → Bool → Expression → Reading Expression
  | 0, _, _, _ => failure
  | fuel + 1, extended, isFirst, before => do
    let (s, n) ← get
    if endsHere extended s then return before
    else
      let next (e : Expression) (rest : Octets) : Reading Expression := do
        modify fun (_, n) => (rest, n)
        let e ← repetitions fuel extended e
        pieces fuel extended false (.sequence before e)
      match s with
      | [] => return before
      | '^' :: rest =>
        if extended || isFirst then do
          set (rest, n)
          pieces fuel extended isFirst (.sequence before .atStart)
        else next (char '^') rest
      | '$' :: rest =>
        if extended || endsHere extended rest then do
          set (rest, n)
          pieces fuel extended false (.sequence before .atEnd)
        else next (char '$') rest
      | '.' :: rest => next (.oneOf true [('\x00', '\x00')]) rest
      | '[' :: rest => do
        let (e, rest) ← liftM (readBrackets rest)
        next e rest
      | '*' :: rest => next (char '*') rest
      | '(' :: rest =>
        if extended then do
          set (rest, n + 1)
          let e ← alternatives fuel extended
          match (← get).1 with
          | ')' :: rest => next (.group (n + 1) e) rest
          | _ => failure
        else next (char '(') rest
      | '\\' :: '(' :: rest =>
        if extended then next (char '(') rest
        else do
          set (rest, n + 1)
          let e ← alternatives fuel extended
          match (← get).1 with
          | '\\' :: ')' :: rest => next (.group (n + 1) e) rest
          | _ => failure
      | '\\' :: c :: rest => next (escaped c) rest
      | '\\' :: [] => failure
      | c :: rest => next (char c) rest

/-- Reads the signs of repetition after an expression. -/
def repetitions : Nat → Bool → Expression → Reading Expression
  | 0, _, e => return e
  | fuel + 1, extended, e => do
    match readRepetition extended (← get).1 with
    | none => return e
    | some (least, most, rest) => do
      modify fun (_, n) => (rest, n)
      repetitions fuel extended (.repeated e least most)

end

/-- Reads an expression. -/
def read? (extended : Bool) (s : Octets) : Option Expression :=
  match (alternatives (10 * s.length + 20) extended).run (s, 0) with
  | some (e, [], _) => some e
  | _ => none

/-- The expression that matches just a text. -/
def ofText (s : Octets) : Expression := s.foldl (fun e c => .sequence e (char c)) .empty

/-! ## Matching -/

/-- A place in a line: the character before it, and what follows. -/
structure Place where
  before : Option Char
  rest : Octets

/-- The texts that groups have matched. -/
abbrev Groups := List (Nat × Octets)

/-- What is still to be matched. -/
inductive Task where
  | expression (e : Expression)
  /-- Ends a group that began with a given rest of the line. -/
  | close (number : Nat) (rest : Octets)
  /-- Refuses to go on where nothing was matched since a given length was left. -/
  | moved (length : Nat)

/-- Moves on by some characters. -/
def Place.move (p : Place) (n : Nat) : Place :=
  if n = 0 then p else ⟨(p.rest.take n).getLast?, p.rest.drop n⟩

/-- Is this a character of a word? -/
def isWordCharacter (c : Char) : Bool := Text.isWithin wordCharacters c

/-- Is a place the edge of a word? -/
def Place.isWordEdge (p : Place) : Bool :=
  (p.before.map isWordCharacter).getD false != (p.rest.head?.map isWordCharacter).getD false

/-- The same letter, if the case of letters does not count. -/
def fold (ignoreCase : Bool) (c : Char) : Char := if ignoreCase then c.toLower else c

/-- Does a character lie in one of several ranges? -/
def accepts (ignoreCase negated : Bool) (ranges : List Text.CharacterRange) (c : Char) : Bool :=
  let within := Text.isWithin ranges c ||
    (ignoreCase && (Text.isWithin ranges c.toLower || Text.isWithin ranges c.toUpper))
  within != negated

/-- Of two matches the one that leaves less of the line. -/
def longer (a b : Option (Place × Groups)) : Option (Place × Groups) :=
  match a, b with
  | some x, some y => if y.1.rest.length < x.1.rest.length then b else a
  | none, _ => b
  | _, none => a

/-- Matches tasks one after another from a place on. -/
def run (ignoreCase : Bool) : Nat → List Task → Place → Groups → Option (Place × Groups)
  | 0, _, _, _ => none
  | _, [], p, g => some (p, g)
  | fuel + 1, .close n start :: rest, p, g =>
    run ignoreCase fuel rest p ((n, start.take (start.length - p.rest.length)) :: g)
  | fuel + 1, .moved length :: rest, p, g =>
    if p.rest.length < length then run ignoreCase fuel rest p g else none
  | fuel + 1, .expression e :: rest, p, g =>
    match e with
    | .empty => run ignoreCase fuel rest p g
    | .oneOf negated ranges =>
      match p.rest with
      | [] => none
      | c :: _ =>
        if accepts ignoreCase negated ranges c then run ignoreCase fuel rest (p.move 1) g else none
    | .atStart => if p.before.isNone then run ignoreCase fuel rest p g else none
    | .atEnd => if p.rest.isEmpty then run ignoreCase fuel rest p g else none
    | .wordEdge isEdge => if p.isWordEdge = isEdge then run ignoreCase fuel rest p g else none
    | .group n e => run ignoreCase fuel (.expression e :: .close n p.rest :: rest) p g
    | .again n =>
      let s := (g.lookup n).getD []
      let here := p.rest.take s.length
      if here.map (fold ignoreCase) = s.map (fold ignoreCase) then
        run ignoreCase fuel rest (p.move s.length) g
      else none
    | .sequence a b => run ignoreCase fuel (.expression a :: .expression b :: rest) p g
    | .either a b =>
      longer (run ignoreCase fuel (.expression a :: rest) p g)
        (run ignoreCase fuel (.expression b :: rest) p g)
    | .repeated e least most =>
      if most = some 0 then run ignoreCase fuel rest p g
      else
        let fewer := most.map (· - 1)
        if 0 < least then
          run ignoreCase fuel (.expression e :: .expression (.repeated e (least - 1) fewer) :: rest)
            p g
        else
          run ignoreCase fuel
              (.expression e :: .moved p.rest.length :: .expression (.repeated e 0 fewer) :: rest)
              p g <|>
            run ignoreCase fuel rest p g

/-- How long one match is looked for. -/
def patience : Nat := 100000

/-- A match: what stands before it, what is matched, where it ends, and the groups. -/
structure Match where
  before : Octets
  text : Octets
  after : Place
  groups : Groups

/-- The first match from a place on. -/
def findFrom (e : Expression) (ignoreCase : Bool) : Nat → Octets → Place → Option Match
  | 0, _, _ => none
  | fuel + 1, before, p =>
    match run ignoreCase patience [.expression e] p [] with
    | some (after, groups) =>
      some ⟨before.reverse, p.rest.take (p.rest.length - after.rest.length), after, groups⟩
    | none =>
      match p.rest with
      | [] => none
      | c :: _ => findFrom e ignoreCase fuel (c :: before) (p.move 1)

/-- The first match from a place on. -/
def find? (e : Expression) (ignoreCase : Bool) (p : Place) : Option Match :=
  findFrom e ignoreCase (p.rest.length + 1) [] p

/-- Does a line have a match? -/
def isIn (e : Expression) (ignoreCase : Bool) (line : Octets) : Bool :=
  (e.find? ignoreCase ⟨none, line⟩).isSome

end Expression

end SolverPortfolio
