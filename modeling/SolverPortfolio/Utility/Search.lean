import SolverPortfolio.Utility.Basic
import SolverPortfolio.Utility.Expression

/-
# Searching

Finding the lines of texts that have a match.

Main definitions: `Search.Plan`, `Search.Plan.shown`, `Search.grep`.
-/

namespace SolverPortfolio.Search

/-- How expressions are read. -/
inductive Spelling where
  | basic
  | extended
  | fixed
  deriving DecidableEq

/-- What is looked for, and what is shown of it. -/
structure Plan where
  expression : Expression
  ignoresCase : Bool
  inverted : Bool
  showsNames : Bool
  showsNumbers : Bool
  showsMatches : Bool
  counts : Bool
  namesOnly : Bool
  quiet : Bool
  /-- The greatest number of lines wanted of a text. -/
  most : Option Nat
  atOnce : Bool

/-- An expression that has to match a whole line, or whole words. -/
def restrict (wholeLine wholeWord : Bool) (e : Expression) : Expression :=
  if wholeLine then .sequence .atStart (.sequence (.group 0 e) .atEnd)
  else if wholeWord then .sequence (.wordEdge true) (.sequence (.group 0 e) (.wordEdge true))
  else e

/-- The expression that matches what one of several expressions matches. -/
def anyOf? (spelling : Spelling) (texts : List Octets) : Option Expression :=
  texts.foldl
    (fun found s => do
      let e ← if spelling = .fixed then some (Expression.ofText s)
        else Expression.read? (spelling = .extended) s
      match found with
      | none => some e
      | some before => some (.either before e))
    none

namespace Plan

/-- Is a line wanted? -/
def accepts (p : Plan) (line : Octets) : Bool :=
  p.expression.isIn p.ignoresCase line != p.inverted

/-- The matches in a line that are not empty, from a place on. -/
def matchesFrom (p : Plan) : Nat → Expression.Place → List Octets
  | 0, _ => []
  | fuel + 1, place =>
    match p.expression.find? p.ignoresCase place with
    | none => []
    | some found =>
      if found.text.isEmpty then
        if found.after.rest.isEmpty then [] else p.matchesFrom fuel (found.after.move 1)
      else found.text :: p.matchesFrom fuel found.after

/-- The lines that are wanted of a text, with their numbers. -/
def select (p : Plan) (s : Octets) : List (Octets × Nat) :=
  let found := ((Octets.lines s).zipIdx 1).filter fun (line, _) => p.accepts line
  match p.most with
  | some n => found.take n
  | none => found

/-- What stands before a line that is shown. -/
def label (p : Plan) (name : Octets) (number : Nat) : Octets :=
  (if p.showsNames then name ++ [':'] else []) ++
    (if p.showsNumbers then Nat.toDigits 10 number ++ [':'] else [])

/-- What is shown of a text. -/
def shown (p : Plan) (source : Source) : Octets :=
  let name := if source.name = ['-'] then "(standard input)".toList else source.name
  let found := p.select source.content
  if p.quiet then []
  else if p.namesOnly then if found.isEmpty then [] else name ++ ['\n']
  else if p.counts then
    (if p.showsNames then name ++ [':'] else []) ++ Nat.toDigits 10 found.length ++ ['\n']
  else
    found.flatMap fun (line, number) =>
      if p.showsMatches then
        (p.matchesFrom (line.length + 1) ⟨none, line⟩).flatMap fun m =>
          p.label name number ++ m ++ ['\n']
      else p.label name number ++ line ++ ['\n']

/-- What is known when some text was read. -/
def respond (p : Plan) (sources : List Source) (ended : Bool) : Progress :=
  let complete := fun s : Source =>
    if ended then s
    else { s with content := (Octets.unlines (Text.splitOn '\n' s.content).dropLast) }
  let sources := sources.map complete
  let found := sources.any fun s => !(p.select s.content).isEmpty
  let reached := match p.most, sources with
    | some n, [s] => decide (n ≤ (p.select s.content).length)
    | _, _ => false
  let finished := ended || reached || (p.quiet && found)
  let output := if finished || p.atOnce then sources.flatMap p.shown else []
  ⟨output, if finished then some (if found then 0 else 1) else none⟩

end Plan

/-- The utility that searches. -/
def grep (spelling : Spelling) (disk : Disk) (arguments : List Octets) : Deed :=
  let (options, others) := splitOptions ['e', 'm', 'A', 'B', 'C'] arguments
  let given := (options.filter (·.1 = 'e')).map (·.2)
  let texts := if given.isEmpty then others.take 1 else given
  let paths := if given.isEmpty then others.drop 1 else others
  let spelling := if hasOption options 'F' then .fixed
    else if hasOption options 'E' then .extended else spelling
  if texts.isEmpty then
    .finish ⟨[], ["Usage: grep [OPTION]... PATTERNS [FILE]...",
      "Try 'grep --help' for more information."], 2⟩
  else
    match anyOf? spelling (texts.flatMap (Text.splitOn '\n')) with
    | none => .finish (.fail 2 "grep: Invalid regular expression")
    | some e =>
      let several := decide (1 < paths.length)
      let plan : Plan :=
        { expression := restrict (hasOption options 'x') (hasOption options 'w') e
          ignoresCase := hasOption options 'i' || hasOption options 'y'
          inverted := hasOption options 'v'
          showsNames := (several || hasOption options 'H') && !hasOption options 'h'
          showsNumbers := hasOption options 'n'
          showsMatches := hasOption options 'o'
          counts := hasOption options 'c'
          namesOnly := hasOption options 'l'
          quiet := hasOption options 'q'
          most := (optionValue? options 'm').map Text.digitsValue
          atOnce := options.any fun o => o.1 = '-' && o.2 = "line-buffered".toList }
      let f := Filter.ofFiles ("grep: " ++ ·) disk paths plan.respond
      .filter { f with
        complaints := if hasOption options 's' then [] else f.complaints
        status := if f.status = 0 then 0 else 2 }

end SolverPortfolio.Search
