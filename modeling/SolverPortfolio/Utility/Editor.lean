import SolverPortfolio.Utility.Lines
import SolverPortfolio.Utility.Expression

/-
# Editing lines

An edit is a list of commands that is carried out for each line of a text. A
command may be limited to the lines that an address selects.

Main definitions: `Editor.Command`, `Editor.State`, `Editor.edit`.
-/

namespace SolverPortfolio.Editor

/-! ## Commands -/

/-- What selects a line. -/
inductive Address where
  | line (number : Nat)
  | step (first step : Nat)
  | last
  | matching (e : Expression) (ignoreCase : Bool)

/-- The end of a range of lines. -/
inductive RangeEnd where
  | address (a : Address)
  /-- So many lines after the first one. -/
  | after (count : Nat)

/-- The lines that a command is for. -/
inductive Selection where
  | all
  | one (a : Address)
  | range (first : Address) (last : RangeEnd)

/-- A piece of a replacement. -/
inductive ReplacementPiece where
  | text (s : Octets)
  /-- What was matched, or what a group has matched. -/
  | group (number : Nat)

/-- A substitution. -/
structure Substitution where
  expression : Expression
  ignoresCase : Bool
  replacement : List ReplacementPiece
  /-- The number of the first match that is replaced. -/
  first : Nat
  isGlobal : Bool
  prints : Bool

/-- When a jump is made: always, or if there was a substitution, or if there was none. -/
inductive JumpTest where
  | always
  | substituted
  | notSubstituted
  deriving DecidableEq

/-- What a command does. -/
inductive Action where
  /-- Begins a group of so many commands. -/
  | group (size : Nat)
  | substitute (s : Substitution)
  | mapCharacters (first second : Octets)
  | delete
  | deleteFirst
  | print
  | printFirst
  | printNumber
  | next
  | appendNext
  | quit (status : Nat) (silently : Bool)
  | append (text : Octets)
  | insert (text : Octets)
  | change (text : Octets)
  | hold
  | holdMore
  | get
  | getMore
  | exchange
  | clear
  | label (name : Octets)
  | jump (test : JumpTest) (name : Octets)

/-- A command, with a number of its own. -/
structure Command where
  number : Nat
  selection : Selection
  inverted : Bool
  action : Action

/-! ## Reading commands -/

/-- Reading a part of an edit: what is still to be read, and whether expressions are extended. -/
abbrev Reading := StateT Octets (Except String)

/-- Passes over characters. -/
def skip (n : Nat) : Reading Unit := modify (·.drop n)

/-- Passes over characters of a kind. -/
def skipWhile (p : Char → Bool) : Reading Unit := modify (·.dropWhile p)

/-- Is this a blank within a line? -/
def isGap (c : Char) : Bool := c = ' ' || c = '\t'

/-- Does this separate commands? -/
def isSeparator (c : Char) : Bool := isGap c || c = ';' || c = '\n'

/-- Reads a number. -/
def readNumber : Reading Nat := do
  let digits := (← get).takeWhile Text.isDigit
  skip digits.length
  return Text.digitsValue digits

/-- Cuts a text at a delimiter that has no backslash before it and does not stand in brackets. -/
def cutPart (delimiter : Char) (inBrackets : Bool) : Octets → Option (Octets × Octets)
  | [] => none
  | '\\' :: c :: rest =>
    if inBrackets then (cutPart delimiter inBrackets (c :: rest)).map fun (s, r) => ('\\' :: s, r)
    else
      (cutPart delimiter inBrackets rest).map fun (s, r) =>
        (if c = delimiter && c ≠ '|' && c ≠ '(' && c ≠ ')' then c :: s else '\\' :: c :: s, r)
  | c :: rest =>
    if c = delimiter && !inBrackets then some ([], rest)
    else (cutPart delimiter inBrackets rest).map fun (s, r) => (c :: s, r)

/-- Reads a part up to a delimiter. -/
def readPart (delimiter : Char) (command : String) : Reading Octets := do
  match cutPart delimiter false (← get) with
  | some (s, rest) => do
    set rest
    return s
  | none => throw s!"unterminated {command}"

/-- Reads an expression. -/
def readExpression (extended : Bool) (s : Octets) : Reading Expression :=
  match Expression.read? extended s with
  | some e => return e
  | none => throw "invalid regular expression"

/-- Reads an address, if there is one. -/
def readAddress (extended : Bool) : Reading (Option Address) := do
  match ← get with
  | '$' :: _ => do
    skip 1
    return some .last
  | '/' :: _ => do
    skip 1
    readMatching '/'
  | '\\' :: c :: _ => do
    skip 2
    readMatching c
  | c :: _ =>
    if Text.isDigit c then do
      let first ← readNumber
      match ← get with
      | '~' :: _ => do
        skip 1
        return some (.step first (← readNumber))
      | _ => return some (.line first)
    else return none
  | [] => return none
where
  /-- Reads an expression up to a delimiter. -/
  readMatching (delimiter : Char) : Reading (Option Address) := do
    let e ← readExpression extended (← readPart delimiter "address regex")
    match ← get with
    | 'I' :: _ => do
      skip 1
      return some (.matching e true)
    | _ => return some (.matching e false)

/-- Reads what selects the lines of a command. -/
def readSelection (extended : Bool) : Reading Selection := do
  match ← readAddress extended with
  | none => return .all
  | some first => do
    skipWhile isGap
    match ← get with
    | ',' :: _ => do
      skip 1
      skipWhile isGap
      match ← get with
      | '+' :: _ => do
        skip 1
        return .range first (.after (← readNumber))
      | _ =>
        match ← readAddress extended with
        | some a => return .range first (.address a)
        | none => throw "unexpected \x60,'"
    | _ => return .one first

/-- The pieces of a replacement. -/
def replacementOf : Octets → List ReplacementPiece
  | [] => []
  | '\\' :: c :: rest =>
    if Text.isDigit c then .group (Text.digitValue c) :: replacementOf rest
    else if c = 'n' then .text ['\n'] :: replacementOf rest
    else if c = 't' then .text ['\t'] :: replacementOf rest
    else .text [c] :: replacementOf rest
  | '&' :: rest => .group 0 :: replacementOf rest
  | c :: rest => .text [c] :: replacementOf rest

/-- Reads a substitution. -/
def readSubstitution (extended : Bool) : Reading Action := do
  match ← get with
  | [] => throw "unterminated \x60s' command"
  | delimiter :: rest => do
    set rest
    let pattern ← readPart delimiter "\x60s' command"
    let replacement ← readPart delimiter "\x60s' command"
    let flags := (← get).takeWhile fun c => c.isAlphanum
    skip flags.length
    match flags.find? fun c => !"gpIie".toList.contains c && !Text.isDigit c with
    | some _ => throw "unknown option to \x60s'"
    | none =>
      let digits := flags.filter Text.isDigit
      return .substitute
        { expression := ← readExpression extended pattern
          ignoresCase := flags.contains 'I' || flags.contains 'i'
          replacement := replacementOf replacement
          first := if digits.isEmpty then 1 else Text.digitsValue digits
          isGlobal := flags.contains 'g'
          prints := flags.contains 'p' }

/-- Reads the text of a command, which ends with the line. -/
def readText : Reading Octets := do
  skipWhile isGap
  match ← get with
  | '\\' :: '\n' :: _ => skip 2
  | '\\' :: _ => skip 1
  | _ => pure ()
  let text := (← get).takeWhile (· ≠ '\n')
  skip (text.length + 1)
  return text ++ ['\n']

/-- Reads the name of a label. -/
def readLabel : Reading Octets := do
  skipWhile isGap
  let name := (← get).takeWhile fun c => c ≠ ';' && c ≠ '\n' && c ≠ '\x7d'
  skip name.length
  return Text.dropEnd isGap name

/-- Commands without anything after their letter. -/
def plainActions : List (Char × Action) :=
  [('d', .delete), ('D', .deleteFirst), ('p', .print), ('P', .printFirst), ('=', .printNumber),
    ('n', .next), ('N', .appendNext), ('h', .hold), ('H', .holdMore), ('g', .get), ('G', .getMore),
    ('x', .exchange), ('z', .clear)]

/-- Reads what a command with a given letter does. -/
def readAction (extended : Bool) (letter : Char) : Reading Action := do
  match plainActions.lookup letter with
  | some action => return action
  | none =>
    match letter with
    | 's' => readSubstitution extended
    | 'y' =>
      match ← get with
      | [] => throw "unterminated \x60y' command"
      | delimiter :: rest => do
        set rest
        let first ← readPart delimiter "\x60y' command"
        let second ← readPart delimiter "\x60y' command"
        if first.length ≠ second.length then
          throw "strings for \x60y' command are different lengths"
        return .mapCharacters first second
    | 'q' => do
      skipWhile isGap
      return .quit (← readNumber) false
    | 'Q' => do
      skipWhile isGap
      return .quit (← readNumber) true
    | 'a' => return .append (← readText)
    | 'i' => return .insert (← readText)
    | 'c' => return .change (← readText)
    | ':' => return .label (← readLabel)
    | 'b' => return .jump .always (← readLabel)
    | 't' => return .jump .substituted (← readLabel)
    | 'T' => return .jump .notSubstituted (← readLabel)
    | _ => throw s!"unknown command: \x60{letter}'"

/-- Reads commands up to the end, or up to a closing brace. -/
def readCommands : Nat → Bool → Nat → Bool → Reading (List Command)
  | 0, _, _, _ => return []
  | fuel + 1, extended, number, inGroup => do
    skipWhile isSeparator
    match ← get with
    | [] => if inGroup then throw "unmatched \x60\x7b'" else return []
    | '#' :: rest => do
      set (rest.dropWhile (· ≠ '\n'))
      readCommands fuel extended number inGroup
    | '\x7d' :: _ => do
      if !inGroup then throw "unexpected \x60\x7d'"
      skip 1
      return []
    | _ => do
      let selection ← readSelection extended
      skipWhile isGap
      let inverted := (← get).head? = some '!'
      skipWhile fun c => c = '!' || isGap c
      match ← get with
      | [] => throw "missing command"
      | '\x7b' :: _ => do
        skip 1
        let inside ← readCommands fuel extended (number + 1) true
        let others ← readCommands fuel extended (number + 1 + inside.length) inGroup
        return ⟨number, selection, inverted, .group inside.length⟩ :: inside ++ others
      | letter :: _ => do
        skip 1
        let action ← readAction extended letter
        skipWhile isGap
        match ← get with
        | [] => pure ()
        | c :: _ =>
          let ended := match action with
            | .append _ => true
            | .insert _ => true
            | .change _ => true
            | _ => isSeparator c || c = '\x7d' || c = '#'
          if !ended then throw "extra characters after command"
        return ⟨number, selection, inverted, action⟩ ::
          (← readCommands fuel extended (number + 1) inGroup)

/-- Reads an edit; a complaint tells how much of it was read. -/
def read (extended : Bool) (s : Octets) : Except String (List Command) :=
  match (readCommands (s.length + 1) extended 0 false).run s with
  | .ok (commands, _) => .ok commands
  | .error message => .error s!"sed: -e expression #1, char {s.length}: {message}"

/-! ## Carrying out commands -/

/-- What an edit remembers between commands. -/
structure State where
  /-- The line being edited, and whether it ends with a line feed. -/
  pattern : Octets
  ended : Bool
  held : Octets
  /-- The number of the line. -/
  number : Nat
  /-- The lines that follow, with their ends. -/
  rest : List Octets
  /-- What was written, the last text first. -/
  written : List Octets
  /-- Is the end of the line written last missing? -/
  owesEnd : Bool
  /-- What is written at the end of the line. -/
  queue : List Octets
  substituted : Bool
  /-- The ranges that have begun, by the numbers of their commands, and the lines that they began
  with. -/
  begun : List (Nat × Nat)

/-- How the commands for a line end. -/
inductive LineEnd where
  /-- The line is written unless that is not wanted. -/
  | finished
  | dropped
  /-- The commands are carried out again, without reading a line. -/
  | again
  | quit (status : Nat) (silently : Bool)
  /-- There is no line to go on with. -/
  | starved
  deriving DecidableEq

namespace State

/-- Writes a text, after the end of the line before if that is missing. -/
def write (st : State) (s : Octets) : State :=
  { st with written := (if st.owesEnd then '\n' :: s else s) :: st.written, owesEnd := false }

/-- Writes a line, with a line feed if the line that was read has one. -/
def writeLine (st : State) (s : Octets) : State :=
  if st.ended then st.write (s ++ ['\n']) else { st.write s with owesEnd := true }

/-- Writes what was queued. -/
def writeQueue (st : State) : State :=
  { st.queue.foldl write st with queue := [] }

/-- Takes the next line, if there is one. -/
def takeLine? (st : State) : Option (Octets × State) :=
  match st.rest with
  | [] => none
  | line :: rest =>
    let ended := line.getLast? = some '\n'
    some (if ended then line.dropLast else line,
      { st with rest, ended, number := st.number + 1 })

/-- Does an address select the line? -/
def isAt (st : State) : Address → Bool
  | .line number => st.number = number
  | .step first step =>
    if step = 0 then st.number = first
    else decide (first ≤ st.number) && (st.number - first) % step = 0
  | .last => st.rest.isEmpty
  | .matching e ignoreCase => e.isIn ignoreCase st.pattern

/-- Is the line the last one of a range that began with a given line? -/
def isRangeEnd (st : State) (first : Nat) : RangeEnd → Bool
  | .address (.line number) => decide (number ≤ st.number)
  | .address (.matching e ignoreCase) =>
    first ≠ st.number && e.isIn ignoreCase st.pattern
  | .address a => st.isAt a
  | .after count => decide (first + count ≤ st.number)

/-- Is the line beyond the number with which a range ends? -/
def isBeyond (st : State) : RangeEnd → Bool
  | .address (.line number) => decide (number < st.number)
  | _ => false

/-- Does a range begin before the first line, which is then its first one? -/
def beginsBefore (st : State) : Address → Bool
  | .line 0 => st.number = 1
  | _ => false

/-- Is the line in a range that began with a given line? The range may end with it. -/
def selectBegun (st : State) (number first : Nat) (last : RangeEnd) : Bool × State :=
  if st.isRangeEnd first last then
    (!st.isBeyond last, { st with begun := st.begun.filter (·.1 ≠ number) })
  else (true, st)

/-- Is the line in a range that has not begun? The range may begin with it. -/
def selectFresh (st : State) (number : Nat) (first : Address) (last : RangeEnd) : Bool × State :=
  let before := st.beginsBefore first
  if st.isAt first || before then
    if st.isRangeEnd (if before then 0 else st.number) last then (true, st)
    else (true, { st with begun := (number, st.number) :: st.begun })
  else (false, st)

/-- Is the line among those that a command with a given number selects? -/
def selectLine (st : State) (number : Nat) : Selection → Bool × State
  | .all => (true, st)
  | .one a => (st.isAt a, st)
  | .range first last =>
    match st.begun.lookup number with
    | some began => st.selectBegun number began last
    | none => st.selectFresh number first last

/-- Is a command for the line? Ranges begin and end on the way. -/
def select (st : State) (c : Command) : Bool × State :=
  let (selected, st) := st.selectLine c.number c.selection
  (selected != c.inverted, st)

end State

/-- The text that a replacement stands for. -/
def fill (found : Expression.Match) (replacement : List ReplacementPiece) : Octets :=
  replacement.flatMap fun piece =>
    match piece with
    | .text s => s
    | .group 0 => found.text
    | .group n => (found.groups.lookup n).getD []

/-- Replaces matches from a place on, and tells whether there were any. -/
def substituteFrom (s : Substitution) : Nat → Nat → Expression.Place → Octets × Bool
  | 0, _, place => (place.rest, false)
  | fuel + 1, n, place =>
    match s.expression.find? s.ignoresCase place with
    | none => (place.rest, false)
    | some found =>
      let replaces := decide (s.first ≤ n)
      let shown := if replaces then fill found s.replacement else found.text
      if replaces && !s.isGlobal then (found.before ++ shown ++ found.after.rest, true)
      else if found.text.isEmpty then
        match found.after.rest with
        | [] => (found.before ++ shown, replaces)
        | c :: _ =>
          let (more, changed) := substituteFrom s fuel (n + 1) (found.after.move 1)
          (found.before ++ shown ++ c :: more, replaces || changed)
      else
        let (more, changed) := substituteAfter fuel (n + 1) found.after
        (found.before ++ shown ++ more, replaces || changed)
where
  /-- Goes on after a match, where an empty match does not count. -/
  substituteAfter (fuel n : Nat) (place : Expression.Place) : Octets × Bool :=
    match s.expression.find? s.ignoresCase place with
    | none => (place.rest, false)
    | some found =>
      if found.text.isEmpty && found.before.isEmpty then
        match place.rest with
        | [] => ([], false)
        | c :: _ =>
          let (more, changed) := substituteFrom s fuel n (place.move 1)
          (c :: more, changed)
      else substituteFrom s fuel n place

/-- The first line of a text, and what follows it. -/
def firstLine (s : Octets) : Octets × Option Octets :=
  match Text.cutAt '\n' s with
  | some (line, rest) => (line, some rest)
  | none => (s, none)

/-- Carries out commands one after another, where jumps look for labels in all commands. -/
def carryOut (silent : Bool) (all : List Command) : Nat → List Command → State → State × LineEnd
  | 0, _, st => (st, .finished)
  | _, [], st => (st, .finished)
  | fuel + 1, c :: rest, st =>
    let (selected, st) := st.select c
    let goOn := carryOut silent all fuel rest
    if !selected then
      match c.action with
      | .group size => carryOut silent all fuel (rest.drop size) st
      | _ => goOn st
    else
      match c.action with
      | .group _ => goOn st
      | .substitute s =>
        let (pattern, changed) := substituteFrom s (2 * st.pattern.length + 2) 1 ⟨none, st.pattern⟩
        if changed then
          let st := { st with pattern, substituted := true }
          goOn (if s.prints then st.writeLine pattern else st)
        else goOn st
      | .mapCharacters first second =>
        let image := fun c => (((first.zip second).lookup c)).getD c
        goOn { st with pattern := st.pattern.map image }
      | .delete => (st, .dropped)
      | .deleteFirst =>
        match firstLine st.pattern with
        | (_, none) => (st, .dropped)
        | (_, some more) => ({ st with pattern := more }, .again)
      | .print => goOn (st.writeLine st.pattern)
      | .printFirst => goOn (st.writeLine (firstLine st.pattern).1)
      | .printNumber => goOn (st.write (Nat.toDigits 10 st.number ++ ['\n']))
      | .next =>
        match st.takeLine? with
        | none => (st, .starved)
        | some (_, _) =>
          let st := (if silent then st else st.writeLine st.pattern).writeQueue
          match st.takeLine? with
          | none => (st, .starved)
          | some (line, st) => goOn { st with pattern := line }
      | .appendNext =>
        match st.takeLine? with
        | none => (st, .starved)
        | some (line, st) => goOn { st with pattern := st.pattern ++ '\n' :: line }
      | .quit status silently => (st, .quit status silently)
      | .append text => goOn { st with queue := st.queue ++ [text] }
      | .insert text => goOn (st.write text)
      | .change text =>
        let isLast := match c.selection with
          | .range _ _ => c.inverted || (st.begun.lookup c.number).isNone
          | _ => true
        (if isLast then st.write text else st, .dropped)
      | .hold => goOn { st with held := st.pattern }
      | .holdMore => goOn { st with held := st.held ++ '\n' :: st.pattern }
      | .get => goOn { st with pattern := st.held }
      | .getMore => goOn { st with pattern := st.pattern ++ '\n' :: st.held }
      | .exchange => goOn { st with pattern := st.held, held := st.pattern }
      | .clear => goOn { st with pattern := [] }
      | .label _ => goOn st
      | .jump test name =>
        let jumps := match test with
          | .always => true
          | .substituted => st.substituted
          | .notSubstituted => !st.substituted
        let st := if test = .always then st else { st with substituted := false }
        if !jumps then goOn st
        else if name.isEmpty then (st, .finished)
        else
          let isTarget := fun c : Command => match c.action with
            | .label other => other = name
            | _ => false
          carryOut silent all fuel ((all.dropWhile fun c => !isTarget c).drop 1) st

/-- How many commands are carried out for a line. -/
def patience : Nat := 10000

/-- Carries out commands for each line. Gives back the exit code if the edit has come to its end;
whether there will be more lines is told by the flag. -/
def editLines (silent : Bool) (commands : List Command) (isAll : Bool) :
    Nat → State → State × Option Nat
  | 0, st => (st, some 0)
  | fuel + 1, st =>
    match st.takeLine? with
    | none => (st, if isAll then some 0 else none)
    | some (line, st) => cycle fuel { st with pattern := line, substituted := false }
where
  /-- Carries out the commands for the line that was read. -/
  cycle (fuel : Nat) (st : State) : State × Option Nat :=
    let shown := fun st : State => if silent then st else st.writeLine st.pattern
    match carryOut silent commands patience commands st with
    | (st, .finished) => editLines silent commands isAll fuel (shown st).writeQueue
    | (st, .dropped) => editLines silent commands isAll fuel st.writeQueue
    | (st, .again) =>
      match fuel with
      | 0 => (st, some 0)
      | fuel + 1 => cycle fuel st.writeQueue
    | (st, .quit status silently) =>
      ((if silently then st else shown st).writeQueue, some status)
    | (st, .starved) => if isAll then ((shown st).writeQueue, some 0) else (st, none)

/-- Carries out commands for a text: what is written, and the exit code if the edit has come to its
end. -/
def edit (silent : Bool) (commands : List Command) (s : Octets) (isAll : Bool) :
    Octets × Option Nat :=
  let lines := Lines.withEnds s
  let lines := if isAll then lines else lines.filter fun line => line.getLast? = some '\n'
  let (st, status) := editLines silent commands isAll (s.length + 1)
    { pattern := [], ended := true, held := [], number := 0, rest := lines, written := []
      owesEnd := false, queue := [], substituted := false, begun := [] }
  (st.written.reverse.flatten, status)

/-- The utility that edits. -/
def sed (disk : Disk) (arguments : List Octets) : Deed :=
  let (options, others) := splitOptions ['e'] arguments
  let given := (options.filter (·.1 = 'e')).map (·.2)
  let texts := if given.isEmpty then others.take 1 else given
  let paths := if given.isEmpty then others.drop 1 else others
  let isSet := fun c (word : String) =>
    hasOption options c || options.any fun o => o.1 = '-' && o.2 = word.toList
  let silent := isSet 'n' "quiet" || isSet 'n' "silent"
  let extended := isSet 'E' "regexp-extended" || hasOption options 'r'
  if texts.isEmpty then
    let operands := "\x7bscript-only-if-no-other-script\x7d [input-file]..."
    .finish (.fail 1 ("Usage: sed [OPTION]... " ++ operands))
  else
    match read extended (List.intercalate ['\n'] texts) with
    | .error complaint => .finish (.fail 1 complaint)
    | .ok commands =>
      if isSet 'i' "in-place" then
        let (disk, complaints) := paths.foldl
          (fun (disk, complaints) path =>
            match disk.read (Octets.toText path) with
            | .error e =>
              (disk, complaints ++ [s!"sed: can't read {Octets.toText path}: {e.words}"])
            | .ok content =>
              let (output, _) := edit silent commands (Octets.ofBytes content) true
              match disk.replace (Octets.toText path) (Octets.toBytes output) with
              | .ok disk => (disk, complaints)
              | .error _ => (disk, complaints))
          ((disk, []) : Disk × List String)
        .change disk ⟨[], complaints, if complaints.isEmpty then 0 else 4⟩
      else
        let unbuffered := isSet 'u' "unbuffered"
        let f := Filter.ofText ("sed: can't read " ++ ·) disk paths fun s ended =>
          let (output, status) := edit silent commands s ended
          ⟨if status.isSome || unbuffered then output else [], status⟩
        .filter { f with status := if f.status = 0 then 0 else 2 }

end SolverPortfolio.Editor
