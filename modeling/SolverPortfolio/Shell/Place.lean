import SolverPortfolio.Shell.Command

/-
# Places in scripts

A script is read from left to right. A place is what is still to be read,
together with the number of the line.

Main definitions: `Shell.Place`, `Shell.Fault`, `Shell.Reading`,
`Shell.skipLines`, `Shell.takeDocument`.
-/

namespace SolverPortfolio.Shell

/-! ## Faults -/

/-- Why a script cannot be read. -/
inductive FaultCause where
  | unexpected (token : String) (expected : Option String)
  | openQuote
  | openBackquote
  | openBrace
  | openArithmetic
  | badSubstitution
  | badLoopVariable
  | badFunctionName
  deriving Repr, DecidableEq

/-- A fault of a script, and the line it stands on. -/
structure Fault where
  cause : FaultCause
  line : Nat
  deriving Repr, DecidableEq

/-- The text shown for the cause of a fault. -/
def FaultCause.message : FaultCause → String
  | unexpected token none => s!"Syntax error: {token} unexpected"
  | unexpected token (some expected) =>
    s!"Syntax error: {token} unexpected (expecting {expected})"
  | openQuote => "Syntax error: Unterminated quoted string"
  | openBackquote => "Syntax error: EOF in backquote substitution"
  | openBrace => "Syntax error: Missing '\x7d'"
  | openArithmetic => "Syntax error: Missing '))'"
  | badSubstitution => "Bad substitution"
  | badLoopVariable => "Syntax error: Bad for loop variable"
  | badFunctionName => "Syntax error: Bad function name"

/-! ## Places -/

/-- What is still to be read of a script. -/
structure Place where
  rest : Octets
  line : Nat

/-- Reading a part of a script. -/
abbrev Reading := StateT Place (Except Fault)

/-- Stops reading. -/
def fail {α : Type} (cause : FaultCause) : Reading α := do
  throw ⟨cause, (← get).line⟩

/-- What is still to be read. -/
def rest : Reading Octets := return (← get).rest

/-- Passes over characters. -/
def skip (n : Nat) : Reading Unit :=
  modify fun p => ⟨p.rest.drop n, p.line + (p.rest.take n).count '\n'⟩

/-! ## Blanks -/

/-- Characters that end a word. -/
def isBreak (c : Char) : Bool :=
  c = ' ' || c = '\t' || c = '\n' || c = ';' || c = '&' || c = '|' || c = '<' || c = '>' ||
    c = '(' || c = ')'

/-- The number of blanks at the start; a backslash joins two lines. -/
def blankLength : Octets → Nat
  | '\\' :: '\n' :: rest => blankLength rest + 2
  | c :: rest => if c = ' ' || c = '\t' then blankLength rest + 1 else 0
  | [] => 0

/-- Passes over blanks, and over a comment. -/
def skipBlanks : Reading Unit := do
  skip (blankLength (← rest))
  match ← rest with
  | '#' :: comment => skip (1 + (comment.takeWhile (· ≠ '\n')).length)
  | _ => pure ()

/-- Passes over blanks, comments and at most `fuel` line feeds. -/
def skipLinesFrom : Nat → Reading Unit
  | 0 => skipBlanks
  | fuel + 1 => do
    skipBlanks
    match ← rest with
    | '\n' :: _ => do
      skip 1
      skipLinesFrom fuel
    | _ => pure ()

/-- Passes over blanks, comments and line feeds. -/
def skipLines : Reading Unit := do
  skipLinesFrom (← rest).length

/-! ## Words that are keywords -/

/-- The words that structure scripts. -/
def keywords : List String :=
  ["if", "then", "else", "elif", "fi", "while", "until", "for", "do", "done", "case", "esac",
    "\x7b", "\x7d", "!", "in"]

/-- The word at a place, if it is written without quotes. -/
def plainWord (s : Octets) : Option Octets :=
  let word := s.takeWhile fun c =>
    !isBreak c && c ≠ '\'' && c ≠ '"' && c ≠ '\\' && c ≠ '$' && c ≠ '\x60'
  match s.drop word.length with
  | [] => some word
  | c :: _ => if isBreak c then some word else none

/-- Is the given keyword next? -/
def isNext (keyword : String) : Reading Bool :=
  return plainWord (← rest) = some keyword.toList

/-- The name of what is next, as faults call it. -/
def tokenName (s : Octets) : String :=
  match s with
  | [] => "end of file"
  | '\n' :: _ => "newline"
  | ';' :: ';' :: _ => "\";;\""
  | '&' :: '&' :: _ => "\"&&\""
  | '|' :: '|' :: _ => "\"||\""
  | '<' :: _ => "redirection"
  | '>' :: _ => "redirection"
  | c :: _ =>
    if isBreak c then s!"\"{c}\""
    else
      match plainWord s with
      | some word =>
        let word := String.ofList word
        if keywords.contains word && word ≠ "in" then s!"\"{word}\"" else "word"
      | none => "word"

/-- Refuses what is next. -/
def refuse {α : Type} (expected : Option String) : Reading α := do
  fail (.unexpected (tokenName (← rest)) expected)

/-- Passes over a keyword that has to come next. -/
def expectKeyword (keyword : String) : Reading Unit := do
  if ← isNext keyword then skip keyword.length else refuse (some s!"\"{keyword}\"")

/-! ## Documents -/

/-- Cuts a text at its first line feed, which is dropped. -/
def cutLine (s : Octets) : Octets × Octets := (Text.cutAt '\n' s).getD (s, [])

/-- The lines up to one that is the delimiter, and what follows it. Tabs at the start of lines are
dropped if they do not count. -/
def documentFrom (dropTabs : Bool) (delimiter : Octets) : Nat → Octets → Octets × Octets
  | 0, s => ([], s)
  | fuel + 1, s =>
    if s.isEmpty then ([], [])
    else
      let (line, after) := cutLine s
      let line := if dropTabs then line.dropWhile (· = '\t') else line
      if line = delimiter then ([], after)
      else
        let (document, after) := documentFrom dropTabs delimiter fuel after
        (line ++ '\n' :: document, after)

/-- Takes the document that follows the line being read out of the script. -/
def takeDocument (dropTabs : Bool) (delimiter : Octets) : Reading Octets := do
  let p ← get
  let (line, after) := cutLine p.rest
  let (document, after) := documentFrom dropTabs delimiter p.rest.length after
  set { p with rest := line ++ '\n' :: after }
  return document

end SolverPortfolio.Shell
