import SolverPortfolio.Shell.Place
import SolverPortfolio.Text.Integer

/-
# Parts of scripts

The small parts of words and commands, which are read without a descent: names,
backquotes, assignments, and the signs of redirections.

Main definitions: `Shell.Surrounding`, `Shell.parameterName`,
`Shell.assignment?`, `Shell.redirectSign?`.
-/

namespace SolverPortfolio.Shell

/-! ## Small parts of words -/

/-- Where the pieces of a word stand, which decides what ends them and what is quoted. -/
inductive Surrounding where
  | bare
  | quotes
  /-- Within the braces of a parameter, which may themselves stand in quotes. -/
  | braces (quoted : Bool)
  | document
  /-- Within an arithmetic expression, with a number of open parentheses. -/
  | arithmetic (depth : Nat)
  deriving DecidableEq

namespace Surrounding

/-- Are characters quoted by where they stand? -/
def quotes? : Surrounding → Bool
  | bare => false
  | braces quoted => quoted
  | _ => true

/-- Does a character keep its backslash? -/
def keepsBackslash (s : Surrounding) (c : Char) : Bool :=
  s.quotes? &&
    !(c = '$' || c = '\x60' || c = '\\' || (c = '"' && s ≠ document) ||
      (c = '\x7d' && s = braces true))

end Surrounding

/-- Adds a character to the pieces read so far, the last one first. -/
def addChar (pieces : Word) (c : Char) (quoted : Bool) : Word :=
  match pieces with
  | .text s q :: before =>
    if q = quoted then .text (s ++ [c]) q :: before else .text [c] quoted :: pieces
  | _ => .text [c] quoted :: pieces

/-- Characters that begin the name of a variable. -/
def isNameStart (c : Char) : Bool := c.isAlpha || c = '_'

/-- Characters of the names of variables. -/
def isNameChar (c : Char) : Bool := c.isAlphanum || c = '_'

/-- Is a text the name of a variable? -/
def isName (s : Octets) : Bool :=
  match s with
  | [] => false
  | c :: rest => isNameStart c && rest.all isNameChar

/-- Parameters whose name is one character. -/
def isSpecialName (c : Char) : Bool :=
  c = '@' || c = '*' || c = '#' || c = '?' || c = '-' || c = '$' || c = '!'

/-- The name of a parameter at the start of a text; without braces a number has one digit. -/
def parameterName (braced : Bool) (s : Octets) : Octets :=
  match s with
  | [] => []
  | c :: _ =>
    if isNameStart c then s.takeWhile isNameChar
    else if Text.isDigit c then (if braced then s.takeWhile Text.isDigit else [c])
    else if isSpecialName c then [c]
    else []

/-- The text up to a backquote that no backslash stands before. A backslash before some characters
is dropped. -/
def backquoted (quoted : Bool) : Octets → Option (Octets × Nat)
  | [] => none
  | '\x60' :: _ => some ([], 1)
  | '\\' :: c :: rest =>
    (backquoted quoted rest).map fun (s, n) =>
      if c = '\x60' || c = '\\' || c = '$' || (quoted && c = '"') then (c :: s, n + 2)
      else ('\\' :: c :: s, n + 2)
  | c :: rest => (backquoted quoted rest).map fun (s, n) => (c :: s, n + 1)

/-- The text of a word, if nothing has to be filled in, and whether some of it is quoted. -/
def literal : Word → Option (Octets × Bool)
  | [] => some ([], false)
  | .text s quoted :: rest => (literal rest).map fun (t, q) => (s ++ t, quoted || q)
  | _ :: _ => none

/-- The use of a parameter that a sign stands for. -/
def useOf (sign : Char) (emptyCounts : Bool) (word : Word) : Use :=
  if sign = '-' then .orElse emptyCounts word
  else if sign = '=' then .orAssign emptyCounts word
  else if sign = '?' then .orFail emptyCounts word
  else .ifSet emptyCounts word

/-- Is this a sign for the use of a parameter? -/
def isUseSign (c : Char) : Bool := c = '-' || c = '=' || c = '?' || c = '+'

/-- The variable and the value of a word that is an assignment. -/
def assignment? : Word → Option (Octets × Word)
  | .text s false :: rest =>
    match Text.cutAt '=' s with
    | some (name, value) =>
      if isName name then
        some (name, if value.isEmpty then rest else .text value false :: rest)
      else none
    | none => none
  | _ => none

/-- The stream and the kind of a redirection at the start of a text, and the length of its sign. -/
def redirectSign? (s : Octets) : Option (Nat × RedirectKind × Nat) :=
  let (given, s, n) := match s with
    | c :: sign :: _ =>
      if Text.isDigit c && (sign = '<' || sign = '>') then
        (some (Text.digitValue c), s.drop 1, 1)
      else (none, s, 0)
    | _ => (none, s, 0)
  match s with
  | '>' :: '>' :: _ => some (given.getD 1, .append, n + 2)
  | '>' :: '&' :: _ => some (given.getD 1, .duplicate, n + 2)
  | '>' :: '|' :: _ => some (given.getD 1, .write, n + 2)
  | '>' :: _ => some (given.getD 1, .write, n + 1)
  | '<' :: '<' :: '-' :: _ => some (given.getD 0, .document, n + 3)
  | '<' :: '<' :: _ => some (given.getD 0, .document, n + 2)
  | '<' :: '&' :: _ => some (given.getD 0, .duplicate, n + 2)
  | '<' :: '>' :: _ => some (given.getD 0, .read, n + 2)
  | '<' :: _ => some (given.getD 0, .read, n + 1)
  | _ => none

/-- Is a list of commands at its end? -/
def atListEnd : Reading Bool := do
  match ← rest with
  | [] => return true
  | ')' :: _ => return true
  | ';' :: ';' :: _ => return true
  | s =>
    return match plainWord s with
      | some word =>
        ["then", "else", "elif", "fi", "do", "done", "esac", "\x7d"].contains (String.ofList word)
      | none => false

/-- Reads what ends a command of a list, and tells whether more may follow. -/
def readEnd (c : Command) : Reading (Command × Bool) := do
  skipBlanks
  match ← rest with
  | ';' :: ';' :: _ => return (c, false)
  | ';' :: _ => do
    skip 1
    return (c, true)
  | '\n' :: _ => do
    skip 1
    return (c, true)
  | '&' :: _ => do
    skip 1
    return (.background c, true)
  | _ => return (c, false)

end SolverPortfolio.Shell
