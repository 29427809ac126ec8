import SolverPortfolio.Text.Octets

/-
# Shell commands

The commands of a small shell: simple commands, pipelines, lists, conditions,
loops, choices and functions. The words of a command are made of pieces; a
piece may stand for the value of a parameter, for what a script prints, or for
the value of an arithmetic expression.

Main definitions: `Shell.Piece`, `Shell.Word`, `Shell.Redirection`,
`Shell.Command`, `Shell.Command.fill?`.
-/

namespace SolverPortfolio.Shell

/-! ## Words -/

mutual

/-- A piece of a word. -/
inductive Piece where
  /-- Characters as they are. -/
  | text (s : Octets) (quoted : Bool)
  /-- What a script has printed. -/
  | printed (s : Octets) (quoted : Bool)
  | parameter (name : Octets) (use : Use) (quoted : Bool)
  /-- A script of which what it prints is wanted. -/
  | script (s : Octets) (quoted : Bool)
  | arithmetic (expression : List Piece) (quoted : Bool)

/-- How the value of a parameter is used. A parameter that is set to an empty text may count as
one that is not set. -/
inductive Use where
  | plain
  | length
  | orElse (emptyCounts : Bool) (word : List Piece)
  | orAssign (emptyCounts : Bool) (word : List Piece)
  | orFail (emptyCounts : Bool) (word : List Piece)
  | ifSet (emptyCounts : Bool) (word : List Piece)
  /-- Without what a pattern matches at one of the ends. -/
  | without (atEnd longest : Bool) (pattern : List Piece)

end

/-- A word before its pieces are filled in. -/
abbrev Word := List Piece

mutual

/-- The first script in a piece. -/
def Piece.script? : Piece → Option Octets
  | .script s _ => some s
  | .parameter _ use _ => use.script?
  | .arithmetic e _ => scriptOfAll? e
  | .text _ _ => none
  | .printed _ _ => none

/-- The first script in the word that goes with a parameter. -/
def Use.script? : Use → Option Octets
  | .plain => none
  | .length => none
  | .orElse _ w => scriptOfAll? w
  | .orAssign _ w => scriptOfAll? w
  | .orFail _ w => scriptOfAll? w
  | .ifSet _ w => scriptOfAll? w
  | .without _ _ w => scriptOfAll? w

/-- The first script in a word. -/
def scriptOfAll? : List Piece → Option Octets
  | [] => none
  | p :: rest => p.script? <|> scriptOfAll? rest

end

mutual

/-- Puts what it has printed in the place of the first script in a piece. -/
def Piece.fill? (printed : Octets) : Piece → Option Piece
  | .script _ quoted => some (.printed printed quoted)
  | .parameter name use quoted => (use.fill? printed).map (.parameter name · quoted)
  | .arithmetic e quoted => (fillAll? printed e).map (.arithmetic · quoted)
  | .text _ _ => none
  | .printed _ _ => none

/-- Puts what it has printed in the place of the first script in the word of a parameter. -/
def Use.fill? (printed : Octets) : Use → Option Use
  | .plain => none
  | .length => none
  | .orElse e w => (fillAll? printed w).map (.orElse e)
  | .orAssign e w => (fillAll? printed w).map (.orAssign e)
  | .orFail e w => (fillAll? printed w).map (.orFail e)
  | .ifSet e w => (fillAll? printed w).map (.ifSet e)
  | .without a l w => (fillAll? printed w).map (.without a l)

/-- Puts what it has printed in the place of the first script in a word. -/
def fillAll? (printed : Octets) : List Piece → Option (List Piece)
  | [] => none
  | p :: rest =>
    match p.fill? printed with
    | some p => some (p :: rest)
    | none => (fillAll? printed rest).map (p :: ·)

end

/-! ## Commands -/

/-- What a redirection does with a stream. -/
inductive RedirectKind where
  | read
  | write
  | append
  | duplicate
  /-- The target itself is what is read. -/
  | document
  deriving Repr, DecidableEq

/-- A stream of a command, what is done with it, and the word for the other end. -/
structure Redirection where
  stream : Nat
  kind : RedirectKind
  target : Word

/-- A command. -/
inductive Command where
  /-- Does nothing. -/
  | nothing
  /-- A command of words, with the line it stands on. -/
  | simple (line : Nat) (assignments : List (Octets × Word)) (words : List Word)
      (redirections : List Redirection)
  | redirected (c : Command) (redirections : List Redirection)
  | pipeline (negated : Bool) (stages : List Command)
  | both (first second : Command)
  | either (first second : Command)
  | sequence (first second : Command)
  | background (c : Command)
  | subshell (c : Command)
  | conditional (test body other : Command)
  /-- Repeats the body as long as the test succeeds, or as long as it fails. -/
  | loop (untilSuccess : Bool) (test body : Command)
  /-- Repeats the body for each of the words, or for each argument. -/
  | each (name : Octets) (words : Option (List Word)) (body : Command)
  | choice (word : Word) (arms : List (List Word × Command))
  | definition (name : Octets) (body : Command)

namespace Command

/-- The words that a command itself is made of, in the order in which they are filled in. -/
def ownWords : Command → List Word
  | simple _ assignments words redirections =>
    words ++ redirections.map (·.target) ++ assignments.map (·.2)
  | redirected _ redirections => redirections.map (·.target)
  | each _ words _ => words.getD []
  | choice word arms => word :: arms.flatMap (·.1)
  | _ => []

/-- The first script in the words of a command. -/
def script? (c : Command) : Option Octets := c.ownWords.findSome? scriptOfAll?

/-- Changes the first element of a list that can be changed. -/
def changeFirst? {α : Type} (f : α → Option α) : List α → Option (List α)
  | [] => none
  | a :: rest =>
    match f a with
    | some a => some (a :: rest)
    | none => (changeFirst? f rest).map (a :: ·)

/-- Fills in the first script of a redirection. -/
def fillRedirection? (printed : Octets) (r : Redirection) : Option Redirection :=
  (fillAll? printed r.target).map fun target => { r with target }

/-- Puts what it has printed in the place of the first script in the words of a command. -/
def fill? (printed : Octets) : Command → Option Command
  | simple line assignments words redirections =>
    ((changeFirst? (fillAll? printed) words).map fun words =>
        simple line assignments words redirections) <|>
      ((changeFirst? (fillRedirection? printed) redirections).map fun redirections =>
        simple line assignments words redirections) <|>
      ((changeFirst? (fun a => (fillAll? printed a.2).map fun w => (a.1, w)) assignments).map
        fun assignments => simple line assignments words redirections)
  | redirected c redirections =>
    (changeFirst? (fillRedirection? printed) redirections).map (redirected c)
  | each name (some words) body =>
    (changeFirst? (fillAll? printed) words).map fun words => each name (some words) body
  | choice word arms =>
    ((fillAll? printed word).map fun word => choice word arms) <|>
      ((changeFirst?
        (fun arm => (changeFirst? (fillAll? printed) arm.1).map fun ws => (ws, arm.2)) arms).map
        (choice word))
  | _ => none

end Command

end SolverPortfolio.Shell
