/-
# System errors

What a machine says when it cannot read a file or begin a command.

Main definitions: `SystemError`, `SystemError.text`.
-/

namespace SolverPortfolio

/-- Why a machine refuses something. -/
inductive SystemError where
  | missing
  | forbidden
  | taken
  | notDirectory
  | isDirectory
  | nameTooLong
  | notEmpty
  /-- The name of a file has a zero in it. -/
  | zeroInPath
  /-- A program or an argument has a zero in it. -/
  | zeroInCommand
  /-- A file that should hold text does not. -/
  | notText
  deriving Repr, DecidableEq

namespace SystemError

/-- The plain words for an error. -/
def words : SystemError → String
  | missing => "No such file or directory"
  | forbidden => "Permission denied"
  | taken => "File exists"
  | notDirectory => "Not a directory"
  | isDirectory => "Is a directory"
  | nameTooLong => "File name too long"
  | notEmpty => "Directory not empty"
  | zeroInPath => "file name contained an unexpected NUL byte"
  | zeroInCommand => "nul byte found in provided data"
  | notText => "stream did not contain valid UTF-8"

/-- The number that the machine has for an error. -/
def number? : SystemError → Option Nat
  | missing => some 2
  | forbidden => some 13
  | taken => some 17
  | notDirectory => some 20
  | isDirectory => some 21
  | nameTooLong => some 36
  | notEmpty => some 39
  | zeroInPath => none
  | zeroInCommand => none
  | notText => none

/-- The text shown for an error. -/
def text (e : SystemError) : String :=
  match e.number? with
  | some n => s!"{e.words} (os error {n})"
  | none => e.words

end SystemError

end SolverPortfolio
