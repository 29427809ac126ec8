import SolverPortfolio.ExitStatus
import SolverPortfolio.SystemError
import SolverPortfolio.Text.Utf8

/-
# Commands

A command is a program with its arguments. Some commands are inquiries: what
they print is read as an answer, provided that they succeed.

Main definitions: `Command`, `Inquiry`, `InquiryError`, `Inquiry.answer`.
-/

namespace SolverPortfolio

/-- A program and its arguments. -/
structure Command where
  program : String
  arguments : List String
  deriving Repr, DecidableEq

/-- The command that a list of texts makes up, unless the list is empty. -/
def Command.ofList? : List String → Option Command
  | [] => none
  | program :: arguments => some ⟨program, arguments⟩

/-- A command whose output is read as an answer. -/
structure Inquiry (ε α : Type) where
  command : Command
  /-- Reads the output. -/
  read : List Char → Except ε α

/-- Why an inquiry has no answer. -/
inductive InquiryError (ε : Type) where
  | notStarted (cause : SystemError)
  | failed (status : ExitStatus)
  | unreadable (e : ε)
  deriving Repr, DecidableEq

/-- The answer to an inquiry, given how the command ended and what it printed. Bytes that are no
text are read as unknown characters. -/
def Inquiry.answer {ε α : Type} (q : Inquiry ε α) (status : ExitStatus) (printed : List UInt8) :
    Except (InquiryError ε) α :=
  if status.isSuccess then
    match q.read (Text.readUtf8Lossy printed).toList with
    | .ok a => .ok a
    | .error e => .error (.unreadable e)
  else .error (.failed status)

end SolverPortfolio
