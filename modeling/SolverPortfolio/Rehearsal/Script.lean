import SolverPortfolio.Supervision.Events

/-
# Scripted solvers

A scripted solver is a list of steps: it prints, waits, fails or sends signals
as the script says.

Main definitions: `UserSignal`, `ScriptStep`, `Program`.
-/

namespace SolverPortfolio

/-- The signals by which a user controls a run. -/
inductive UserSignal where
  | interrupt
  | terminate
  | hangUp
  | quit
  | stop
  | continueRun
  deriving Repr, DecidableEq

namespace UserSignal

/-- The short names of the signals. -/
def names : List (String × UserSignal) :=
  [("INT", interrupt), ("TERM", terminate), ("HUP", hangUp), ("QUIT", quit), ("TSTP", stop),
    ("CONT", continueRun)]

/-- What a signal asks of the run: most end it, and one each pauses it and lets it go on. -/
def runSignal : UserSignal → RunSignal
  | interrupt => .abort
  | terminate => .abort
  | hangUp => .abort
  | quit => .abort
  | stop => .suspend
  | continueRun => .resume

end UserSignal

/-- A step of a scripted solver. -/
inductive ScriptStep where
  /-- Prints a text and a line end. -/
  | print (text : String)
  /-- Prints the converted model. -/
  | printModel
  /-- Prints each argument on a line. -/
  | printArguments
  /-- Takes the steps if some argument is the given word. -/
  | whenArgument (word : String) (steps : List ScriptStep)
  | exit (code : Nat)
  /-- Ends by a signal. -/
  | crash
  /-- Waits for ever. -/
  | hang
  /-- Waits for ever, and does not end when asked to. -/
  | stubborn
  /-- Sets a mark that others can wait for. -/
  | mark (name : String)
  /-- Waits until a mark is set, and a moment more. -/
  | await (name : String)
  /-- Writes a line to the stream for errors, and waits a moment. -/
  | complain (text : String)
  /-- Sends a signal to the run. -/
  | send (signal : UserSignal)
  deriving Repr

/-- A program of a rehearsal. -/
inductive Program where
  /-- A scripted solver, whose first argument is the converted model. -/
  | script (steps : List ScriptStep)
  /-- Commands for the shell. -/
  | commands (text : String)
  /-- The shell itself. -/
  | shell
  /-- A program that every machine has, by its name. -/
  | utility (name : String)
  deriving Repr

/-- The moment that scripted solvers wait for. -/
def scriptMoment : Duration := Duration.ofMillis 50

end SolverPortfolio
