import SolverPortfolio.ExitStatus
import SolverPortfolio.Text.Integer
import SolverPortfolio.Text.Octets

/-
# Signals by name

Signals are named by numbers or by words, and each has a text that tells what it
did to a process.

Main definitions: `Signal.number?`, `Signal.description`, `Signal.readOrder?`.
-/

namespace SolverPortfolio.Signal

/-- The signal that a pipe without a reader sends to one who writes to it. -/
def pipeNumber : Nat := 13

/-- The signals that interrupt what is in the foreground. -/
def interruptNumbers : List Nat := [2, 3]

/-- The signal that lets a process go on. -/
def wakeNumber : Nat := 18

/-- The signal that stops a process. -/
def stopNumber : Nat := 19

/-- The greatest number of a signal. -/
def greatest : Nat := 64

/-- The number of the signal that a word or a number names. -/
def number? (s : Octets) : Option Nat :=
  match Text.readDigits? greatest s with
  | some n => some n
  | none =>
    let name := (String.ofList s).toUpper
    (ExitStatus.signalNames.find? fun p => p.2 = "SIG" ++ name || p.2 = name).map (·.1)

/-- The texts for what signals did. -/
def descriptions : List String :=
  ["Hangup", "Interrupt", "Quit", "Illegal instruction", "Trace/breakpoint trap", "Aborted",
    "Bus error", "Floating point exception", "Killed", "User defined signal 1",
    "Segmentation fault", "User defined signal 2", "Broken pipe", "Alarm clock", "Terminated",
    "Stack fault", "Child exited", "Continued", "Stopped (signal)", "Stopped",
    "Stopped (tty input)", "Stopped (tty output)", "Urgent I/O condition",
    "CPU time limit exceeded", "File size limit exceeded", "Virtual timer expired",
    "Profiling timer expired", "Window changed", "I/O possible", "Power failure",
    "Bad system call"]

/-- The text for what a signal did. -/
def description (n : Nat) : String :=
  match descriptions[n - 1]? with
  | some text => text
  | none => if n < 34 then s!"Unknown signal {n}" else s!"Real-time signal {n - 34}"

/-- Is a signal without effect on a process that does nothing about it? -/
def isHarmless (n : Nat) : Bool := n = 17 || n = 23 || n = 28

/-- Does a signal stop a process that does nothing about it? -/
def isStop (n : Nat) : Bool := n = 20 || n = 21 || n = 22

/-- Reads the arguments of an order to send a signal: the signal and the targets. -/
def readOrder? (arguments : List Octets) : Option (Nat × List Octets) :=
  let ordered := fun (order : Option Nat) (targets : List Octets) =>
    let targets := match targets with
      | ['-', '-'] :: rest => rest
      | rest => rest
    order.map fun n => (n, targets)
  match arguments with
  | ['-', 's'] :: name :: rest => ordered (number? name) rest
  | ['-', '-'] :: rest => some (ExitStatus.endNumber, rest)
  | ('-' :: name) :: rest => ordered (number? name) rest
  | rest => some (ExitStatus.endNumber, rest)

end SolverPortfolio.Signal
