/-
# Exit statuses

A process ends with an exit code, or is ended by a signal.

Main definitions: `ExitStatus`, `ExitStatus.isSuccess`, `ExitStatus.text`.
-/

namespace SolverPortfolio

/-- How a process ended. -/
inductive ExitStatus where
  | exited (code : Nat)
  | signalled (number : Nat)
  deriving Repr, DecidableEq

namespace ExitStatus

/-- The names of the signals, by number. -/
def signalNames : List (Nat × String) :=
  [(1, "SIGHUP"), (2, "SIGINT"), (3, "SIGQUIT"), (4, "SIGILL"), (5, "SIGTRAP"), (6, "SIGABRT"),
    (7, "SIGBUS"), (8, "SIGFPE"), (9, "SIGKILL"), (10, "SIGUSR1"), (11, "SIGSEGV"),
    (12, "SIGUSR2"), (13, "SIGPIPE"), (14, "SIGALRM"), (15, "SIGTERM"), (16, "SIGSTKFLT"),
    (17, "SIGCHLD"), (18, "SIGCONT"), (19, "SIGSTOP"), (20, "SIGTSTP"), (21, "SIGTTIN"),
    (22, "SIGTTOU"), (23, "SIGURG"), (24, "SIGXCPU"), (25, "SIGXFSZ"), (26, "SIGVTALRM"),
    (27, "SIGPROF"), (28, "SIGWINCH"), (29, "SIGIO"), (30, "SIGPWR"), (31, "SIGSYS")]

/-- The number of the signal that kills a process at once. -/
def killNumber : Nat := 9

/-- The number of the signal that asks a process to end. -/
def endNumber : Nat := 15

/-- Did the process succeed? -/
def isSuccess (s : ExitStatus) : Bool := decide (s = exited 0)

/-- The exit code, if there is one. -/
def code? : ExitStatus → Option Int
  | exited code => some code
  | signalled _ => none

/-- The text shown for a status. -/
def text : ExitStatus → String
  | exited code => s!"exit status: {code}"
  | signalled number =>
    match signalNames.lookup number with
    | some name => s!"signal: {number} ({name})"
    | none => s!"signal: {number}"

end ExitStatus

end SolverPortfolio
