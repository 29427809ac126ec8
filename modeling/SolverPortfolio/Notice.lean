/-
# Notices

What a run reports besides its answer: texts with a severity. A verbosity says
which severities are shown.

Main definitions: `Notice`, `Verbosity`, `Verbosity.shows`.
-/

namespace SolverPortfolio

/-- How serious a notice is. -/
inductive Severity where
  | error
  | warning
  | info
  deriving Repr, DecidableEq

/-- The word in front of a shown notice. -/
def Severity.label : Severity → String
  | .error => "ERROR"
  | .warning => "WARNING"
  | .info => "INFO"

/-- How much is shown. -/
inductive Verbosity where
  | quiet
  | error
  | warning
  | info
  deriving Repr, DecidableEq

namespace Verbosity

/-- The place of a verbosity from least to most shown. -/
def rank : Verbosity → Nat
  | quiet => 0
  | error => 1
  | warning => 2
  | info => 3

/-- The verbosity with a given place. -/
def ofRank? : Nat → Option Verbosity
  | 0 => some quiet
  | 1 => some error
  | 2 => some warning
  | 3 => some info
  | _ => none

/-- All verbosities, from least to most shown. -/
def all : List Verbosity := [quiet, error, warning, info]

/-- Does a verbosity include another? -/
def includes (v other : Verbosity) : Bool := decide (other.rank ≤ v.rank)

/-- A verbosity includes itself. -/
@[simp] theorem includes_self (v : Verbosity) : v.includes v = true := by
  simp [includes]

/-- What is included in an included verbosity is included. -/
theorem includes_trans {a b c : Verbosity} (hab : a.includes b) (hbc : b.includes c) :
    a.includes c := by
  simp only [includes, decide_eq_true_eq] at hab hbc ⊢
  exact Nat.le_trans hbc hab

end Verbosity

/-- The least verbosity that shows a severity. -/
def Severity.verbosity : Severity → Verbosity
  | .error => .error
  | .warning => .warning
  | .info => .info

/-- Does a verbosity show a severity? -/
def Verbosity.shows (v : Verbosity) (s : Severity) : Bool := v.includes s.verbosity

/-- A text with a severity. -/
structure Notice where
  severity : Severity
  text : String
  deriving Repr, DecidableEq

namespace Notice

/-- A notice that something failed. -/
def error (text : String) : Notice := ⟨.error, text⟩

/-- A notice that something is unusual. -/
def warning (text : String) : Notice := ⟨.warning, text⟩

/-- A notice of progress. -/
def info (text : String) : Notice := ⟨.info, text⟩

/-- The line shown for a notice. -/
def line (n : Notice) : String := s!"{n.severity.label}: {n.text}"

end Notice

end SolverPortfolio
