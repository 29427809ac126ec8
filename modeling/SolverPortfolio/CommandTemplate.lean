import SolverPortfolio.SolverTable
import SolverPortfolio.Text.Basic

/-
# Filling in command templates

A template may name values in braces. An argument that is exactly one
placeholder becomes its value, or disappears if there is none; inside a longer
argument a placeholder without a value leaves nothing behind.

Main definitions: `Placeholder`, `TemplateValues`, `CommandTemplate.expand`.
-/

namespace SolverPortfolio

/-- The values that a template may name. -/
inductive Placeholder where
  | model
  | data
  | fzn
  | ozn
  | cores
  | timeout
  | all
  | free
  deriving Repr, DecidableEq

namespace Placeholder

/-- The name of a placeholder. -/
def name : Placeholder → String
  | model => "model"
  | data => "data"
  | fzn => "fzn"
  | ozn => "ozn"
  | cores => "cores"
  | timeout => "timeout"
  | all => "all"
  | free => "free"

/-- All placeholders, in the order in which they are filled in. -/
def inOrder : List Placeholder := [model, data, fzn, ozn, cores, timeout, all, free]

/-- A placeholder as it stands in a template: its name in braces. -/
def text (p : Placeholder) : List Char := '\x7b' :: p.name.toList ++ ['\x7d']

end Placeholder

/-- The values of the placeholders that have one. -/
abbrev TemplateValues := Placeholder → Option (List Char)

namespace CommandTemplate

/-- Fills the placeholders into an argument, one after another. -/
def fill (values : TemplateValues) (arg : List Char) : List Char :=
  Placeholder.inOrder.foldl (fun s p => Text.replaceAll p.text ((values p).getD []) s) arg

/-- Expands one argument. -/
def expandArg (values : TemplateValues) (arg : List Char) : Option (List Char) :=
  match Placeholder.inOrder.find? (fun p => p.text = arg) with
  | some p => values p
  | none => some (fill values arg)

/-- Expands all arguments of a template. -/
def expand (template : CommandTemplate) (values : TemplateValues) : List String :=
  template.filterMap fun arg => (expandArg values arg.toList).map String.ofList

end CommandTemplate

end SolverPortfolio
