import SolverPortfolio.Command
import SolverPortfolio.Number.Literal
import SolverPortfolio.Text.Basic

/-
# Feature vectors

A feature vector is written as numbers with commas between them. Line breaks
may stand anywhere in it, also inside a number, and an unknown feature is
written as `nan`. The features of a model are asked of an extractor, a program
that prints them.

Main definitions: `Features.parse`, `Features.inquiry`.
-/

namespace SolverPortfolio

/-- The features of an instance. -/
abbrev Features := List Float

/-- Why a text is no feature vector. -/
inductive FeaturesError where
  | empty
  | badNumber (text : String) (cause : Number.ReadError)
  deriving Repr, DecidableEq

/-- The text shown for a text that is no feature vector. -/
def FeaturesError.message : FeaturesError → String
  | .empty => "feature vector is empty"
  | .badNumber text _ => s!"failed to parse feature vector '{text}'"

/-- The text shown for a text that is no feature vector, and what is behind it. -/
def FeaturesError.causes : FeaturesError → List String
  | .empty => [FeaturesError.empty.message]
  | .badNumber text cause => [(FeaturesError.badNumber text cause).message, cause.message]

namespace Features

/-- Reads numbers that stand in a list; the error is that of the first bad one. -/
def readNumbers : List (List Char) → Except Number.ReadError Features
  | [] => .ok []
  | piece :: rest =>
    match Number.readFloat (Text.trim piece) with
    | .error e => .error e
    | .ok x => (readNumbers rest).map (x :: ·)

/-- Reads a feature vector. -/
def parse (text : List Char) : Except FeaturesError Features :=
  let joined := text.filter fun c => c ≠ '\n' ∧ c ≠ '\r'
  let trimmed := Text.trim joined
  if trimmed.isEmpty then .error .empty
  else
    match readNumbers (Text.splitOn ',' trimmed) with
    | .error cause => .error (.badNumber (String.ofList trimmed) cause)
    | .ok features => .ok features

/-- A feature that is not a number is unknown. -/
def known (features : Features) : List (Option Float) :=
  features.map fun x => if x.isNaN then none else some x

/-! ## Extraction -/

/-- Asks an extractor for the features of a model and its data. -/
def inquiry (extractor model : String) (data : Option String) : Inquiry FeaturesError Features :=
  let dataArguments := match data with
    | some data => ["-d", data]
    | none => []
  { command := ⟨extractor, ["-i", model] ++ dataArguments⟩, read := parse }

/-- The text shown when an extractor gives no features, and what is behind it. -/
def extractionCauses : InquiryError FeaturesError → List String
  | .notStarted cause => ["failed to run feature extractor", cause.text]
  | .failed status => [s!"feature extractor failed with {status.text}"]
  | .unreadable e => e.causes

end Features

end SolverPortfolio
