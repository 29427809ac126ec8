import SolverPortfolio.Command
import SolverPortfolio.Goal
import SolverPortfolio.Json.Reader

/-
# Model interfaces

The interface of a model is a JSON object whose field `method` says whether the
model is a satisfaction, minimization or maximization problem. It is printed by
a MiniZinc executable.

Main definitions: `ModelInterface.goal`, `ModelInterface.inquiry`.
-/

namespace SolverPortfolio

namespace ModelInterface

/-- Why the field `method` gives no goal. -/
inductive MethodError where
  | missing
  | notText
  | unknown (method : String)
  deriving Repr, DecidableEq

/-- Why an interface gives no goal. -/
inductive Error where
  | notObject
  | method (e : MethodError)
  deriving Repr, DecidableEq

/-- The text shown for a field that gives no goal. -/
def MethodError.message : MethodError → String
  | .missing => "'method' field does not exist"
  | .notText => "'method' field is not a string"
  | .unknown method => s!"method '{method}' not recognised"

/-- The text shown for an interface that gives no goal. -/
def Error.message : Error → String
  | .notObject => "model interface output is not a JSON object"
  | .method e => s!"model interface output has no usable 'method' field: {e.message}"

/-- The greatest number of arrays and objects around a value. -/
def depthLimit : Nat := 127

/-- The value of the last member with a given name. -/
def lastMember? (name : String) (members : List (Option String × Json)) : Option Json :=
  (members.reverse.find? fun m => m.1 == some name).map (·.2)

/-- The goal that a field names. -/
def goalOfMethod : Option Json → Except MethodError Goal
  | none => .error .missing
  | some (.string (some text)) =>
    match Goal.shortNames.lookup text with
    | some goal => .ok goal
    | none => .error (.unknown text)
  | some _ => .error .notText

/-- The goal that an interface states. -/
def goal (text : List Char) : Except Error Goal :=
  match Json.read? text with
  | some (.object members) =>
    let v := Json.object members
    if v.depth ≤ depthLimit && v.isDefinite then
      match goalOfMethod (lastMember? "method" members) with
      | .ok goal => .ok goal
      | .error e => .error (.method e)
    else .error .notObject
  | _ => .error .notObject

/-! ## Asking for an interface -/

/-- Asks a MiniZinc executable for the goal of a model. -/
def inquiry (executable model : String) : Inquiry Error Goal :=
  { command := ⟨executable, [model, "--model-interface-only"]⟩, read := goal }

/-- The text shown when an executable gives no goal, and what is behind it. -/
def inquiryCauses : InquiryError Error → List String
  | .notStarted cause => ["failed to run the model interface command", cause.text]
  | .failed status => [s!"model interface command failed with {status.text}"]
  | .unreadable e => [e.message]

end ModelInterface

end SolverPortfolio
