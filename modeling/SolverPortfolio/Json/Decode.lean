import SolverPortfolio.Json.Basic
import SolverPortfolio.Quantity

/-
# Typed readings of JSON values

What a value says when a number, a text, a list, an optional value, a word from
a fixed list, a dictionary or a record is expected. A dictionary keeps the last
of two values of one name; a record refuses a field given twice, passes over
members it does not know, and may also be written as the array of its fields.

Main definitions: `Json.asNumber?`, `Json.asOption?`, `Json.asDictionary?`,
`Json.asRecord?`.
-/

namespace SolverPortfolio.Json

/-- A number. -/
def asNumber? {α : Type} [Quantity α] : Json → Option α
  | .number l => Quantity.ofLiteral? l
  | _ => none

/-- A text. -/
def asText? : Json → Option String
  | .string text => text
  | _ => none

/-- A list of values of one kind. -/
def asList? {α : Type} (item : Json → Option α) : Json → Option (List α)
  | .array items => items.mapM item
  | _ => none

/-- A value that may be `null`. -/
def asOption? {α : Type} (some? : Json → Option α) : Json → Option (Option α)
  | .null => some none
  | v => (some? v).map some

/-- A word from a fixed list, written as a string or as an object whose one member has that name
and the value `null`. -/
def asWord? {α : Type} (words : List (String × α)) : Json → Option α
  | .string (some text) => words.lookup text
  | .object [(some name, .null)] => words.lookup name
  | _ => none

/-- Gives the name a value, in the place of the value it had. -/
def put {α : Type} (name : String) (v : α) : List (String × α) → List (String × α)
  | [] => [(name, v)]
  | (other, w) :: rest =>
    if other = name then (name, v) :: rest else (other, w) :: put name v rest

/-- A dictionary of values of one kind: every value is read, and of two values of one name the
later is kept. -/
def asDictionary? {α : Type} (value : Json → Option α) : Json → Option (List (String × α))
  | .object members => do
    let pairs ← members.mapM fun (name, v) => do
      return (← name, ← value v)
    return pairs.foldl (fun dict (name, v) => put name v dict) []
  | _ => none

/-- The place of a name in a list of fields, each with all the names it goes by. -/
def fieldIndex? (fields : List (List String)) (name : String) : Option Nat :=
  fields.findIdx? (·.contains name)

/-- Puts the members of an object into their fields; a field given twice, or a name that is no
text, is refused. -/
def fillFields (fields : List (List String)) :
    List (Option String × Json) → List (Option Json) → Option (List (Option Json))
  | [], filled => some filled
  | (none, _) :: _, _ => none
  | (some name, v) :: rest, filled =>
    match fieldIndex? fields name with
    | none => fillFields fields rest filled
    | some i =>
      match filled[i]? with
      | some none => fillFields fields rest (filled.set i (some v))
      | _ => none

/-- The values of the fields of a record, in the order of `fields`; a missing one is `none`. An
array gives the fields in that order, and may end early. -/
def asRecord? (fields : List (List String)) : Json → Option (List (Option Json))
  | .object members => fillFields fields members (fields.map fun _ => none)
  | .array items =>
    if fields.length < items.length then none
    else some (items.map some ++ List.replicate (fields.length - items.length) none)
  | _ => none

end SolverPortfolio.Json
