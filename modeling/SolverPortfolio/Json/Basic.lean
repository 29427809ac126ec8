import SolverPortfolio.Number.Literal

/-
# JSON values

A value keeps what a reader may still refuse: the digits of a number, the
members of an object in the order of the text with repeated names, and the mark
of a string that holds half of a surrogate pair.

Main definitions: `Json`, `Json.depth`.
-/

namespace SolverPortfolio

open SolverPortfolio.Number

/-- A JSON value. The text of a string is `none` if an escape in it stands for no character. -/
inductive Json where
  | null
  | bool (b : Bool)
  | number (l : Literal)
  | string (text : Option String)
  | array (items : List Json)
  | object (members : List (Option String × Json))
  deriving Repr

namespace Json

mutual
/-- How many arrays and objects stand around the innermost value, counting the value itself if it
is one of them. -/
def depth : Json → Nat
  | .array items => depthItems items + 1
  | .object members => depthMembers members + 1
  | _ => 0

/-- The greatest depth among the items of an array. -/
def depthItems : List Json → Nat
  | [] => 0
  | v :: rest => max (depth v) (depthItems rest)

/-- The greatest depth among the members of an object. -/
def depthMembers : List (Option String × Json) → Nat
  | [] => 0
  | (_, v) :: rest => max (depth v) (depthMembers rest)
end

mutual
/-- Does every string denote a text, and every number a finite double? -/
def isDefinite : Json → Bool
  | .string text => text.isSome
  | .number l => l.scaled?.isSome
  | .array items => itemsDefinite items
  | .object members => membersDefinite members
  | _ => true

/-- Are all items of an array definite? -/
def itemsDefinite : List Json → Bool
  | [] => true
  | v :: rest => isDefinite v && itemsDefinite rest

/-- Are all names and values of an object definite? -/
def membersDefinite : List (Option String × Json) → Bool
  | [] => true
  | (name, v) :: rest => name.isSome && isDefinite v && membersDefinite rest
end

end Json

end SolverPortfolio
