import SolverPortfolio.Json.Decode
import SolverPortfolio.Json.Reader
import SolverPortfolio.Text.Basic
import SolverPortfolio.Text.Integer

/-
# Limits of features

For every feature the limits hold its least and greatest value in a knowledge
base, or nothing where the feature is unknown. A raw feature vector is scaled
component by component into one range; features without limits, or with equal
ones, are dropped.

Main definitions: `Limits`, `Limits.ofList`, `Limits.parse`, `Limits.size`,
`Limits.normalize`.
-/

namespace SolverPortfolio

/-- The least and the greatest value of a feature. -/
abbrev Bounds (α : Type) := α × α

/-- The bounds of features by index, in increasing order of indexes. -/
structure Limits (α : Type) where
  bounds : List (Nat × Option (Bounds α))

/-- Why a text holds no limits. -/
inductive LimitsError where
  | syntaxError
  | badIndex (key : String)
  deriving Repr, DecidableEq

/-- The text shown for a text that holds no limits. -/
def LimitsError.message : LimitsError → String
  | .syntaxError => "failed to parse limits"
  | .badIndex key => s!"invalid feature index '{key}' in limits"

/-- A vector is shorter than the limits. -/
structure TooFewFeatures where
  limits : Nat
  features : Nat
  deriving Repr, DecidableEq

/-- The text shown for a vector that is too short. -/
def TooFewFeatures.message (e : TooFewFeatures) : String :=
  s!"limits cover {e.limits} features but the vector has {e.features}"

/-- The range that features are scaled into, and the raw value that stands in for an unknown one. -/
structure Scaling (α : Type) where
  low : α
  high : α
  default : α

namespace Limits

variable {α : Type}

/-- The number of indexes that a 64-bit word can hold. -/
def wordCount : Nat := Nat.pow 2 64

/-! ## Reading limits -/

/-- Sets the bounds of an index, keeping the order of indexes. -/
def insert (index : Nat) (b : Option (Bounds α)) :
    List (Nat × Option (Bounds α)) → List (Nat × Option (Bounds α))
  | [] => [(index, b)]
  | (i, c) :: rest =>
    if index < i then (index, b) :: (i, c) :: rest
    else if index = i then (index, b) :: rest
    else (i, c) :: insert index b rest

/-- The limits whose bounds stand at their own index. -/
def ofList (bounds : List (Option (Bounds α))) : Limits α :=
  ⟨(List.range bounds.length).zip bounds⟩

/-- Does one name come before another in the order of their bytes? For texts in UTF-8 this is the
order of code points. -/
def byteOrder (a b : String) : Bool := decide (a ≤ b)

/-- The index that a key names: an unsigned 64-bit number with white space around it. -/
def readIndex? (key : String) : Option Nat :=
  Text.readNat? (wordCount - 1) (Text.trim key.toList)

/-- Sets the bounds of the indexes that keys name, in the order of the list. -/
def insertAll (acc : List (Nat × Option (Bounds α))) :
    List (String × Option (Bounds α)) → Except LimitsError (List (Nat × Option (Bounds α)))
  | [] => .ok acc
  | (key, b) :: rest =>
    match readIndex? key with
    | some i => insertAll (insert i b acc) rest
    | none => .error (.badIndex key)

/-- The limits of a dictionary from keys to bounds. The keys are read in the order of their bytes;
of two keys for one index the later is kept. -/
def ofDictionary (members : List (String × Option (Bounds α))) : Except LimitsError (Limits α) :=
  (insertAll [] (members.mergeSort fun a b => byteOrder a.1 b.1)).map Limits.mk

variable [Quantity α]

/-- Reads a pair of bounds: an array of two numbers. -/
def boundsOfJson? : Json → Option (Bounds α)
  | .array [low, high] => do return (← low.asNumber?, ← high.asNumber?)
  | _ => none

/-- Reads limits: an array of bounds or of `null`, or an object from indexes to such. -/
def parse (text : List Char) : Except LimitsError (Limits α) :=
  match Json.read? text with
  | none => .error .syntaxError
  | some v =>
    match v.asDictionary? (Json.asOption? boundsOfJson?) with
    | some members => ofDictionary members
    | none =>
      match v.asList? (Json.asOption? boundsOfJson?) with
      | some bounds => .ok (ofList bounds)
      | none => .error .syntaxError

/-! ## Scaling -/

/-- The number of features that the limits cover, in 64-bit arithmetic: one more than the largest
index. -/
def size {α : Type} (limits : Limits α) : Nat :=
  match limits.bounds.getLast? with
  | none => 0
  | some (i, _) => (i + 1) % wordCount

/-- The bounds of an index, if they are known. -/
def boundsAt? {α : Type} (limits : Limits α) (index : Nat) : Option (Bounds α) :=
  (limits.bounds.lookup index).join

/-- Scales one component into the range; outside its bounds it is moved to the nearer end. -/
def scale (s : Scaling α) (b : Bounds α) (x : Option α) : α :=
  let x := x.getD s.default
  Quantity.clamp s.low s.high (s.low + (s.high - s.low) * (x - b.1) / (b.2 - b.1))

/-- Scales the components of a vector that have bounds, the first of them at index `index`. -/
def scaleFrom (limits : Limits α) (s : Scaling α) : Nat → List (Option α) → List α
  | _, [] => []
  | index, x :: rest =>
    match limits.boundsAt? index with
    | none => scaleFrom limits s (index + 1) rest
    | some b =>
      if b.1 == b.2 then scaleFrom limits s (index + 1) rest
      else scale s b x :: scaleFrom limits s (index + 1) rest

/-- Scales a raw vector, in which `none` is an unknown feature. -/
def normalize (limits : Limits α) (s : Scaling α) (raw : List (Option α)) :
    Except TooFewFeatures (List α) :=
  if raw.length < limits.size then .error ⟨limits.size, raw.length⟩
  else .ok (limits.scaleFrom s 0 raw)

end Limits

/-- The range from minus one to one, with minus one for an unknown feature. -/
def Scaling.standard {α : Type} [Quantity α] : Scaling α :=
  { low := 0 - Quantity.ofNat 1, high := Quantity.ofNat 1, default := 0 - Quantity.ofNat 1 }

end SolverPortfolio
