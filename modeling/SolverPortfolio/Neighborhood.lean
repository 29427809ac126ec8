import SolverPortfolio.KnowledgeBase

/-
# Nearest neighbours

The entries of a knowledge base whose features are nearest to a query, in
Euclidean distance. Equally near entries keep the order of the knowledge base,
and an entry whose distance is undefined counts as infinitely far away.

Main definitions: `distance`, `defaultSize`, `Entry.distanceTo`,
`KnowledgeBase.nearest`.
-/

namespace SolverPortfolio

namespace Neighborhood

/-- The Euclidean distance of two vectors, over the components that both have. -/
def distance (a b : List Float) : Float :=
  (Quantity.sum (a.zipWith (fun x y => (x - y) * (x - y)) b)).sqrt

/-- The number of neighbours for a knowledge base of a given size: the square root, rounded, and at
least one. -/
def defaultSize (entries : Nat) : Nat :=
  max 1 (Number.ofRatio entries 1).sqrt.round.toUInt64.toNat

/-- The features of an entry, with an undefined number for an unknown feature. -/
def featureVector (entry : Entry Float) : List Float :=
  entry.features.map fun x => x.getD (0 / 0)

/-- How far an entry is from a query; infinitely far where the distance is undefined. -/
def distanceTo (query : List Float) (entry : Entry Float) : Float :=
  let d := distance query (featureVector entry)
  if d.isNaN then 1 / 0 else d

end Neighborhood

/-- A query has another number of features than the entries of a knowledge base. -/
structure QueryMismatch where
  components : Nat
  expected : Nat
  deriving Repr, DecidableEq

/-- The text shown for a query with another number of features. -/
def QueryMismatch.message (e : QueryMismatch) : String :=
  let given := s!"normalized features have {e.components} components"
  s!"corrupt knowledge base: {given} but the knowledge base has {e.expected}"

/-- The `k` entries nearest to a query, nearest first. -/
def KnowledgeBase.nearest (kb : KnowledgeBase Float) (query : List Float) (k : Nat) :
    Except QueryMismatch (List (Entry Float)) :=
  if !kb.entries.isEmpty && kb.dimension != query.length then
    .error ⟨query.length, kb.dimension⟩
  else
    let ranked := kb.entries.map fun entry =>
      (Number.orderKey (Neighborhood.distanceTo query entry), entry)
    .ok (((ranked.mergeSort fun a b => decide (a.1 ≤ b.1)).take k).map (·.2))

end SolverPortfolio
