import SolverPortfolio.Features
import SolverPortfolio.Limits
import SolverPortfolio.Neighborhood
import SolverPortfolio.Schedule.Parallel
import SolverPortfolio.Selection

/-
# Prediction of schedules

The features of an instance are scaled, the nearest past instances are looked
up, and the outcomes on them decide which solvers get how much of the time that
the fixed schedule leaves.

Main definitions: `Predictor`, `Predictor.predict`, `Forecast.notices`.
-/

namespace SolverPortfolio

/-- What a prediction is based on. -/
structure Predictor where
  knowledge : KnowledgeBase Float
  limits : Limits Float
  portfolio : List String
  backup : String
  timeout : Float
  /-- The number of neighbours, if it is not left to the size of the knowledge base. -/
  neighbors : Option Nat
  minSize : Nat
  /-- The schedule that runs first in any case. -/
  fixed : Schedule Float

/-- Why no schedule can be predicted. -/
inductive PredictionError where
  | fixedTooLong (used timeout : Float)
  | features (e : TooFewFeatures)
  | mismatch (e : QueryMismatch)

/-- The text shown when no schedule can be predicted. -/
def PredictionError.message : PredictionError → String
  | .fixedTooLong used timeout =>
    s!"static schedule uses {Number.showPlaces2 used}s of a {Number.showPlaces2 timeout}s timeout"
  | .features e => e.message
  | .mismatch e => e.message

/-- A predicted schedule and how it came about. -/
structure Forecast where
  /-- The number of neighbours asked for. -/
  neighbors : Nat
  neighborhood : List (Entry Float)
  /-- Was there time left to select solvers for? -/
  selected : Bool
  subPortfolio : List String
  plan : Plan Float

namespace Predictor

/-- The number of neighbours asked for. -/
def neighborCount (p : Predictor) : Nat :=
  p.neighbors.getD (Neighborhood.defaultSize p.knowledge.entries.length)

/-- The query for a selection within the time that the fixed schedule leaves. -/
def query (p : Predictor) (timeout : Float) : SelectionQuery Float :=
  { portfolio := p.portfolio, backup := p.backup, timeout, minSize := p.minSize }

/-- Selects solvers for a neighbourhood. -/
def select (p : Predictor) (goal : Goal) (neighborhood : List (Entry Float)) (timeout : Float) :
    Selection Float :=
  if 0 < timeout then
    if goal.isOptimization then Selection.forOptimization neighborhood (p.query timeout)
    else Selection.forSatisfaction neighborhood (p.query timeout)
  else ⟨[], []⟩

/-- Predicts a schedule for an instance. -/
def predict (p : Predictor) (features : Features) (goal : Goal) :
    Except PredictionError Forecast :=
  let used := Schedule.totalSeconds p.fixed
  let timeout := p.timeout - used
  if timeout < 0 then .error (.fixedTooLong used p.timeout)
  else
    match p.limits.normalize Scaling.standard features.known with
    | .error e => .error (.features e)
    | .ok query =>
      match p.knowledge.nearest query p.neighborCount with
      | .error e => .error (.mismatch e)
      | .ok neighborhood =>
        let selection := p.select goal neighborhood timeout
        .ok
          { neighbors := p.neighborCount
            neighborhood
            selected := decide (0 < timeout)
            subPortfolio := selection.subPortfolio
            plan := ⟨p.fixed, selection.schedule⟩ }

end Predictor

/-- What is reported about a forecast for a portfolio. -/
def Forecast.notices (f : Forecast) (portfolio : List String) : List Notice :=
  let ids := Text.joinWith ", " (f.neighborhood.map (·.id))
  let names := Text.joinWith ", " f.subPortfolio
  [.info s!"neighborhood ({f.neighbors}): {ids}"] ++
    (if f.selected then Selection.notices f.neighborhood.length portfolio else []) ++
    [.info s!"selected sub-portfolio: {names}"]

end SolverPortfolio
