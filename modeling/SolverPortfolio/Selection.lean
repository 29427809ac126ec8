import SolverPortfolio.Combination
import SolverPortfolio.KnowledgeBase
import SolverPortfolio.Notice
import SolverPortfolio.Schedule.Basic

/-
# Selection of solvers

From the outcomes on a neighbourhood of past instances the selection finds the
best sub-portfolio: the one that solves most, then the one that takes least
time, then the one of least area. Its solvers share the timeout in proportion
to what they solve, and the time of neighbours that no solver handles goes to
the backup solver.

Main definitions: `TrackRecord`, `Candidate`, `bestSubPortfolio`, `allocate`,
`select`.
-/

namespace SolverPortfolio

/-- What a solver achieved on a neighbourhood: its credit on every neighbour, and the sums of its
times and areas. -/
structure TrackRecord (α : Type) where
  solver : String
  credits : List α
  time : α
  area : α

/-- What the selection is asked for. -/
structure SelectionQuery (α : Type) where
  portfolio : List String
  backup : String
  timeout : α
  minSize : Nat

/-- The solvers selected and the slots they get. -/
structure Selection (α : Type) where
  subPortfolio : List String
  schedule : Schedule α

/-- Portfolios with more solvers than this take long to search. -/
def largePortfolio : Nat := 20

namespace Selection

variable {α : Type} [Quantity α]

/-! ## Track records -/

/-- The record for problems without objective: a neighbour counts if it was solved before the
timeout, and a solver that was not run on it took the whole timeout. -/
def solvedRecord (neighbors : List (Entry α)) (timeout : α) (solver : String) : TrackRecord α :=
  let times := neighbors.map fun entry =>
    match entry.outcome? solver with
    | some o => o.time
    | none => timeout
  { solver
    credits := times.map fun t => if Quantity.lt t timeout then Quantity.ofNat 1 else 0
    time := times.foldl (· + ·) 0
    area := 0 }

/-- The record for problems with an objective: a neighbour counts by its score. -/
def scoredRecord (neighbors : List (Entry α)) (timeout : α) (solver : String) : TrackRecord α :=
  let outcomes := neighbors.map fun entry => entry.outcome? solver
  { solver
    credits := outcomes.map fun o => (o.bind (·.score)).getD 0
    time := outcomes.foldl
      (fun total o => total + match o with | some o => o.time | none => timeout) 0
    area := outcomes.foldl
      (fun total o => match o with | some o => total + o.area.getD 0 | none => total) 0 }

/-- The credit of a solver over the whole neighbourhood. -/
def totalCredit (r : TrackRecord α) : α := Quantity.sum r.credits

/-! ## The best sub-portfolio -/

/-- How good a sub-portfolio is. -/
structure Candidate (α : Type) where
  members : List (TrackRecord α)
  gain : α
  time : α
  area : α

/-- The gain of a sub-portfolio: over all neighbours, the sum of the best credit of a member. -/
def gain (size : Nat) (members : List (TrackRecord α)) : α :=
  Quantity.sum (members.foldl (fun best r => best.zipWith Quantity.larger r.credits)
    (List.replicate size 0))

/-- Rates a sub-portfolio for a neighbourhood of a given size; areas count only if asked for. -/
def rate (size : Nat) (useArea : Bool) (members : List (TrackRecord α)) : Candidate α :=
  { members
    gain := gain size members
    time := Quantity.sum (members.map (·.time))
    area := if useArea then Quantity.sum (members.map (·.area)) else 0 }

/-- Is a candidate better than the best so far? Before any candidate the best has no gain, and
infinite time and area. -/
def Candidate.improvesOn (c : Candidate α) : Option (Candidate α) → Bool
  | none =>
    Quantity.lt 0 c.gain ||
      (c.gain == 0 && Quantity.isBounded c.time) ||
      (c.gain == 0 && Quantity.isInfinity c.time && Quantity.isBounded c.area)
  | some best =>
    Quantity.lt best.gain c.gain ||
      (c.gain == best.gain && Quantity.lt c.time best.time) ||
      (c.gain == best.gain && c.time == best.time && Quantity.lt c.area best.area)

/-- The first of the best candidates. -/
def best (candidates : List (Candidate α)) : Option (Candidate α) :=
  candidates.foldl (fun best c => if c.improvesOn best then some c else best) none

/-- The sub-portfolios of a portfolio from a least size on: small ones first, and those of one size
in lexicographic order of positions. -/
def subPortfolios (minSize : Nat) (records : List (TrackRecord α)) : List (List (TrackRecord α)) :=
  let m := records.length
  let first := max 1 (min minSize m)
  (List.range' first (m + 1 - first)).flatMap fun size => Combination.subsets size records

/-- The best sub-portfolio, if any has a value. -/
def bestSubPortfolio (size minSize : Nat) (useArea : Bool) (records : List (TrackRecord α)) :
    Option (Candidate α) :=
  best ((subPortfolios minSize records).map (rate size useArea))

/-! ## Allocation of the timeout -/

/-- Is the number rounded to zero when it is rounded to a whole number? -/
def roundsToZero (x : α) : Bool :=
  let half : α := Quantity.ofRatio 1 2
  Quantity.lt (0 - half) x && Quantity.lt x half

/-- The slots of the members: each gets its credit's share of the timeout, unless that is less than
half a second. -/
def memberSlots (timeout shares : α) (members : List (TrackRecord α)) : Schedule α :=
  members.filterMap fun r =>
    let credit := totalCredit r
    let seconds := timeout / shares * credit
    if credit == 0 || roundsToZero seconds then none else some ⟨r.solver, seconds⟩

/-- Adds seconds to the first slot of a solver, or a slot at the end. -/
def addSeconds (solver : String) (seconds : α) : Schedule α → Schedule α
  | [] => [⟨solver, seconds⟩]
  | slot :: rest =>
    if slot.solver = solver then ⟨slot.solver, slot.seconds + seconds⟩ :: rest
    else slot :: addSeconds solver seconds rest

/-- A solver without a slot gets one at the end. -/
theorem solvers_addSeconds {solver : String} {seconds : α} {schedule : Schedule α} :
    (addSeconds solver seconds schedule).map (·.solver) =
      if solver ∈ schedule.map (·.solver) then schedule.map (·.solver)
      else schedule.map (·.solver) ++ [solver] := by
  induction schedule with
  | nil => rfl
  | cons slot rest ih =>
    unfold addSeconds
    split
    · next h => simp [h]
    · next h =>
      have hiff : solver ∈ (slot :: rest).map (·.solver) ↔ solver ∈ rest.map (·.solver) :=
        List.mem_cons.trans (or_iff_right (Ne.symm h))
      rw [List.map_cons, ih]
      split
      · next hmem => rw [if_pos (hiff.mpr hmem), List.map_cons]
      · next hmem => rw [if_neg (mt hiff.mp hmem), List.map_cons, List.cons_append]

/-- Gives what is left of the timeout to the backup solver. -/
def giveLeftover (backup : String) (timeout : α) (schedule : Schedule α) : Schedule α :=
  let leftover := timeout - Schedule.totalSeconds schedule
  if Quantity.lt timeTolerance leftover then addSeconds backup leftover schedule else schedule

/-- The time that a solver of the portfolio took on the neighbourhood; `none`, and so more than any
time, for another solver. -/
def neighborhoodTime? (records : List (TrackRecord α)) (solver : String) : Option α :=
  (records.find? (·.solver == solver)).map (·.time)

/-- Sorts slots by the time their solvers took on the neighbourhood. -/
def sortByTime (records : List (TrackRecord α)) (schedule : Schedule α) : Schedule α :=
  schedule.mergeSort fun a b =>
    Quantity.extendedSortsBefore (neighborhoodTime? records a.solver)
      (neighborhoodTime? records b.solver)

/-- Sorting moves slots only. -/
theorem sortByTime_perm (records : List (TrackRecord α)) (schedule : Schedule α) :
    (sortByTime records schedule).Perm schedule := List.mergeSort_perm _ _

/-- The number of shares of the timeout: the credits of all members, and one share for every
neighbour that none of them handles. -/
def shares (size : Nat) (members : List (TrackRecord α)) (gain : α) : α :=
  Quantity.sum (members.map totalCredit) + (Quantity.ofNat size - gain)

/-- The schedule of a sub-portfolio. -/
def allocate (size : Nat) (q : SelectionQuery α) (records members : List (TrackRecord α))
    (gain : α) : Schedule α :=
  sortByTime records (giveLeftover q.backup q.timeout
    (memberSlots q.timeout (shares size members gain) members))

/-! ## Selection -/

/-- Selects from the records of a portfolio on a neighbourhood of a given size. Without neighbours
or solvers the backup solver gets the whole timeout. -/
def ofRecords (size : Nat) (q : SelectionQuery α) (useArea : Bool)
    (records : List (TrackRecord α)) : Selection α :=
  if size = 0 ∨ records.isEmpty then ⟨[], [⟨q.backup, q.timeout⟩]⟩
  else
    let (members, gain) := match bestSubPortfolio size q.minSize useArea records with
      | some c => (c.members, c.gain)
      | none => ([], 0)
    ⟨members.map (·.solver), allocate size q records members gain⟩

/-- Selects for a problem without objective. -/
def forSatisfaction (neighbors : List (Entry α)) (q : SelectionQuery α) : Selection α :=
  ofRecords neighbors.length q false (q.portfolio.map (solvedRecord neighbors q.timeout))

/-- Selects for a problem with an objective. -/
def forOptimization (neighbors : List (Entry α)) (q : SelectionQuery α) : Selection α :=
  ofRecords neighbors.length q true (q.portfolio.map (scoredRecord neighbors q.timeout))

/-- What is worth a warning in a selection. -/
def notices (size : Nat) (portfolio : List String) : List Notice :=
  let m := portfolio.length
  if size = 0 ∨ m = 0 then
    [.warning "empty neighborhood or portfolio, running only the backup solver"]
  else if largePortfolio < m then
    [.warning s!"searching all 2^{m} sub-portfolios of a portfolio of {m} solvers"]
  else []

end Selection

end SolverPortfolio
