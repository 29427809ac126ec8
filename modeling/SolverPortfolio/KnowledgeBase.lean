import SolverPortfolio.Goal
import SolverPortfolio.Json.Decode
import SolverPortfolio.Json.Reader
import SolverPortfolio.Text.Basic
import SolverPortfolio.Text.WordCharacter

/-
# Knowledge bases

A knowledge base records how solvers fared on past instances. Each row of its
text holds three columns with bars between them: the name of the instance, its
feature vector as a JSON array, and a JSON object with one outcome for each
solver. A column may also use single quotes, and the bare word `nan` for a
missing number.

Main definitions: `Outcome`, `Entry`, `KnowledgeBase`, `readRow`,
`Outcome.violated?`, `KnowledgeBase.parse`.
-/

namespace SolverPortfolio

/-- How a recorded run ended. -/
inductive RunStatus where
  | satisfied
  | unsatisfiable
  | unknown
  | optimal
  deriving Repr, DecidableEq

/-- The outcome of one solver on one instance. -/
structure Outcome (α : Type) where
  /-- The seconds the run took. -/
  time : α
  status : Option RunStatus
  goal : Option Goal
  /-- How close the last value came to the best one known; one for a proof. -/
  score : Option α
  /-- How long the run stayed how far from the best value. -/
  area : Option α
  /-- The last objective value found. -/
  value : Option α

/-- A past instance: its features, of which `none` is an unknown one, and the outcomes on it. -/
structure Entry (α : Type) where
  id : String
  features : List (Option α)
  outcomes : List (String × Outcome α)

/-- The outcome of a solver on an instance. -/
def Entry.outcome? {α : Type} (entry : Entry α) (solver : String) : Option (Outcome α) :=
  entry.outcomes.lookup solver

/-- The past instances, in the order of the file. -/
structure KnowledgeBase (α : Type) where
  entries : List (Entry α)

/-! ## Rows -/

/-- Why a row cannot be read. -/
inductive RowError where
  | columns
  | features
  | outcomes
  deriving Repr, DecidableEq

/-- The text shown for a row that cannot be read. -/
def RowError.message : RowError → String
  | .columns => "expected three '|'-separated columns"
  | .features => "invalid feature vector"
  | .outcomes => "invalid solver infos"

/-- The JSON text of a column: single quotes become double ones, and the word `nan` becomes
`null`. -/
def columnJson (column : List Char) : List Char :=
  Text.replaceWord "nan".toList "null".toList (Text.replaceChar '\'' '"' (Text.trim column))

/-- The words for the end of a recorded run. -/
def RunStatus.words : List (String × RunStatus) :=
  [("sat", .satisfied), ("uns", .unsatisfiable), ("unk", .unknown), ("opt", .optimal)]

/-- The fields of an outcome, with all their names. -/
def Outcome.fields : List (List String) :=
  [["time", "otime", "tot_time"], ["info"], ["goal"], ["score"], ["area"], ["val"]]

variable {α : Type} [Quantity α]

/-- Reads a field that may be missing or `null`. -/
def optionalField? {β : Type} (read? : Json → Option β) : Option Json → Option (Option β)
  | none => some none
  | some v => v.asOption? read?

/-- Reads an outcome: a record of which only the time is required. -/
def Outcome.ofJson? (v : Json) : Option (Outcome α) := do
  match ← v.asRecord? Outcome.fields with
  | [time, status, goal, score, area, value] =>
    return {
      time := ← (← time).asNumber?
      status := ← optionalField? (Json.asWord? RunStatus.words) status
      goal := ← optionalField? (Json.asWord? Goal.shortNames) goal
      score := ← optionalField? Json.asNumber? score
      area := ← optionalField? Json.asNumber? area
      value := ← optionalField? Json.asNumber? value }
  | _ => none

/-- Reads the feature column. -/
def readFeatures? (column : List Char) : Option (List (Option α)) := do
  (← Json.read? (columnJson column)).asList? (Json.asOption? Json.asNumber?)

/-- Reads the outcome column. -/
def readOutcomes? (column : List Char) : Option (List (String × Outcome α)) := do
  (← Json.read? (columnJson column)).asDictionary? Outcome.ofJson?

/-- The three columns of a row; bars beyond the second belong to the last column. -/
def splitColumns? (line : List Char) : Option (List Char × List Char × List Char) := do
  let (id, rest) ← Text.cutAt '|' line
  let (features, outcomes) ← Text.cutAt '|' rest
  return (id, features, outcomes)

/-- Reads a row. -/
def readRow (line : List Char) : Except RowError (Entry α) :=
  match splitColumns? line with
  | none => .error .columns
  | some (id, features, outcomes) =>
    match readFeatures? features with
    | none => .error .features
    | some features =>
      match readOutcomes? outcomes with
      | none => .error .outcomes
      | some outcomes => .ok ⟨String.ofList (Text.trim id), features, outcomes⟩

/-! ## Invariants of recorded runs -/

/-- The rules that outcomes recorded with a timeout `T` obey. -/
inductive Invariant where
  | timeWithinTimeout
  | valueUnlessUnknown
  | timeoutIffUnfinished
  deriving Repr, DecidableEq

/-- The rule as shown when it is violated. -/
def Invariant.text : Invariant → String
  | .timeWithinTimeout => "time <= T"
  | .valueUnlessUnknown => "goal = sat \\/ info = unk \\/ info = uns <==> val = nan"
  | .timeoutIffUnfinished => "info = unk \\/ (goal != sat /\\ info = sat) <==> time = T"

/-- How far recorded times may be off, in seconds. -/
def timeTolerance : α := Quantity.ofRatio 1 1000000

/-- Does the outcome belong to an optimization problem? -/
def Outcome.isOptimization (o : Outcome α) : Bool :=
  o.score.isSome || o.goal == some .minimize || o.goal == some .maximize

/-- Does the time lie above the timeout? -/
def Outcome.exceeds (o : Outcome α) (timeout : α) : Bool :=
  Quantity.lt (timeout + timeTolerance) o.time

/-- Does the time equal the timeout? The difference is compared with both ends of the tolerance. -/
def Outcome.hits (o : Outcome α) (timeout : α) : Bool :=
  let d := o.time - timeout
  !Quantity.lt timeTolerance d && !Quantity.lt d (0 - timeTolerance) && d == d

/-- The first rule that an outcome violates. The rules on values and on timeouts need a recorded
end of the run, the rules on times a known timeout. An undefined number would be no value either,
but none can be read: JSON has no such number, and a bare `nan` is read as a missing value. -/
def Outcome.violated? (o : Outcome α) (timeout : Option α) : Option Invariant :=
  let overtime := match timeout with
    | some T => o.exceeds T
    | none => false
  if overtime then some .timeWithinTimeout
  else match o.status with
    | none => none
    | some status =>
      let noValue := o.goal == some .satisfy || status == .unknown || status == .unsatisfiable
      if o.isOptimization && noValue == o.value.isSome then some .valueUnlessUnknown
      else match timeout with
        | none => none
        | some T =>
          let satisfaction := o.goal == none || o.goal == some .satisfy
          let unfinished := status == .unknown || (!satisfaction && status == .satisfied)
          if unfinished == o.hits T then none else some .timeoutIffUnfinished

/-- A rule violated by a solver on an instance. -/
structure Violation where
  invariant : Invariant
  solver : String
  instanceId : String
  deriving Repr, DecidableEq

/-- The text shown for a violated rule. -/
def Violation.message (v : Violation) : String :=
  s!"invariant '{v.invariant.text}' violated by solver '{v.solver}' on instance '{v.instanceId}'"

/-- The first violation among the outcomes of an entry. -/
def Entry.violation? (entry : Entry α) (timeout : Option α) : Option Violation :=
  entry.outcomes.findSome? fun (solver, o) =>
    (o.violated? timeout).map fun invariant => ⟨invariant, solver, entry.id⟩

/-! ## Loading -/

/-- How a knowledge base is loaded: the timeout of its runs, and whether the rules are checked. -/
structure LoadOptions (α : Type) where
  timeout : Option α
  checked : Bool

/-- Why a text is no knowledge base. -/
inductive KnowledgeBaseError where
  | row (line : Nat) (cause : RowError)
  | dimension (instanceId : String) (features expected : Nat)
  | violation (v : Violation)
  deriving Repr, DecidableEq

/-- The text shown for a text that is no knowledge base. -/
def KnowledgeBaseError.message : KnowledgeBaseError → String
  | .row line cause => s!"corrupt knowledge base: line {line}: {cause.message}"
  | .dimension id features expected =>
    s!"corrupt knowledge base: instance '{id}' has {features} features, expected {expected}"
  | .violation v => v.message

namespace KnowledgeBase

/-- The number of features of every entry; zero without entries. -/
def dimension {α : Type} (kb : KnowledgeBase α) : Nat :=
  match kb.entries with
  | [] => 0
  | entry :: _ => entry.features.length

/-- The first entry with a given name. -/
def find? {α : Type} (kb : KnowledgeBase α) (id : String) : Option (Entry α) :=
  kb.entries.find? (·.id == id)

/-- Reads one line that is not blank: the row, the rules on it, and the number of its features. -/
def readEntry (options : LoadOptions α) (expected : Option Nat) (number : Nat)
    (line : List Char) : Except KnowledgeBaseError (Entry α) :=
  match readRow line with
  | .error cause => .error (.row number cause)
  | .ok entry =>
    match if options.checked then entry.violation? options.timeout else none with
    | some v => .error (.violation v)
    | none =>
      match expected with
      | none => .ok entry
      | some n =>
        if entry.features.length = n then .ok entry
        else .error (.dimension entry.id entry.features.length n)

/-- Reads the lines from the one with number `number` on. The first entry settles how many features
all others have. -/
def readEntries (options : LoadOptions α) :
    Option Nat → Nat → List (List Char) → Except KnowledgeBaseError (List (Entry α))
  | _, _, [] => .ok []
  | expected, number, line :: rest =>
    if Text.allBlank line then readEntries options expected (number + 1) rest
    else
      match readEntry options expected number line with
      | .error e => .error e
      | .ok entry =>
        match readEntries options (some entry.features.length) (number + 1) rest with
        | .error e => .error e
        | .ok entries => .ok (entry :: entries)

/-- Reads a knowledge base. The error is that of the first line with one; blank lines are passed
over. -/
def parse (options : LoadOptions α) (text : List Char) :
    Except KnowledgeBaseError (KnowledgeBase α) :=
  (readEntries options none 1 (Text.lines text)).map KnowledgeBase.mk

end KnowledgeBase

end SolverPortfolio
