import SolverPortfolio.CommandLine.Settings
import SolverPortfolio.ModelInterface
import SolverPortfolio.Prediction
import SolverPortfolio.Rehearsal.Conduct
import SolverPortfolio.Schedule.Static

/-
# Sessions

A session does what a command line asks for: it reads the files that the command
line names, settles the goal and the features of the model, predicts a schedule,
and runs it on a host. The first thing that goes wrong ends the session.

Main definitions: `SessionError`, `Preparing`, `Portfolio.choose`,
`Session.prepare`, `Session.hold`, `SessionExit`, `SessionReport`.
-/

namespace SolverPortfolio

/-! ## What can go wrong -/

/-- Why a file gives no value. -/
inductive FileError (ε : Type) where
  | unreadable (path : String) (cause : SystemError)
  | content (e : ε)
  deriving Repr, DecidableEq

/-- The text shown when a file gives no value, and what is behind it. -/
def FileError.causes {ε : Type} (unreadableText : String) (describe : ε → List String) :
    FileError ε → List String
  | .unreadable path cause => [s!"{unreadableText} '{path}'", cause.text]
  | .content e => describe e

/-- Why a session ends without a run. -/
inductive SessionError where
  | solverTable (e : FileError SolverTableError)
  | emptyPortfolio
  | unknownSolver (name : String)
  | knowledgeBase (e : FileError KnowledgeBaseError)
  | limits (e : FileError LimitsError)
  | staticSchedule (e : FileError StaticSchedule.Error)
  | goal (e : InquiryError ModelInterface.Error)
  | featureFile (e : FileError FeaturesError)
  | extraction (e : InquiryError FeaturesError)
  | prediction (e : PredictionError)
  /-- A time is longer than the longest duration; the program breaks off. -/
  | timeTooLong
  /-- A command runs for ever; the program waits for it. -/
  | endless

namespace SessionError

/-- The text shown when a session ends without a run, and what is behind it. -/
def causes : SessionError → List String
  | solverTable e =>
    "failed to load the solver table" ::
      e.causes "failed to read solver table" fun e => [e.message]
  | emptyPortfolio => ["the portfolio is empty"]
  | unknownSolver name => [s!"portfolio solver '{name}' is not in the solver table"]
  | knowledgeBase e =>
    "failed to load the knowledge base" :: e.causes "failed to read" fun e => [e.message]
  | limits e =>
    "failed to load the feature limits" ::
      e.causes "failed to read limits from" fun e => [e.message]
  | staticSchedule e =>
    "invalid static schedule" ::
      e.causes "failed to read static schedule" fun e => [e.message]
  | goal e => "failed to determine the objective of the model" :: ModelInterface.inquiryCauses e
  | featureFile e =>
    "failed to obtain the instance features" ::
      e.causes "failed to read feature file" FeaturesError.causes
  | extraction e => "failed to obtain the instance features" :: Features.extractionCauses e
  | prediction e => ["failed to predict a schedule", e.message]
  | timeTooLong => ["a time is longer than the longest duration"]
  | endless => ["a command runs for ever"]

/-- All texts of an error in one line. -/
def message (e : SessionError) : String := Text.joinWith ": " e.causes

end SessionError

/-! ## Portfolios -/

/-- The solvers to choose from, and the one that takes over leftover time. -/
structure Portfolio where
  solvers : List String
  backup : String
  deriving Repr, DecidableEq

namespace Portfolio

/-- The names in a list with commas between them. -/
def readNames (list : String) : List String :=
  ((Text.splitOn ',' list.toList).map fun name => String.ofList (Text.trim name)).filter
    fun name => !name.isEmpty

/-- The backup: the one that is asked for, else the preferred one if the table has it, else the
first solver. -/
def backupOf (table : SolverTable) (asked : Option String) (first : String) : String :=
  match asked with
  | some name => name
  | none =>
    if table.contains SolverTable.preferredBackup then SolverTable.preferredBackup else first

/-- The portfolio that is asked for, or all solvers of the table. All its solvers have to be in the
table. -/
def choose (table : SolverTable) (names backup : Option String) :
    Except SessionError Portfolio :=
  let solvers := match names with
    | some list => readNames list
    | none => table.names
  match solvers with
  | [] => .error .emptyPortfolio
  | first :: _ =>
    let backup := backupOf table backup first
    match (solvers ++ [backup]).find? fun name => !table.contains name with
    | some unknown => .error (.unknownSolver unknown)
    | none => .ok ⟨solvers, backup⟩

/-- What is reported about a portfolio. -/
def notice (p : Portfolio) : Notice :=
  let names := Text.joinWith ", " p.solvers
  .info s!"portfolio: {names} (backup {p.backup})"

end Portfolio

/-! ## Preparing a run -/

/-- How far the preparation of a run has come. -/
structure Preparation where
  host : Host
  /-- What was reported, in order. -/
  notices : List Notice

/-- A step of the preparation of a run. -/
abbrev Preparing := ExceptT SessionError (StateM Preparation)

namespace Preparing

/-- Reports something. -/
def note (n : Notice) : Preparing Unit :=
  modify fun p => { p with notices := p.notices ++ [n] }

/-- Goes on with a value, if there is one. -/
def orFail {ε α : Type} (wrap : ε → SessionError) : Except ε α → Preparing α
  | .ok a => pure a
  | .error e => throw (wrap e)

/-- Reads a file. -/
def file {ε α : Type} (wrap : FileError ε → SessionError) (path : String)
    (read : List Char → Except ε α) : Preparing α := do
  match (← get).host.disk.readText path with
  | .error cause => throw (wrap (.unreadable path cause))
  | .ok text => orFail (wrap ∘ .content) (read text.toList)

/-- Makes an inquiry. -/
def ask {ε α : Type} (wrap : InquiryError ε → SessionError) (q : Inquiry ε α) : Preparing α := do
  let p ← get
  let (host, answer) := p.host.ask q
  set { p with host }
  match answer with
  | some answer => orFail wrap answer
  | none => throw .endless

end Preparing

/-- How a session ends. -/
inductive SessionExit where
  | success
  | failure
  /-- The program breaks off and prints nothing. -/
  | breakdown
  /-- The program does not end. -/
  | endless
  deriving Repr, DecidableEq

/-- The exit code of the program; that of a program that is given up if it does not end. -/
def SessionExit.code : SessionExit → UInt32
  | success => 0
  | failure => 1
  | breakdown => 101
  | endless => 124

/-- What a session shows. -/
structure SessionReport where
  exit : SessionExit
  /-- What was printed, in order. -/
  printed : List String
  /-- What was reported, in order. -/
  notices : List Notice

/-- The lines of the report that a verbosity shows. -/
def SessionReport.log (r : SessionReport) (v : Verbosity) : List String :=
  (r.notices.filter fun n => v.shows n.severity).map Notice.line

namespace Session

open Preparing

/-- The variable whose assignments announce objective values. -/
def tracked : String := "_objective"

/-- The line printed when a session ends without a run. -/
def errorLine : String := "=====ERROR====="

/-- The solver table: that of the file that is named, else the one for MiniZinc. -/
def solverTable (a : Arguments) : Preparing SolverTable :=
  match a.solvers with
  | some path => file .solverTable path SolverTable.parse
  | none => pure (SolverTable.builtIn a.minizincExe)

/-- The knowledge base. -/
def knowledgeBase (a : Arguments) (s : Settings) : Preparing (KnowledgeBase Float) := do
  let kb ← file .knowledgeBase a.kb (KnowledgeBase.parse ⟨some s.recordedTimeout, s.checkKb⟩)
  note (.info
    s!"loaded knowledge base with {kb.entries.length} instances of dimension {kb.dimension}")
  return kb

/-- The schedule that runs first in any case. -/
def fixedSchedule (a : Arguments) (s : Settings) (table : SolverTable) :
    Preparing (Schedule Float) :=
  match a.staticSchedule with
  | some path => file .staticSchedule path fun text => StaticSchedule.load text table s.timeout
  | none => pure []

/-- The goal: the one that is named, else that of the model. -/
def goal (a : Arguments) : Preparing Goal :=
  match a.goal with
  | some goal => pure goal
  | none => ask .goal (ModelInterface.inquiry a.minizincExe a.model)

/-- The features: those of the file that is named, else those of the model. -/
def features (a : Arguments) : Preparing Features :=
  match a.features with
  | some path => file .featureFile path Features.parse
  | none => ask .extraction (Features.inquiry a.extractor a.model a.data)

/-- What is reported about the whole plan on one core. -/
def planNotice (plan : Plan Float) : Notice :=
  let slots := Text.joinWith ", " (plan.sequential.map Slot.render)
  .info s!"sequential schedule: {slots}"

/-- Prepares a run. -/
def prepare (a : Arguments) (s : Settings) : Preparing RehearsalPlan := do
  let table ← solverTable a
  let portfolio ← orFail id (Portfolio.choose table a.portfolio a.backup)
  note portfolio.notice
  let knowledge ← knowledgeBase a s
  let limits ← file .limits a.lims Limits.parse
  let fixed ← fixedSchedule a s table
  let goal ← goal a
  let features ← features a
  let predictor : Predictor :=
    { knowledge, limits, fixed
      portfolio := portfolio.solvers
      backup := portfolio.backup
      timeout := s.timeout
      neighbors := s.neighbors
      minSize := s.minSize }
  let forecast ← orFail .prediction (predictor.predict features goal)
  (forecast.notices portfolio.solvers).forM note
  note (planNotice forecast.plan)
  match s.run? with
  | none => throw .timeTooLong
  | some settings =>
    return {
      settings, goal, tracked, table
      schedule := forecast.plan.parallelize s.cores s.timeout
      model := a.model
      data := a.data }

/-- What is reported at the end of a run. -/
def closingNotice : RunOutcome → Notice
  | .proved w => .info s!"solver '{w.solver}' won: {w.proof.word}"
  | outcome => .info s!"no proof found: {outcome.text}"

/-- Holds a session on a host with a number of cores. -/
def hold (host : Host) (availableCores : Nat) (a : Arguments) : SessionReport :=
  match (prepare a (Settings.ofArguments a availableCores)).run.run ⟨host, []⟩ with
  | (.error .timeTooLong, p) => { exit := .breakdown, printed := [], notices := p.notices }
  | (.error .endless, p) => { exit := .endless, printed := [], notices := p.notices }
  | (.error e, p) =>
    { exit := .failure, printed := [errorLine], notices := p.notices ++ [.error e.message] }
  | (.ok plan, p) =>
    let transcript := rehearse p.host plan
    { exit := .success
      printed := transcript.printed
      notices :=
        p.notices ++ transcript.notices ++ [closingNotice transcript.report.outcome] }

end Session

end SolverPortfolio
