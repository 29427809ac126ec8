import SolverPortfolio.CommandLine.Given

/-
# Command line arguments

A command line names a model, perhaps a data file, and options. The model, a
knowledge base and limits are required.

Main definitions: `Arguments`, `Arguments.parse`.
-/

namespace SolverPortfolio

/-- What a command line asks for. -/
structure Arguments where
  model : String
  data : Option String
  kb : String
  lims : String
  /-- A file of features, read instead of running the extractor. -/
  features : Option String
  extractor : String
  goal : Option Goal
  minizincExe : String
  timeout : Option Float
  kbTimeout : Option Float
  noKbCheck : Bool
  neighbors : Option Nat
  portfolio : Option String
  backup : Option String
  cores : Option Nat
  minSize : Option Nat
  staticSchedule : Option String
  solvers : Option String
  waitTime : Option Float
  restartTime : Option Float
  maxRestarts : Option Nat
  memLimit : Option Float
  allSolutions : Bool
  freeSearch : Bool
  switchSearch : Bool
  debugVerbosity : Verbosity

namespace Arguments

/-- The extractor used if none is given. -/
def defaultExtractor : String := "mzn2feat"

/-- The MiniZinc executable used if none is given. -/
def defaultMinizinc : String := "minizinc"

/-- The arguments that were given, if none is missing. -/
def ofGiven? (g : GivenArguments) : Option Arguments := do
  let model ← g.operands[0]?
  let kb ← g.text? .kb
  let lims ← g.text? .lims
  return {
    model, kb, lims
    data := g.operands[1]?
    features := g.text? .features
    extractor := (g.text? .extractor).getD defaultExtractor
    goal := g.goal?
    minizincExe := (g.text? .minizincExe).getD defaultMinizinc
    timeout := g.seconds? .timeout
    kbTimeout := g.seconds? .kbTimeout
    noKbCheck := g.flags.contains .noKbCheck
    neighbors := g.count? .neighbors
    portfolio := g.text? .portfolio
    backup := g.text? .backup
    cores := g.count? .cores
    minSize := g.count? .minSize
    staticSchedule := g.text? .staticSchedule
    solvers := g.text? .solvers
    waitTime := g.seconds? .waitTime
    restartTime := g.seconds? .restartTime
    maxRestarts := g.count? .maxRestarts
    memLimit := g.seconds? .memLimit
    allSolutions := g.flags.contains .allSolutions
    freeSearch := g.flags.contains .freeSearch
    switchSearch := g.flags.contains .switchSearch
    debugVerbosity := g.verbosity?.getD .warning }

/-- Reads a command line, without the name of the program. -/
def parse (arguments : List String) : Except UsageError Arguments := do
  let g ← arguments.foldlM GivenArguments.readArgument GivenArguments.none
  let g ← g.resolve
  orUsageError .missingRequiredArgument (ofGiven? g)

/-- The files that a session reads. -/
def inputFiles (a : Arguments) : List String :=
  [a.model, a.kb, a.lims] ++ a.data.toList ++ a.features.toList ++ a.staticSchedule.toList ++
    a.solvers.toList

end Arguments

end SolverPortfolio
