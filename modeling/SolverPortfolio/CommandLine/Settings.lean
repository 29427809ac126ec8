import SolverPortfolio.CommandLine.Arguments
import SolverPortfolio.Supervision.Run

/-
# Settings

The settings of a session: what the command line gives, and defaults for all
else.

Main definitions: `Settings`, `Settings.ofArguments`, `Settings.run?`.
-/

namespace SolverPortfolio

/-- How a session is conducted. Times are in seconds. -/
structure Settings where
  timeout : Float
  kbTimeout : Option Float
  checkKb : Bool
  neighbors : Option Nat
  cores : Nat
  minSize : Nat
  waitTime : Float
  restartTime : Float
  maxRestarts : Nat
  memLimit : Float
  /-- The whole seconds between two ticks of the monitor. -/
  monitorInterval : Nat
  allSolutions : Bool
  freeSearch : Bool
  switchSearch : Bool

namespace Settings

/-- The settings that arguments ask for, on a machine with a number of cores. -/
def ofArguments (a : Arguments) (availableCores : Nat) : Settings :=
  { timeout := a.timeout.getD 1800
    kbTimeout := a.kbTimeout
    checkKb := !a.noKbCheck
    neighbors := a.neighbors
    cores := max (a.cores.getD availableCores) 1
    minSize := a.minSize.getD 1
    waitTime := a.waitTime.getD 2
    restartTime := a.restartTime.getD 5
    maxRestarts := a.maxRestarts.getD 10
    memLimit := a.memLimit.getD 80
    monitorInterval := 1
    allSolutions := a.allSolutions
    freeSearch := a.freeSearch
    switchSearch := a.switchSearch }

/-- The timeout that the knowledge base was recorded with. -/
def recordedTimeout (s : Settings) : Float := s.kbTimeout.getD s.timeout

/-- The duration of a setting; less than nothing counts as nothing. -/
def duration? (seconds : Float) : Option Duration :=
  Duration.ofSeconds? (Quantity.larger seconds 0)

/-- The settings of the run, if all times are durations. -/
def run? (s : Settings) : Option RunSettings := do
  return {
    timeout := ← duration? s.timeout
    waitTime := ← duration? s.waitTime
    restartTime := ← duration? s.restartTime
    maxRestarts := s.maxRestarts
    memoryPercent := s.memLimit
    monitorInterval := Duration.ofWholeSeconds (max s.monitorInterval 1)
    allSolutions := s.allSolutions
    freeSearch := s.freeSearch
    switchSearch := s.switchSearch }

end Settings

end SolverPortfolio
