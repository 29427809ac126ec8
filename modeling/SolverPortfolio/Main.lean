import SolverPortfolio.Session

/-
# The program

Reads the files that the command line names, holds the session on a rehearsal
host that has these files, and shows what the session shows: answers on the
standard output, notices on the stream for errors.

Main definitions: `main`.
-/

namespace SolverPortfolio

/-- A disk with those of the given files that can be read. -/
def readDisk (paths : List String) : IO Disk :=
  paths.foldlM
    (fun disk (path : String) => do
      try return disk.write path (← IO.FS.readBinFile path)
      catch _ => return disk)
    Disk.empty

/-- Holds the session that arguments ask for, and gives back the exit code. -/
def runSession (a : Arguments) : IO UInt32 := do
  let report := Session.hold (Host.new (← readDisk a.inputFiles)) 1 a
  (report.log a.debugVerbosity).forM (IO.eprintln ·)
  report.printed.forM (IO.println ·)
  return report.exit.code

/-- Shows why there is no session, and gives back the exit code. -/
def showUsage (e : UsageError) : IO UInt32 := do
  if e.isInformation then
    IO.println e.message
    return 0
  else
    IO.eprintln e.message
    return 2

end SolverPortfolio

/-- The program. -/
def main (arguments : List String) : IO UInt32 :=
  match SolverPortfolio.Arguments.parse arguments with
  | .ok a => SolverPortfolio.runSession a
  | .error e => SolverPortfolio.showUsage e
