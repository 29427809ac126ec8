import SolverPortfolio.Combination
import SolverPortfolio.Main
import SolverPortfolio.ProcessTree
import SolverPortfolio.Proofs.Ending
import SolverPortfolio.Proofs.Injection
import SolverPortfolio.Proofs.LastPrinted
import SolverPortfolio.Proofs.Pause
import SolverPortfolio.Proofs.Soundness
import SolverPortfolio.Proofs.Stale
import SolverPortfolio.Session
import SolverPortfolio.Proofs.OwnBound
import SolverPortfolio.Proofs.Handover
import SolverPortfolio.Proofs.Deadlines
import SolverPortfolio.Proofs.Suspension
import SolverPortfolio.Proofs.Refilling
import SolverPortfolio.Proofs.Idleness
import SolverPortfolio.Proofs.EqualShares
import SolverPortfolio.Proofs.ExactQuantity
import SolverPortfolio.Proofs.History
import SolverPortfolio.Proofs.Merit
import SolverPortfolio.Proofs.Allocation
import SolverPortfolio.Proofs.Overbooking
import SolverPortfolio.Proofs.Spreading
import SolverPortfolio.Proofs.Transcript
import SolverPortfolio.Proofs.Staffing
import SolverPortfolio.Proofs.Unranking
import SolverPortfolio.Proofs.Overlap
import SolverPortfolio.Proofs.WorkerHistory
import SolverPortfolio.Proofs.Splicing
import SolverPortfolio.Proofs.SolveItem
import SolverPortfolio.Proofs.NearestDouble
import SolverPortfolio.Proofs.Numerals
import SolverPortfolio.Proofs.ObjectiveValue
import SolverPortfolio.Proofs.DoubleOrder
import SolverPortfolio.Proofs.Nearest
import SolverPortfolio.Proofs.RecordedRuns
import SolverPortfolio.Proofs.JsonText
import SolverPortfolio.Proofs.JsonGrammar
import SolverPortfolio.Proofs.Rewriting
import SolverPortfolio.Proofs.Apostrophes
import SolverPortfolio.Proofs.Renaming
import SolverPortfolio.Proofs.StrictRows
import SolverPortfolio.Proofs.Dictionaries
import SolverPortfolio.Proofs.Merging
import SolverPortfolio.Proofs.IndexTable
import SolverPortfolio.Proofs.IndexKeys
import SolverPortfolio.Proofs.LimitsTexts
import SolverPortfolio.Proofs.UndefinedNumbers
import SolverPortfolio.Proofs.Normalization
import SolverPortfolio.Proofs.CoreCounts
import SolverPortfolio.Proofs.Acceptance
import SolverPortfolio.Proofs.Substitution
import SolverPortfolio.Proofs.Descendants
import SolverPortfolio.Proofs.MemoryGrowth
import SolverPortfolio.Proofs.AcceptedTimes
import SolverPortfolio.Proofs.WordCounts
import SolverPortfolio.Proofs.SlotSums
