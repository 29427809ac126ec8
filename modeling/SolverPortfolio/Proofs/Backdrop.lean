import SolverPortfolio.Rehearsal.Conduct

/-
# What a stage keeps

Reading what processes print, reporting it, and beginning or giving up a launch change the
host, the inbox and what is reported. The rest of a stage is left as it is.

Main definition: `Stage.backdrop`.
Main statements: `Stage.backdrop_drain`, `Stage.backdrop_launchSolver`.
-/

namespace SolverPortfolio

namespace Stage

variable (s : Stage)

/-- The run, the model with its data, the conversions made so far, and the launches. -/
def backdrop : Run Float × String × Option String × ConversionCache × List LaunchTask :=
  (s.run, s.model, s.data, s.cache, s.tasks)

@[simp] theorem backdrop_note (n : Notice) : (s.note n).backdrop = s.backdrop := rfl

@[simp] theorem backdrop_send (m : Message) : (s.send m).backdrop = s.backdrop := rfl

@[simp] theorem backdrop_host (host : Host) : { s with host }.backdrop = s.backdrop := rfl

@[simp] theorem backdrop_noteLines (label : String) (lines : List ReadLine) :
    (s.noteLines label lines).backdrop = s.backdrop := by
  refine List.foldlRecOn (motive := fun s' : Stage => s'.backdrop = s.backdrop) _ _ rfl
    fun s' hs line _ => ?_
  cases line <;> exact hs

@[simp] theorem backdrop_foldl_note (notices : List Notice) :
    (notices.foldl note s).backdrop = s.backdrop :=
  List.foldlRecOn (motive := fun s' : Stage => s'.backdrop = s.backdrop) _ _ rfl
    fun _ hs _ _ => hs

@[simp] theorem backdrop_readLines (request : LaunchRequest) (reader : StreamReader)
    (lines : List ReadLine) : (s.readLines request reader lines).1.backdrop = s.backdrop := by
  induction lines generalizing s reader with
  | nil => rfl
  | cons line lines ih =>
    cases line with
    | error fault => rw [readLines, ih, backdrop_note]
    | ok line =>
      simp only [readLines, ih]
      split <;> rfl

@[simp] theorem backdrop_drainErrors (label : String) (tap : Tap) :
    (s.drainErrors label tap).1.backdrop = s.backdrop :=
  backdrop_noteLines _ _ _

/-- Nothing else is changed by reading. -/
theorem backdrop_drain (task : LaunchTask) : (s.drain task).1.backdrop = s.backdrop := by
  unfold drain
  cases task.stage with
  | converting process conversion errors => exact backdrop_drainErrors _ _ _
  | streaming process streams reader =>
    simp only [backdrop_readLines]
    cases streams.filtering with
    | none => exact backdrop_drainErrors _ _ _
    | some filtering =>
      simp only [backdrop_host, backdrop_drainErrors]
  | requested => rfl
  | finished => rfl

@[simp] theorem backdrop_failLaunch (request : LaunchRequest) (message : String) :
    (s.failLaunch request message).1.backdrop = s.backdrop := rfl

/-- Nothing else is changed by beginning a solver. -/
theorem backdrop_launchSolver (request : LaunchRequest) (c : Conversion) :
    (s.launchSolver request c).1.backdrop = s.backdrop := by
  unfold launchSolver
  dsimp only
  split
  · simp only [backdrop_failLaunch, backdrop_host, backdrop_foldl_note]
  · split
    · simp only [backdrop_failLaunch, backdrop_host, backdrop_foldl_note]
    · simp only [backdrop_note, backdrop_send, backdrop_host, backdrop_foldl_note]

end Stage

end SolverPortfolio
