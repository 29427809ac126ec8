import SolverPortfolio.Rehearsal.Stage

/-
# Launches of a rehearsal

A launch converts the model unless that was done before, begins the processes of
the solver, and ends when they have ended.

Main definitions: `Stage.launchSolver`, `Stage.beginConverting`,
`Stage.beginConversion`, `Stage.advanceLaunch?`, `Host.conversionMachine`,
`convertModel`.
-/

namespace SolverPortfolio

namespace Stage

/-- Ends a launch that failed. -/
def failLaunch (s : Stage) (request : LaunchRequest) (message : String) : Stage × LaunchTask :=
  ((s.note (.error s!"solver '{request.solver.name}': {message}")).send
      (.launchFailed request.worker request.generation),
    ⟨request, .finished⟩)

/-- The text of a converted model. -/
def convertedModel (s : Stage) (path : String) : Except String (List Char) :=
  match s.host.disk.readText path with
  | .ok text => .ok text.toList
  | .error _ => .error s!"Failed to read FlatZinc file: {path}"

/-- Begins the processes of a launch. A solver whose filter cannot be begun goes on, but nobody
reads what it prints. -/
def spawnCommands (h : Host) (c : LaunchCommands) :
    Host × Except SystemError (ProcessId × LaunchStreams) :=
  let (h, output) := h.newPipe true false
  let (h, errors) := h.newPipe true false
  let abandon := fun h : Host => (h.release output).release errors
  match h.spawn c.run none (Handles.standard .nothing (.writer output) (.writer errors)) with
  | .error e => (abandon h, .error e)
  | .ok (h, process) =>
    match c.filter with
    | none => (h, .ok (process, ⟨Tap.start output, Tap.start errors, none⟩))
    | some filter =>
      let (h, input) := h.newPipe false true
      let (h, filtered) := h.newPipe true false
      let (h, filterErrors) := h.newPipe true false
      let handles := Handles.standard (.reader input) (.writer filtered) (.writer filterErrors)
      match h.spawn filter (some process) handles with
      | .error e => (abandon h, .error e)
      | .ok (h, _) =>
        (h, .ok (process, ⟨Tap.start filtered, Tap.start errors,
          some (⟨output, input, true⟩, Tap.start filterErrors)⟩))

/-- Begins the solver of a launch whose model is converted. -/
def launchSolver (s : Stage) (request : LaunchRequest) (c : Conversion) : Stage × LaunchTask :=
  let spliced := request.splice (s.convertedModel c.fzn)
  let s := spliced.notices.foldl note s
  let (host, fzn) := match spliced.changed with
    | none => (s.host, c.fzn)
    | some text =>
      let (host, path) := s.host.newFile "fzn"
      (host.updateDisk (·.writeText path (String.ofList text)), path)
  let s := { s with host }
  match request.commands fzn c.ozn with
  | .error e => s.failLaunch request e.message
  | .ok commands =>
    match spawnCommands s.host commands with
    | (host, .error e) => { s with host }.failLaunch request (LaunchError.notStarted e).message
    | (host, .ok (process, streams)) =>
      let s := { s with host }.send
        (.launched request.worker request.generation process spliced.injected)
      (s.note (.info s!"solver '{request.solver.name}' is running with pid {process}"),
        ⟨request, .streaming process streams (StreamReader.start request.tracked)⟩)

/-- Ends a launch whose model cannot be converted. -/
def failConversion (s : Stage) (request : LaunchRequest) (e : ConversionError) :
    Stage × LaunchTask :=
  s.failLaunch request (LaunchError.conversion request.solver.name e.message).message

/-- Begins the command of a conversion, and gives back the pipe that it complains to. What it prints
is not wanted. -/
def beginConverting (h : Host) (c : Command) : Except SystemError (Host × ProcessId × PipeId) :=
  let (h, errors) := h.newPipe true false
  match h.spawn c none (Handles.standard .nothing .nothing (.writer errors)) with
  | .error e => .error e
  | .ok (h, process) => .ok (h, process, errors)

/-- Makes a file for a conversion; there can always be one. -/
def conversionFile (h : Host) (suffix : String) : Host × Option String :=
  let (h, path) := h.newFile suffix
  (h, some path)

/-- Begins to convert a model. -/
def beginConversion (h : Host) (solver : Solver) (model : String) (data : Option String) :
    Except ConversionError (Host × ProcessId × Conversion × Tap) :=
  match Conversion.prepare conversionFile solver model data h with
  | (_, .error e) => .error e
  | (h, .ok (c, command)) =>
    match beginConverting h command with
    | .error _ => .error .system
    | .ok (h, process, errors) => .ok (h, process, c, Tap.start errors)

/-- The next thing to do for a launch, if there is one. -/
def advanceLaunch? (s : Stage) (task : LaunchTask) : Option (Stage × LaunchTask) :=
  let request := task.request
  match task.stage with
  | .requested => some <|
    match s.cache.find? request.solver.name with
    | some c => s.launchSolver request c
    | none =>
      match beginConversion s.host request.solver s.model s.data with
      | .error e => s.failConversion request e
      | .ok (host, process, c, errors) =>
        ({ s with host }, ⟨request, .converting process c errors⟩)
  | .converting process c errors =>
    (s.host.ended? process).map fun status =>
      let s := s.noteLines (conversionLabel request) errors.rest
      match c.ofStatus status with
      | .error e => s.failConversion request e
      | .ok c => { s with cache := s.cache.insert request.solver.name c }.launchSolver request c
  | .streaming process streams _ =>
    if !streams.isFinished then none
    else
      (s.host.ended? process).map fun status =>
        let filterRest := (streams.filtering.map fun f => f.2.rest).getD []
        let s := s.noteLines (solverLabel request) (streams.errors.rest ++ filterRest)
        (s.send (.exited request.worker request.generation status.isSuccess status.code?),
          ⟨request, .finished⟩)
  | .finished => none

/-- Reads for the first of the launches for which there is something to be read. -/
def drainFirst? (s : Stage) (before : List LaunchTask) : List LaunchTask → Option Stage
  | [] => none
  | task :: rest =>
    if s.canDrain task then
      let (s, task) := s.drain task
      some { s with tasks := before ++ task :: rest }
    else s.drainFirst? (before ++ [task]) rest

/-- Goes on with the first of the launches that can go on. -/
def advanceFirst? (s : Stage) (before : List LaunchTask) : List LaunchTask → Option Stage
  | [] => none
  | task :: rest =>
    match s.advanceLaunch? task with
    | some (s, task) => some { s with tasks := before ++ task :: rest }
    | none => s.advanceFirst? (before ++ [task]) rest

end Stage

namespace Host

/-- Lets processes go on until a given one has ended, or it counts as one that runs for ever. -/
def await (h : Host) (process : ProcessId) : Host :=
  runUntil (fun h => (h.ended? process).isSome) patience h

/-- A host as a machine for conversions. A call that is cancelled from the start ends as soon as the
command has begun, which is killed. -/
def conversionMachine (cancelled : Bool) : ConversionMachine Host where
  newFile := Stage.conversionFile
  run h c :=
    match Stage.beginConverting h c with
    | .error _ => (h, .notStarted)
    | .ok (h, process, _) =>
      if cancelled then (h.killProcess process, .cancelled)
      else
        let h := h.await process
        (h, ((h.ended? process).map .ended).getD .running)

variable {h : Host} {solver : Solver} {model : String} {data : Option String}

/-- An attempt whose command cannot be begun fails. -/
theorem attempt_of_error {e : ConversionError}
    (hbegin : Stage.beginConversion h solver model data = .error e) (cancelled : Bool) :
    ((conversionMachine cancelled).attempt solver model data h).2 = some (.error e) := by
  unfold Stage.beginConversion at hbegin
  split at hbegin
  · next hprepare =>
    cases hbegin
    rw [(conversionMachine cancelled).attempt_of_prepare_error hprepare]
  · next hprepare =>
    rw [(conversionMachine cancelled).attempt_of_prepare_ok hprepare]
    split at hbegin
    · next hrefused =>
      cases hbegin
      simp only [conversionMachine, hrefused, CommandOutcome.answer?]
    · cases hbegin

/-- An attempt whose command begins ends with the command, if that ends, or is cancelled. -/
theorem attempt_of_ok {begun : Host} {process : ProcessId} {c : Conversion} {errors : Tap}
    (hbegin : Stage.beginConversion h solver model data = .ok (begun, process, c, errors))
    (cancelled : Bool) :
    (conversionMachine cancelled).attempt solver model data h =
      if cancelled then (begun.killProcess process, some (.error (.cancelled solver.name)))
      else (begun.await process, ((begun.await process).ended? process).map c.ofStatus) := by
  unfold Stage.beginConversion at hbegin
  split at hbegin
  · cases hbegin
  · next hprepare =>
    rw [(conversionMachine cancelled).attempt_of_prepare_ok hprepare]
    split at hbegin
    · cases hbegin
    · next hbegun =>
      cases hbegin
      simp only [conversionMachine, hbegun]
      cases cancelled with
      | true => rfl
      | false =>
        simp only [Bool.false_eq_true, if_false]
        cases (begun.await process).ended? process with
        | none => rfl
        | some status => rfl

end Host

/-- Converts a model for a solver on a host, unless it was converted before. -/
def convertModel (h : Host) (cache : ConversionCache) (solver : Solver) (model : String)
    (data : Option String) (cancelled : Bool) :
    Host × ConversionCache × Option (Except ConversionError Conversion) :=
  cache.convert (Host.conversionMachine cancelled) solver model data h

end SolverPortfolio
