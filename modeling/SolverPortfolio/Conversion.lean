import SolverPortfolio.Command
import SolverPortfolio.CommandTemplate

/-
# Conversions

Before a solver can run, a command of its own converts the model, and its data,
into two files: the converted model and a description of the output. A
conversion that was made is kept for later. What the machine makes of the
command is left open.

Main definitions: `Conversion`, `ConversionError`, `ConversionCache`,
`Conversion.command`, `CommandOutcome`, `ConversionMachine`,
`ConversionMachine.attempt`, `ConversionCache.convert`.
-/

namespace SolverPortfolio

/-- The files that a conversion writes, by their paths. -/
structure Conversion where
  fzn : String
  ozn : String
  deriving Repr, DecidableEq

/-- Why there is no conversion. -/
inductive ConversionError where
  | cancelled (solver : String)
  | commandFailed (status : ExitStatus)
  | emptyCommand (solver : String)
  /-- One of the two files cannot be made. -/
  | noFile
  /-- The machine does not begin the command, or does not say how it ended. -/
  | system
  deriving Repr, DecidableEq

namespace ConversionError

/-- The text shown when there is no conversion. -/
def message : ConversionError → String
  | cancelled solver => s!"conversion was cancelled for solver '{solver}'"
  | commandFailed status => s!"command failed: {status.text}"
  | emptyCommand solver => s!"solver '{solver}' has an empty conversion command"
  | noFile => "IO error during temporary file use"
  | system => "IO error"

/-- Was the conversion cancelled? -/
def isCancelled : ConversionError → Bool
  | cancelled _ => true
  | _ => false

end ConversionError

/-- The conversions made so far, by the names of solvers. -/
structure ConversionCache where
  entries : List (String × Conversion)

namespace ConversionCache

/-- No conversions. -/
def empty : ConversionCache := ⟨[]⟩

/-- The conversion for a solver. -/
def find? (cache : ConversionCache) (solver : String) : Option Conversion :=
  cache.entries.lookup solver

/-- Adds the conversion for a solver. -/
def insert (cache : ConversionCache) (solver : String) (c : Conversion) : ConversionCache :=
  ⟨(solver, c) :: cache.entries⟩

/-- There is nothing in an empty cache. -/
@[simp] theorem find?_empty (solver : String) : empty.find? solver = none := rfl

/-- What was inserted is found. -/
@[simp] theorem find?_insert_self (cache : ConversionCache) (solver : String) (c : Conversion) :
    (cache.insert solver c).find? solver = some c := by
  simp [find?, insert]

/-- The conversion for one solver has no influence on those for others. -/
theorem find?_insert_of_ne (cache : ConversionCache) {solver other : String} (c : Conversion)
    (h : other ≠ solver) : (cache.insert solver c).find? other = cache.find? other := by
  simp [find?, insert, List.lookup_cons, beq_false_of_ne h]

end ConversionCache

namespace Conversion

/-- The values of the placeholders for a conversion. -/
def values (c : Conversion) (model : String) (data : Option String) : TemplateValues
  | .model => some model.toList
  | .data => data.map String.toList
  | .fzn => some c.fzn.toList
  | .ozn => some c.ozn.toList
  | _ => none

/-- The command that a solver converts a model with: a program and its arguments. -/
def command (c : Conversion) (solver : Solver) (model : String) (data : Option String) :
    List String :=
  CommandTemplate.expand solver.convert (c.values model data)

/-- What the end of a conversion command means. -/
def ofStatus (c : Conversion) (status : ExitStatus) : Except ConversionError Conversion :=
  if status.isSuccess then .ok c else .error (.commandFailed status)

/-- The files of a new conversion for a solver, and its command, on a machine that makes files as
given: each by the end of its name, if it can be made. -/
def prepare {σ : Type} (newFile : σ → String → σ × Option String) (solver : Solver)
    (model : String) (data : Option String) (state : σ) :
    σ × Except ConversionError (Conversion × Command) :=
  match newFile state "fzn" with
  | (state, none) => (state, .error .noFile)
  | (state, some fzn) =>
    match newFile state "ozn" with
    | (state, none) => (state, .error .noFile)
    | (state, some ozn) =>
      let c : Conversion := ⟨fzn, ozn⟩
      match Command.ofList? (c.command solver model data) with
      | none => (state, .error (.emptyCommand solver.name))
      | some command => (state, .ok (c, command))

end Conversion

/-! ## Attempts -/

/-- What comes of the command of a conversion. -/
inductive CommandOutcome where
  | notStarted
  /-- The call for the conversion was cancelled while the command was running. -/
  | cancelled
  /-- The machine does not say how the command ended. -/
  | lost
  | ended (status : ExitStatus)
  /-- The command is running for ever. -/
  | running
  deriving Repr, DecidableEq

/-- What the outcome of a command means for a conversion into given files; nothing as long as the
command is running. -/
def CommandOutcome.answer? (solver : String) (c : Conversion) :
    CommandOutcome → Option (Except ConversionError Conversion)
  | notStarted => some (.error .system)
  | cancelled => some (.error (.cancelled solver))
  | lost => some (.error .system)
  | ended status => some (c.ofStatus status)
  | running => none

/-- What a machine does for conversions. Its states may be of any kind. -/
structure ConversionMachine (σ : Type) where
  /-- Makes an empty file, given the end of its name, and gives back its path; nothing if there
  cannot be such a file. -/
  newFile (state : σ) (suffix : String) : σ × Option String
  /-- Runs a command until it has ended, or the call for the conversion is cancelled. -/
  run (state : σ) (c : Command) : σ × CommandOutcome

/-- Makes an attempt to convert a model for a solver, and gives back what comes of it; nothing if the
command is running for ever. -/
def ConversionMachine.attempt {σ : Type} (m : ConversionMachine σ) (solver : Solver)
    (model : String) (data : Option String) (state : σ) :
    σ × Option (Except ConversionError Conversion) :=
  match Conversion.prepare m.newFile solver model data state with
  | (state, .error e) => (state, some (.error e))
  | (state, .ok (c, command)) =>
    let (state, outcome) := m.run state command
    (state, outcome.answer? solver.name c)

namespace ConversionMachine

variable {σ : Type} (m : ConversionMachine σ) {solver : Solver} {model : String}
  {data : Option String} {state prepared : σ}

/-- Without files or a command, the attempt fails. -/
theorem attempt_of_prepare_error {e : ConversionError}
    (h : Conversion.prepare m.newFile solver model data state = (prepared, .error e)) :
    m.attempt solver model data state = (prepared, some (.error e)) := by
  rw [attempt, h]

/-- Otherwise it comes to what comes of the command. -/
theorem attempt_of_prepare_ok {c : Conversion} {command : Command}
    (h : Conversion.prepare m.newFile solver model data state = (prepared, .ok (c, command))) :
    m.attempt solver model data state =
      ((m.run prepared command).1, (m.run prepared command).2.answer? solver.name c) := by
  rw [attempt, h]

end ConversionMachine

namespace ConversionCache

/-- Keeps what came of an attempt to convert the model for a solver, if it is a conversion. -/
def keep (cache : ConversionCache) (solver : String) :
    Option (Except ConversionError Conversion) → ConversionCache
  | some (.ok c) => cache.insert solver c
  | _ => cache

/-- Converts a model for a solver, unless it was converted before. -/
def convert {σ : Type} (cache : ConversionCache) (m : ConversionMachine σ) (solver : Solver)
    (model : String) (data : Option String) (state : σ) :
    σ × ConversionCache × Option (Except ConversionError Conversion) :=
  match cache.find? solver.name with
  | some c => (state, cache, some (.ok c))
  | none =>
    let (state, answer) := m.attempt solver model data state
    (state, cache.keep solver.name answer, answer)

variable {σ : Type} {cache : ConversionCache} {solver : Solver} (m : ConversionMachine σ)
  (model : String) (data : Option String) (state : σ)

/-- A conversion in the cache is the answer, and nothing else happens. -/
theorem convert_of_eq_some {c : Conversion} (h : cache.find? solver.name = some c) :
    cache.convert m solver model data state = (state, cache, some (.ok c)) := by
  rw [convert, h]

/-- Without one, an attempt is made, and what comes of it is kept. -/
theorem convert_of_eq_none (h : cache.find? solver.name = none) :
    cache.convert m solver model data state = ((m.attempt solver model data state).1,
      cache.keep solver.name (m.attempt solver model data state).2,
      (m.attempt solver model data state).2) := by
  rw [convert, h]

end ConversionCache

end SolverPortfolio
