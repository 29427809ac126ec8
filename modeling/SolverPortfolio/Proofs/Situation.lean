import SolverPortfolio.Proofs.Response
import Mathlib.Logic.Function.Basic

/-
# Runs and their launch tasks

A run hears of its processes only through the messages of launch tasks. For each
launch that the run asked for, the task sends either that the launch failed, or
that the process is there, then what the process prints, and at last that it
ended. A situation is a run together with how far each task has come, and with the
solutions printed so far. Messages of different tasks, ends of slots, ticks and
signals come in any order and at any time.

Main definitions: `LaunchProgress`, `Discipline`, `Situation`, `Opening`,
`Situation.Step`, `Situation.Steps`, `Situation.Reachable`, `Situation.Change`.
-/

namespace SolverPortfolio

/-- The bound put into a model is that of the request, or there is none. -/
theorem LaunchRequest.injected_splice (request : LaunchRequest)
    (converted : Except String (List Char)) :
    (request.splice converted).injected = none ∨
      (request.splice converted).injected = request.bound := by
  unfold splice
  split
  · exact Or.inl rfl
  · next bound hbound =>
    have hb : request.bound = some bound := by
      split at hbound
      · exact hbound
      · cases hbound
    dsimp only
    split
    · exact Or.inr hb.symm
    · exact Or.inl rfl

/-- How far a launch task has come with its messages. -/
inductive LaunchProgress where
  | pending
  /-- The process was reported with the bound it was launched with, and has said something. -/
  | speaking (injected : Option Objective) (said : List StreamEvent)
  | over

/-- How far a launch task has come after a message. -/
def LaunchProgress.after (m : Message) : LaunchProgress → LaunchProgress
  | .pending =>
    match m with
    | .launched _ _ _ injected => .speaking injected []
    | _ => .over
  | .speaking injected said =>
    match m with
    | .output _ _ event => .speaking injected (said ++ [event])
    | _ => .over
  | .over => .over

/-- A launch task comes to speak when it reports a process, and by what this prints. -/
theorem LaunchProgress.after_eq_speaking {m : Message} {progress : LaunchProgress}
    {injected : Option Objective} {said : List StreamEvent}
    (h : progress.after m = .speaking injected said) :
    progress = .pending ∧ said = [] ∧
      (∃ id generation process, m = .launched id generation process injected) ∨
    ∃ said' event, progress = .speaking injected said' ∧ said = said' ++ [event] ∧
      ∃ id generation, m = .output id generation event := by
  unfold after at h
  split at h
  · split at h
    · cases h
      exact Or.inl ⟨rfl, rfl, _, _, _, rfl⟩
    · cases h
  · split at h
    · cases h
      exact Or.inr ⟨_, _, rfl, rfl, _, _, rfl⟩
    · cases h
  · cases h

/-- A launch task that has sent a message does not start over. -/
theorem LaunchProgress.after_ne_pending (m : Message) (progress : LaunchProgress) :
    progress.after m ≠ .pending := by
  unfold after
  split
  · split <;> simp
  · split <;> simp
  · simp

/-- What processes may say: `P injected said` holds if a process launched with the bound `injected`
may have said `said` so far, the first event first. -/
abbrev Discipline := Option Objective → List StreamEvent → Prop

/-- A run, how far the task of each generation of each worker has come, and the solutions printed,
the latest first. -/
structure Situation (α : Type) where
  run : Run α
  progress : WorkerId × Nat → LaunchProgress
  printed : List Solution

/-- What a run begins with. -/
structure Opening (α : Type) where
  settings : RunSettings
  goal : Goal
  tracked : String
  table : SolverTable
  memory : MemoryLimit
  schedule : ParallelSchedule α
  /-- When the run is set up; its timeout counts from then. -/
  setUp : Instant
  /-- When the schedule is begun. -/
  begun : Instant

namespace Opening

variable {α : Type}

/-- The run before any worker is added. -/
def idle (o : Opening α) : Run α :=
  Run.idle o.settings o.goal o.tracked o.table o.memory o.setUp

/-- The situation in which a run has begun and nothing else has happened. -/
def situation [Timed α] (o : Opening α) : Situation α :=
  { run := o.idle.start o.schedule o.begun
    progress := fun _ => .pending
    printed := [] }

end Opening

namespace Situation

variable {α : Type}

/-! ## Messages -/

/-- A launch task that has come so far may send a message next. The bound that a process is
launched with is the one put into the converted model, whatever the conversion gave. -/
inductive Sends (P : Discipline) (r : Run α) : LaunchProgress → Message → Prop where
  | launched {request : LaunchRequest} (h : .launch request ∈ r.effects) (process : ProcessId)
      (converted : Except String (List Char)) :
      Sends P r .pending
        (.launched request.worker request.generation process (request.splice converted).injected)
  | launchFailed {request : LaunchRequest} (h : .launch request ∈ r.effects) :
      Sends P r .pending (.launchFailed request.worker request.generation)
  | output {injected : Option Objective} {said : List StreamEvent} {event : StreamEvent}
      (id : WorkerId) (generation : Nat) (h : P injected (said ++ [event])) :
      Sends P r (.speaking injected said) (.output id generation event)
  | exited (injected : Option Objective) (said : List StreamEvent) (id : WorkerId)
      (generation : Nat) (success : Bool) (code : Option Int) :
      Sends P r (.speaking injected said) (.exited id generation success code)
  /-- The end of a process cannot be waited for. -/
  | lost (injected : Option Objective) (said : List StreamEvent) (id : WorkerId)
      (generation : Nat) :
      Sends P r (.speaking injected said) (.launchFailed id generation)

variable {P : Discipline} {r : Run α} {progress : LaunchProgress}

/-- A process may be reported if a launch that was asked for puts in its bound. -/
theorem Sends.launched_of_any (id : WorkerId) (generation : Nat) (process : ProcessId)
    (injected : Option Objective) (converted : Except String (List Char))
    (h : r.effects.any fun e => match e with
      | .launch request => request.worker = id ∧ request.generation = generation ∧
          (request.splice converted).injected = injected
      | _ => false) :
    Sends P r .pending (.launched id generation process injected) := by
  obtain ⟨e, he, h⟩ := List.any_eq_true.mp h
  split at h
  · obtain ⟨rfl, rfl, rfl⟩ := of_decide_eq_true h
    exact .launched he process converted
  · cases h

/-- A process is reported by a task that has sent nothing yet, for a launch that was asked for. -/
theorem Sends.of_launched {id : WorkerId} {generation : Nat} {process : ProcessId}
    {injected : Option Objective}
    (h : Sends P r progress (.launched id generation process injected)) :
    progress = .pending ∧ ∃ request converted, .launch request ∈ r.effects ∧
      request.worker = id ∧ request.generation = generation ∧
        injected = (request.splice converted).injected := by
  cases h with
  | launched h process converted => exact ⟨rfl, _, converted, h, rfl, rfl, rfl⟩

/-- A process that is reported was launched with the bound of a request, or without one. -/
theorem Sends.exists_request {id : WorkerId} {generation : Nat} {process : ProcessId}
    {injected : Option Objective}
    (h : Sends P r progress (.launched id generation process injected)) :
    ∃ request, .launch request ∈ r.effects ∧ request.worker = id ∧
      request.generation = generation ∧ (injected = none ∨ injected = request.bound) := by
  obtain ⟨-, request, converted, hq, hid, hgen, rfl⟩ := h.of_launched
  exact ⟨request, hq, hid, hgen, request.injected_splice converted⟩

/-- What a process prints keeps to the discipline. -/
theorem Sends.of_output {id : WorkerId} {generation : Nat} {event : StreamEvent}
    (h : Sends P r progress (.output id generation event)) :
    ∃ injected said, progress = .speaking injected said ∧ P injected (said ++ [event]) := by
  cases h with
  | output id generation h => exact ⟨_, _, rfl, h⟩

/-! ## Steps -/

/-- An event may come: a message may if its launch task may send it, and any other event may come
at any time. -/
def Hears (P : Discipline) (s : Situation α) : RunEvent → Prop
  | .message m => Sends P s.run (s.progress m.key) m
  | _ => True

/-- The situation after an event has turned the run into `r'`. A solution is printed if the run
counts it. -/
def after (s : Situation α) (e : RunEvent) (r' : Run α) : Situation α where
  run := r'
  progress := match e with
    | .message m => Function.update s.progress m.key ((s.progress m.key).after m)
    | _ => s.progress
  printed := match e with
    | .message (.output _ _ (.solution x)) =>
      if r'.solutions = s.run.solutions then s.printed else x :: s.printed
    | _ => s.printed

@[simp] theorem run_after (s : Situation α) (e : RunEvent) (r' : Run α) :
    (s.after e r').run = r' := rfl

/-- A run takes up an event. -/
def Step [Timed α] (P : Discipline) (s : Situation α) (e : RunEvent) (s' : Situation α) : Prop :=
  ∃ now, s.Hears P e ∧ s' = s.after e (s.run.handle e now)

/-- A run takes up events one after another. -/
abbrev Steps [Timed α] (P : Discipline) : Situation α → Situation α → Prop :=
  Relation.ReflTransGen fun s s' => ∃ e, Step P s e s'

/-- The situations that a run may come to from its opening. -/
abbrev Reachable [Timed α] (P : Discipline) (o : Opening α) (s : Situation α) : Prop :=
  Steps P o.situation s

/-- The situation after several events at one time. -/
def takes [Timed α] (s : Situation α) (now : Instant) : List RunEvent → Situation α
  | [] => s
  | e :: events => (s.after e (s.run.handle e now)).takes now events

/-- Several events may come one after another. -/
def HearsAll [Timed α] (P : Discipline) (now : Instant) : List RunEvent → Situation α → Prop
  | [], _ => True
  | e :: events, s => s.Hears P e ∧ HearsAll P now events (s.after e (s.run.handle e now))

/-- Events that may come are taken up in steps. -/
theorem steps_takes [Timed α] {now : Instant} {events : List RunEvent} {s : Situation α}
    (h : HearsAll P now events s) : Steps P s (s.takes now events) := by
  induction events generalizing s with
  | nil => exact Relation.ReflTransGen.refl
  | cons e events ih => exact Relation.ReflTransGen.head ⟨e, now, h.1, rfl⟩ (ih h.2)

/-! ## Changes -/

/-- A single change: the response to an event, or what the run or its monitor does next. -/
inductive Change (P : Discipline) (s : Situation α) : Option RunEvent → Situation α → Prop where
  | respond {e : RunEvent} {r' : Run α} (now : Instant) (hs : s.Hears P e)
      (hr : Run.Response now s.run e r') : Change P s (some e) (s.after e r')
  | move {r' : Run α} (now : Instant) (h : Run.Move now s.run r') :
      Change P s none { s with run := r' }
  | intervene {r' : Run α} (now : Instant) (h : Run.Intervention now s.run r') :
      Change P s none { s with run := r' }

/-- Single changes one after another. -/
abbrev Changes (P : Discipline) : Situation α → Situation α → Prop :=
  Relation.ReflTransGen fun s s' => ∃ e, Change P s e s'

end Situation

end SolverPortfolio
