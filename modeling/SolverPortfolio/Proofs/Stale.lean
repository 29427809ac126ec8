import SolverPortfolio.Proofs.Frame
import SolverPortfolio.Proofs.SharedCore

/-
# Stale messages

A process that was given up goes on talking for a while: after its worker ended, or was
restarted in a later generation, there may still come that it was launched, what it
prints, and that it ended. Such messages only change which processes are recorded as
running. As no event is answered otherwise on account of this record, it makes no
difference for the rest of the run whether and when they come.

Main definitions: `Message.Stale`, `Run.deeds`, `Situation.Alike`, `Situation.UpToStale`.
Main statements: `Message.Stale.receive_eq`, `Situation.Alike.plays`,
`Situation.stale_without_influence`.
-/

namespace SolverPortfolio

variable {α : Type}

/-! ## A single message -/

/-- A message is about another generation than the current one of its worker, or about a worker that
has ended. -/
def Message.Stale (m : Message) (r : Run α) : Prop :=
  ∃ w, r.worker? m.key.1 = some w ∧ (w.generation ≠ m.key.2 ∨ w.phase = .terminated)

/-- What is asked for when a message is refused: a process that nobody waits for is given up. -/
def Message.refusal : Message → List Effect
  | .launched _ _ process _ => [.release process]
  | _ => []

/-- A stale message changes the record of the running processes; a process that it reports is given
up, and nothing else is done. -/
theorem Message.Stale.receive_eq [Timed α] {m : Message} {r : Run α} (h : m.Stale r)
    (now : Instant) :
    r.receive m now
      = { r with running := m.record r.running, effects := m.refusal ++ r.effects } := by
  obtain ⟨w, hw, hstale⟩ := h
  -- A worker in any phase in which a message is waited for is live.
  have hrefused {p : Prop} (generation : Nat) (hkey : generation = m.key.2)
      (hp : p → w.phase ≠ .terminated) : ¬ (w.generation = generation ∧ p) := by
    rintro ⟨hgen, hphase⟩
    exact hstale.elim (fun h => h (hgen.trans hkey)) (hp hphase)
  cases m with
  | launched id generation process injected =>
    have hw' : (r.addRunning (id, generation) process).worker? id = some w := hw
    have hphase : w.phase = .converting ∨ w.phase = .restarting → w.phase ≠ .terminated := by
      rintro (h | h) <;> simp [h]
    simp only [Run.receive, hw', Run.acceptLaunch]
    rw [if_neg (hrefused generation rfl hphase)]
    rfl
  | launchFailed id generation =>
    have hw' : r.worker? id = some w := hw
    simp only [Run.receive, hw']
    rw [if_neg (hrefused generation rfl Worker.isLive_iff.mp)]
    rfl
  | output id generation event =>
    have hw' : r.worker? id = some w := hw
    simp only [Run.receive, hw']
    rw [if_neg (hrefused generation rfl Worker.isLive_iff.mp)]
    rfl
  | exited id generation success code =>
    have hw' : (r.removeRunning (id, generation)).worker? id = some w := hw
    have hphase : w.phase = .solving ∨ w.phase = .suspended → w.phase ≠ .terminated := by
      rintro (h | h) <;> simp [h]
    simp only [Run.receive, hw']
    rw [if_neg (hrefused generation rfl hphase)]
    rfl

/-! ## Runs that differ in what is running -/

/-- Does a run give up a process? -/
def Effect.isRelease : Effect → Bool
  | .release _ => true
  | _ => false

namespace Run

/-- What a run asked for, the latest first, but for the processes it gave up. -/
def deeds (r : Run α) : List Effect := r.effects.filter fun e => !e.isRelease

@[simp] theorem deeds_amid (r : Run α) (running : List ((WorkerId × Nat) × ProcessId))
    (before : List Effect) :
    (r.amid running before).deeds = r.deeds ++ before.filter fun e => !e.isRelease :=
  List.filter_append _ _

variable [Timed α]

/-- What a run does next is up to its core. -/
theorem deeds_handle (r : Run α) (e : RunEvent) (now : Instant) :
    (r.handle e now).deeds = (r.core.handle e now).deeds ++ r.deeds := by
  rw [← congrArg (fun r => Run.deeds (Run.handle r e now)) r.amid_core, handle_amid, deeds_amid]
  rfl

end Run

namespace Situation

/-- Two situations in which all is the same but the processes recorded as running, the processes
given up and how far the launch tasks have come. -/
structure Alike (s s' : Situation α) : Prop where
  core : s'.run.core = s.run.core
  deeds : s'.run.deeds = s.run.deeds
  printed : s'.printed = s.printed

theorem Alike.refl (s : Situation α) : Alike s s := ⟨rfl, rfl, rfl⟩

theorem Alike.symm {s s' : Situation α} (h : Alike s s') : Alike s' s :=
  ⟨h.core.symm, h.deeds.symm, h.printed.symm⟩

theorem Alike.trans {s₁ s₂ s₃ : Situation α} (h₁ : Alike s₁ s₂) (h₂ : Alike s₂ s₃) :
    Alike s₁ s₃ :=
  ⟨h₂.core.trans h₁.core, h₂.deeds.trans h₁.deeds, h₂.printed.trans h₁.printed⟩

variable [Timed α] {s s' : Situation α}

/-- The situation after an event at some time. -/
def next (s : Situation α) (x : Instant × RunEvent) : Situation α :=
  s.after x.2 (s.run.handle x.2 x.1)

/-- The situation after events at their times. -/
def plays (s : Situation α) (events : List (Instant × RunEvent)) : Situation α :=
  events.foldl next s

/-- An event leaves alike what was alike. -/
theorem Alike.next (h : Alike s s') (x : Instant × RunEvent) : Alike (s.next x) (s'.next x) := by
  obtain ⟨now, e⟩ := x
  have hcore : (s'.run.handle e now).core = (s.run.handle e now).core := by
    rw [Run.core_handle, h.core, ← Run.core_handle]
  constructor
  case core => exact hcore
  case deeds =>
    show (s'.run.handle e now).deeds = (s.run.handle e now).deeds
    rw [Run.deeds_handle, h.core, h.deeds, ← Run.deeds_handle]
  case printed =>
    -- Whether the solution is printed is seen in the count, which belongs to the core.
    have hafter : (s'.run.handle e now).core.solutions = (s.run.handle e now).core.solutions :=
      congrArg Run.solutions hcore
    have hbefore : s'.run.core.solutions = s.run.core.solutions := congrArg Run.solutions h.core
    simp only [Run.core] at hafter hbefore
    simp only [Situation.next, after, hafter, hbefore, h.printed]

/-- After a stale message all is as before. -/
theorem alike_next_of_stale {m : Message} (h : m.Stale s.run) (now : Instant) :
    Alike s (s.next (now, .message m)) := by
  have heq : s.run.handle (.message m) now = _ := h.receive_eq now
  constructor
  case core =>
    show (s.run.handle (.message m) now).core = s.run.core
    rw [heq]
    rfl
  case deeds =>
    show (s.run.handle (.message m) now).deeds = s.run.deeds
    rw [heq]
    cases m <;> rfl
  case printed =>
    have hcount : (s.run.handle (.message m) now).solutions = s.run.solutions := by rw [heq]
    simp only [Situation.next, after, hcount, if_true]
    split <;> rfl

/-! ## Sequences of events -/

/-- Two sequences of events, taken up from two situations, differ only in messages that are stale
when they come. -/
inductive UpToStale : Situation α → Situation α → List (Instant × RunEvent) →
    List (Instant × RunEvent) → Prop where
  | nil (s s' : Situation α) : UpToStale s s' [] []
  | cons {s s' : Situation α} {x : Instant × RunEvent} {events events' : List (Instant × RunEvent)}
      (h : UpToStale (s.next x) (s'.next x) events events') :
      UpToStale s s' (x :: events) (x :: events')
  | left {s s' : Situation α} {m : Message} {now : Instant}
      {events events' : List (Instant × RunEvent)} (hm : m.Stale s.run)
      (h : UpToStale (s.next (now, .message m)) s' events events') :
      UpToStale s s' ((now, .message m) :: events) events'
  | right {s s' : Situation α} {m : Message} {now : Instant}
      {events events' : List (Instant × RunEvent)} (hm : m.Stale s'.run)
      (h : UpToStale s (s'.next (now, .message m)) events events') :
      UpToStale s s' events ((now, .message m) :: events')

/-- Sequences of events that differ only in stale messages lead to the same. -/
theorem Alike.plays (h : Alike s s') {events events' : List (Instant × RunEvent)}
    (hevents : UpToStale s s' events events') : Alike (s.plays events) (s'.plays events') := by
  induction hevents with
  | nil s s' => exact h
  | cons _ ih => exact ih (h.next _)
  | left hm _ ih => exact ih ((alike_next_of_stale hm _).symm.trans h)
  | right hm _ ih => exact ih (h.trans (alike_next_of_stale hm _))

/-- A stale message changes nothing but the record of the running processes, save that a process
which it reports is given up. So sequences of events that differ only in stale messages lead to the
same workers, queue, slot, carry, best value, winner and solutions printed, and to the same requests
but for the processes given up. -/
theorem stale_without_influence (s : Situation α) :
    (∀ m now, m.Stale s.run → s.run.receive m now =
      { s.run with running := m.record s.run.running
                   effects := m.refusal ++ s.run.effects }) ∧
    ∀ events events', UpToStale s s events events' →
      (s.plays events').run = { (s.plays events).run with
        running := (s.plays events').run.running
        effects := (s.plays events').run.effects } ∧
      (s.plays events').run.deeds = (s.plays events).run.deeds ∧
      (s.plays events').printed = (s.plays events).printed := by
  refine ⟨fun m now h => h.receive_eq now, fun events events' h => ?_⟩
  have halike := (Alike.refl s).plays h
  refine ⟨?_, halike.deeds, halike.printed⟩
  rw [← Run.amid_core (s.plays events').run, halike.core]
  rfl

/-! ## A process that talks on after its worker ended -/

/-- The slot of the first of two solvers runs out before it has found anything, so that the second
one is launched. -/
def goneEvents : List (Instant × RunEvent) :=
  [(0, .message (.launched 0 0 10 none)), (0, .slotExpired),
    (0, .message (.launched 1 0 11 none))]

/-- The first solver still announces a value when its slot has run out. -/
def goneBound : Message := .output 0 0 (.bound 3)

/-- The same, where the first solver announces a value and ends after its slot. -/
def talkingEvents : List (Instant × RunEvent) :=
  [(0, .message (.launched 0 0 10 none)), (0, .slotExpired), (0, .message goneBound),
    (0, .message (.launched 1 0 11 none)), (0, .message (.exited 0 0 false none))]

/-- What the first solver announces after its slot is stale. -/
theorem goneBound_stale : goneBound.Stale (Opening.duo.situation.plays (goneEvents.take 2)).run :=
  ⟨_, rfl, Or.inr rfl⟩

/-- The two sequences of events differ only in what the first solver says after its slot. -/
theorem upToStale_gone :
    UpToStale Opening.duo.situation Opening.duo.situation goneEvents talkingEvents :=
  .cons (.cons (.right goneBound_stale (.cons (.right ⟨_, rfl, Or.inr rfl⟩ (.nil _ _)))))

/-- What the first solver says after its slot does not count, though its process is not recorded as
running any more once it has ended. -/
theorem duo_stale_without_influence :
    (Opening.duo.situation.plays (goneEvents.take 2)).run.receive goneBound 0
      = (Opening.duo.situation.plays (goneEvents.take 2)).run ∧
    (Opening.duo.situation.plays goneEvents).run.running = [((0, 0), 10), ((1, 0), 11)] ∧
    (Opening.duo.situation.plays talkingEvents).run.running = [((1, 0), 11)] ∧
    (Opening.duo.situation.plays talkingEvents).run.workers
      = (Opening.duo.situation.plays goneEvents).run.workers ∧
    (Opening.duo.situation.plays talkingEvents).run.incumbent.best = none := by
  obtain ⟨-, hgone⟩ := stale_without_influence Opening.duo.situation
  obtain ⟨hsame, -, -⟩ := hgone goneEvents talkingEvents upToStale_gone
  refine ⟨?_, rfl, rfl, by rw [hsame], rfl⟩
  exact (stale_without_influence _).1 goneBound 0 goneBound_stale

end Situation

end SolverPortfolio
