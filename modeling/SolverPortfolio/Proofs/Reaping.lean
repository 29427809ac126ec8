import SolverPortfolio.Proofs.Frame
import SolverPortfolio.Proofs.Reading
import SolverPortfolio.Proofs.SharedCore
import SolverPortfolio.Supervision.Shutdown

/-
# What becomes of the processes at the end

At its end a run waits for its processes, and kills those that take too long. It knows
of a process by the record of the running ones, which a process enters when it is read
that it was launched, and leaves when it is read that it ended. So none of the recorded
ones is forgotten. But the run stops reading as soon as the record is empty, and of a
process whose launch is still unread then it never learns.

Main definitions: `Situation.Registered`, `Situation.Sent`, `Run.kills`, `Run.shutDown`.
Main statements: `Situation.Registered.exited_or_mem`, `Run.exists_read_reap`,
`Situation.reachable_reaped`.
-/

namespace SolverPortfolio

/-! ## The record of the running processes -/

namespace Message

variable {m : Message} {running : List ((WorkerId × Nat) × ProcessId)} {key : WorkerId × Nat}
  {process : ProcessId}

/-- A message leaves alone what is recorded for other generations. -/
theorem mem_record_of_ne (h : m.key ≠ key) :
    (key, process) ∈ m.record running ↔ (key, process) ∈ running := by
  cases m with
  | launched id generation process injected =>
    simp [record, show key ≠ (id, generation) from Ne.symm h]
  | launchFailed id generation => rfl
  | output id generation event => rfl
  | exited id generation success code =>
    simp [record, show key ≠ (id, generation) from Ne.symm h]

/-- A process is recorded when it is read that it was launched. -/
theorem mem_record_launched (injected : Option Objective) :
    (key, process) ∈ (launched key.1 key.2 process injected).record running := by
  simp [record]

end Message

namespace Situation

variable {α : Type} {P : Discipline} {r : Run α} {o : Opening α} {s : Situation α}
  {progress : WorkerId × Nat → LaunchProgress}
  {running : List ((WorkerId × Nat) × ProcessId)} {m : Message}

/-- A launch task that has reported its process says that it ended, or nothing that changes the
record. -/
theorem Sends.exited_or_record_eq {p : LaunchProgress} (h : Sends P r p m) (hp : p ≠ .pending) :
    (∃ success code, m = .exited m.key.1 m.key.2 success code) ∨
      ∀ running, m.record running = running := by
  cases h with
  | launched h process converted => exact absurd rfl hp
  | launchFailed h => exact absurd rfl hp
  | output id generation h => exact Or.inr fun _ => rfl
  | exited injected said id generation success code => exact Or.inl ⟨success, code, rfl⟩
  | lost injected said id generation => exact Or.inr fun _ => rfl

/-- Only processes that were reported are recorded, and those that were reported are, as long as
more may come from them. -/
structure Registered (progress : WorkerId × Nat → LaunchProgress)
    (running : List ((WorkerId × Nat) × ProcessId)) : Prop where
  reported : ∀ key process, (key, process) ∈ running → progress key ≠ .pending
  kept : ∀ key injected said, progress key = .speaking injected said →
    ∃ process, (key, process) ∈ running

/-- A message keeps the record right. -/
theorem Registered.message (h : Registered progress running) :
    Registered (Function.update progress m.key ((progress m.key).after m)) (m.record running) := by
  constructor
  case reported =>
    intro key process hmem
    by_cases hk : m.key = key
    · rw [← hk, Function.update_self]
      exact LaunchProgress.after_ne_pending m _
    · rw [Function.update_of_ne (Ne.symm hk)]
      exact h.reported key process ((Message.mem_record_of_ne hk).mp hmem)
  case kept =>
    intro key injected said hspeaking
    by_cases hk : m.key = key
    · rw [← hk, Function.update_self] at hspeaking
      rcases LaunchProgress.after_eq_speaking hspeaking with
        ⟨-, -, id, generation, process, rfl⟩ | ⟨said', event, hbefore, -, id, generation, rfl⟩
      · exact ⟨process, hk ▸ Message.mem_record_launched injected⟩
      · exact hk ▸ h.kept _ injected said' hbefore
    · rw [Function.update_of_ne (Ne.symm hk)] at hspeaking
      obtain ⟨process, hmem⟩ := h.kept key injected said hspeaking
      exact ⟨process, (Message.mem_record_of_ne hk).mpr hmem⟩

/-- In all that is reachable the record is right. -/
theorem Reachable.registered [Timed α] (h : Reachable P o s) :
    Registered s.progress s.run.running := by
  induction h with
  | refl =>
    obtain ⟨r, hr, hm⟩ := Run.exists_enrolled o
    have hnone : o.situation.run.running = [] := (Run.Moves.kept hm).running.trans hr.running
    rw [hnone]
    constructor
    · intro key process hmem
      cases hmem
    · intro key injected said hspeaking
      cases hspeaking
  | tail _ hstep ih =>
    obtain ⟨e, now, -, rfl⟩ := hstep
    rw [run_after, Run.running_handle]
    cases e with
    | message m => exact ih.message
    | slotExpired => exact ih
    | tick usage => exact ih
    | signal signal => exact ih

/-! ## What is read at the end -/

/-- Launch tasks that have come so far may send messages one after another. -/
def Sent (P : Discipline) (r : Run α) : (WorkerId × Nat → LaunchProgress) → List Message → Prop
  | _, [] => True
  | progress, m :: rest => Sends P r (progress m.key) m ∧
      Sent P r (Function.update progress m.key ((progress m.key).after m)) rest

theorem Sent.of_append {before rest : List Message} (h : Sent P r progress (before ++ rest)) :
    Sent P r progress before := by
  induction before generalizing progress with
  | nil => trivial
  | cons m before ih => exact ⟨h.1, ih h.2⟩

/-- A process that is recorded, or is read to be launched, is read to have ended or is recorded in
the end. -/
theorem Registered.exited_or_mem {read : List Message} (h : Registered progress running)
    (hsent : Sent P r progress read) {key : WorkerId × Nat} {process : ProcessId}
    (hknown : (key, process) ∈ running ∨
      ∃ injected, .launched key.1 key.2 process injected ∈ read) :
    (∃ success code, .exited key.1 key.2 success code ∈ read) ∨
      (key, process) ∈ read.foldl (fun running m => m.record running) running := by
  induction read generalizing progress running with
  | nil => simpa using hknown
  | cons m read ih =>
    obtain ⟨hm, hrest⟩ := hsent
    -- The first message ends the process, or leaves it known for the messages after it.
    have hfirst : (∃ success code, m = .exited key.1 key.2 success code) ∨
        (key, process) ∈ m.record running ∨
        ∃ injected, .launched key.1 key.2 process injected ∈ read := by
      rcases hknown with hmem | ⟨injected, hmem⟩
      · by_cases hk : m.key = key
        · rcases hm.exited_or_record_eq (hk ▸ h.reported key process hmem) with hexited | hsame
          · exact Or.inl (hk ▸ hexited)
          · exact Or.inr (Or.inl ((hsame running).symm ▸ hmem))
        · exact Or.inr (Or.inl ((Message.mem_record_of_ne hk).mpr hmem))
      · rcases List.mem_cons.mp hmem with rfl | hmem
        · exact Or.inr (Or.inl (Message.mem_record_launched injected))
        · exact Or.inr (Or.inr ⟨injected, hmem⟩)
    rcases hfirst with ⟨success, code, rfl⟩ | hknown
    · exact Or.inl ⟨success, code, List.mem_cons_self⟩
    · rcases ih h.message hrest hknown with ⟨success, code, hmem⟩ | hmem
      · exact Or.inl ⟨success, code, List.mem_cons_of_mem _ hmem⟩
      · exact Or.inr hmem

end Situation

/-! ## The end of a run -/

namespace Run

variable {α : Type} (r : Run α)

/-- The processes that were killed, the latest first. -/
def kills : List ProcessId :=
  r.effects.filterMap fun e => match e with
    | .kill process => some process
    | _ => none

/-- The end of a worker kills no process, and leaves the record of the running ones alone. -/
theorem endWorker_spares (id : WorkerId) (cause : TerminationCause) :
    (r.endWorker id cause).running = r.running ∧ (r.endWorker id cause).kills = r.kills := by
  unfold endWorker
  split
  · exact ⟨rfl, rfl⟩
  · next w hw => cases w.process <;> exact ⟨rfl, rfl⟩

/-- When a run closes, no process is killed yet, and all are still recorded. -/
theorem close_spares : r.close.running = r.running ∧ r.close.kills = r.kills := by
  refine List.foldlRecOn (motive := fun s : Run α => s.running = r.running ∧ s.kills = r.kills) _ _
    ⟨rfl, rfl⟩ fun s hs w _ => ?_
  obtain ⟨hrunning, hkills⟩ := s.endWorker_spares w.id .cancelled
  exact ⟨hrunning.trans hs.1, hkills.trans hs.2⟩

@[simp] theorem running_reapMessage (m : Message) :
    (r.reapMessage m).running = m.record r.running := by
  cases m <;> rfl

@[simp] theorem kills_reapMessage (m : Message) : (r.reapMessage m).kills = r.kills := by
  cases m <;> rfl

/-- Messages are read in their order, and unread ones are left only when no process is recorded. -/
theorem exists_read_reap (messages : List Message) :
    ∃ read, messages = read ++ (r.reap messages).2 ∧
      (r.reap messages).1.running = read.foldl (fun running m => m.record running) r.running ∧
      (r.reap messages).1.kills = r.kills ∧
      ((r.reap messages).2 ≠ [] → (r.reap messages).1.running = []) := by
  induction messages generalizing r with
  | nil => exact ⟨[], rfl, rfl, rfl, fun h => absurd rfl h⟩
  | cons m rest ih =>
    by_cases hnone : r.running.isEmpty
    · rw [reap, if_pos hnone]
      exact ⟨[], rfl, rfl, rfl, fun _ => List.isEmpty_iff.mp hnone⟩
    · rw [reap, if_neg hnone]
      obtain ⟨read, hread, hrunning, hkills, hend⟩ := ih (r.reapMessage m)
      refine ⟨m :: read, ?_, ?_, ?_, hend⟩
      · rw [List.cons_append, ← hread]
      · rw [hrunning, running_reapMessage, List.foldl_cons]
      · rw [hkills, kills_reapMessage]

/-- Without recorded processes nothing is read. -/
theorem reap_of_running_eq_nil (h : r.running = []) (messages : List Message) :
    r.reap messages = (r, messages) := by
  cases messages with
  | nil => rfl
  | cons m rest => rw [reap, h, if_pos List.isEmpty_nil]

/-- A run after all it asked for has been carried out. -/
def forget (r : Run α) : Run α := { r with effects := [] }

/-- The end of the grace period leaves all as it is but for what is asked for. -/
theorem forget_killRest : r.killRest.forget = r.forget :=
  List.foldlRecOn (motive := fun s : Run α => s.forget = r.forget) _ _ rfl fun _ hs _ _ => hs

/-- All processes that are recorded are killed. -/
theorem kills_killRest : r.killRest.kills = (r.running.map (·.2)).reverse ++ r.kills := by
  have hfold : r.killRest.kills = r.running.foldl (fun killed x => x.2 :: killed) r.kills :=
    (List.foldl_hom kills fun s x => rfl).symm
  rw [hfold, List.foldl_flip_cons_eq_append]

@[simp] theorem running_killRest : r.killRest.running = r.running := by
  have h : r.killRest.forget.running = r.forget.running := by rw [forget_killRest]
  exact h

@[simp] theorem kills_finish (outcome : RunOutcome) : (r.finish outcome).kills = r.kills := by
  unfold finish
  dsimp only
  split <;> split <;> rfl

/-- Ends a run. The launch tasks send `early` until the grace period is over, and `late` from then
until the run returns. Gives what the run comes to, and the messages that nobody has read. -/
def shutDown (now : Instant) (early late : List Message) : Run α × List Message :=
  let (reaped, unread) := r.close.reap early
  let (ended, unread) := reaped.killRest.reap (unread ++ late)
  (ended.finish (r.outcome now), unread)

/-- The processes that are still recorded after the grace period are killed, and no others. -/
theorem kills_shutDown (now : Instant) (early late : List Message) :
    (r.shutDown now early late).1.kills
      = ((r.close.reap early).1.running.map (·.2)).reverse ++ r.kills := by
  obtain ⟨_, -, -, hearly, -⟩ := r.close.exists_read_reap early
  obtain ⟨_, -, -, hlate, -⟩ := (r.close.reap early).1.killRest.exists_read_reap
    ((r.close.reap early).2 ++ late)
  rw [shutDown, kills_finish, hlate, kills_killRest, hearly, r.close_spares.2]

/-- Once no process is recorded in the grace period, nothing is read any more. -/
theorem unread_shutDown {early : List Message} (h : (r.close.reap early).1.running = [])
    (now : Instant) (late : List Message) :
    (r.shutDown now early late).2 = (r.close.reap early).2 ++ late := by
  have hkilled : (r.close.reap early).1.killRest.running = [] := by rw [running_killRest, h]
  show ((r.close.reap early).1.killRest.reap ((r.close.reap early).2 ++ late)).2 = _
  rw [reap_of_running_eq_nil _ hkilled]

end Run

namespace Situation

variable {α : Type} [Timed α] {P : Discipline} {o : Opening α} {s : Situation α}

/-- At its end a run knows of every process that was reported to it and of which more may come.
Each of those, and each that it reads of before the record of running processes is empty, is read
to have ended or is killed. Messages stay unread only if no process is recorded any more, and then
none is killed and no further message is read. -/
theorem reachable_reaped (h : Reachable P o s) {early : List Message}
    (hsent : Sent P s.run s.progress early) (now : Instant) (late : List Message) :
    (∀ key injected said, s.progress key = .speaking injected said →
      ∃ process, (key, process) ∈ s.run.running) ∧
    ∃ read unread, early = read ++ unread ∧
      (∀ key process, (key, process) ∈ s.run.running ∨
        (∃ injected, .launched key.1 key.2 process injected ∈ read) →
        (∃ success code, .exited key.1 key.2 success code ∈ read) ∨
          process ∈ (s.run.shutDown now early late).1.kills) ∧
      (unread ≠ [] → (s.run.shutDown now early late).1.kills = s.run.kills ∧
        (s.run.shutDown now early late).2 = unread ++ late) := by
  have hregistered := Reachable.registered h
  refine ⟨hregistered.kept, ?_⟩
  obtain ⟨read, hread, hrunning, -, hend⟩ := s.run.close.exists_read_reap early
  rw [s.run.close_spares.1] at hrunning
  refine ⟨read, _, hread, fun key process hknown => ?_, fun hunread => ?_⟩
  · have hsent' : Sent P s.run s.progress read := Sent.of_append (hread ▸ hsent)
    rcases hregistered.exited_or_mem hsent' hknown with hexited | hmem
    · exact Or.inl hexited
    · rw [← hrunning] at hmem
      right
      rw [Run.kills_shutDown, List.mem_append, List.mem_reverse]
      exact Or.inl (List.mem_map_of_mem hmem)
  · have hnone := hend hunread
    refine ⟨?_, s.run.unread_shutDown hnone now late⟩
    rw [Run.kills_shutDown, hnone]
    rfl

/-! ## The end of a run of two solvers -/

/-- The first of two solvers is launched, and its slot runs out. -/
def reapedEvents : List RunEvent := [.message (.launched 0 0 10 none), .slotExpired]

/-- The second solver is launched as well when the run ends, and only the first one ends. -/
def reapedMessages : List Message := [.launched 1 0 11 none, .exited 0 0 true none]

theorem reachable_reapedEvents :
    Reachable (Parsed "_objective") .duo (Opening.duo.situation.takes 0 reapedEvents) :=
  steps_takes ⟨Sends.launched_of_any 0 0 10 none (.error "") rfl, trivial, trivial⟩

/-- The launch tasks may send this. -/
theorem sent_reapedMessages :
    Sent (Parsed "_objective") (Opening.duo.situation.takes 0 reapedEvents).run
      (Opening.duo.situation.takes 0 reapedEvents).progress reapedMessages :=
  ⟨Sends.launched_of_any 1 0 11 none (.error "") rfl, Sends.exited none [] 0 0 true none, trivial⟩

/-- The process of the second solver is killed, as that of the first one has ended. -/
theorem duo_reaped :
    ∃ s, Reachable (Parsed "_objective") .duo s ∧ s.run.running = [((0, 0), 10)] ∧
      (s.run.shutDown 0 reapedMessages []).1.kills = [11] ∧
      ∃ read unread, reapedMessages = read ++ unread ∧
        ∀ key process, (key, process) ∈ s.run.running ∨
          (∃ injected, .launched key.1 key.2 process injected ∈ read) →
          (∃ success code, .exited key.1 key.2 success code ∈ read) ∨
            process ∈ (s.run.shutDown 0 reapedMessages []).1.kills := by
  obtain ⟨-, read, unread, hread, hended, -⟩ :=
    reachable_reaped reachable_reapedEvents sent_reapedMessages 0 []
  exact ⟨_, reachable_reapedEvents, rfl, rfl, read, unread, hread, hended⟩

/-- The slots of both solvers run out before they are launched. -/
theorem reachable_expired :
    Reachable (Parsed "_objective") .duo
      (Opening.duo.situation.takes 0 [.slotExpired, .slotExpired]) :=
  steps_takes ⟨trivial, trivial, trivial⟩

/-- The run of the two solvers is over when the launch of the first one is still unread. Whatever
comes later, its process is neither killed nor waited for. -/
theorem exists_process_outlives :
    ∃ s, Reachable (Parsed "_objective") .duo s ∧ s.run.isExhausted ∧
      Sent (Parsed "_objective") s.run s.progress [.launched 0 0 10 none] ∧
      ∀ now late, (s.run.shutDown now [.launched 0 0 10 none] late).2
          = .launched 0 0 10 none :: late ∧
        (s.run.shutDown now [.launched 0 0 10 none] late).1.kills = [] := by
  refine ⟨_, reachable_expired, by decide +kernel,
    ⟨Sends.launched_of_any 0 0 10 none (.error "") rfl, trivial⟩, fun now late => ⟨rfl, ?_⟩⟩
  rw [Run.kills_shutDown]
  rfl

end Situation

end SolverPortfolio
