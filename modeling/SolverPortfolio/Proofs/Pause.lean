import SolverPortfolio.Proofs.Reading
import SolverPortfolio.Proofs.SharedCore

/-
# Pauses from outside

While a run is paused, every process that solved when the pause began is stopped,
and so is every process launched since. The queue does not know of the pause: a
suspended worker whose slot comes is let go on as at any other time. Hence at most
one of the processes held goes on during a pause, that of the slot being served, and
only the queue lets it go on.

Main definitions: `Run.Stopped`, `Run.Serves`, `Situation.Fresh`, `Situation.Hosted`,
`Situation.Hushed`.
Main statements: `Situation.Hosted.invariant`, `Situation.Change.stopped`,
`Situation.Hosted.hushed`, `Situation.hosted_paused`.
-/

namespace SolverPortfolio

/-! ## The last signal to a process -/

namespace Effect

/-- The process that an effect stops or lets go on. -/
def signalled? : Effect → Option ProcessId
  | .pause process => some process
  | .wake process => some process
  | _ => none

/-- Of the effects that stop a process or let it go on, the latest stops it. The latest effect comes
first. -/
def Stops (effects : List Effect) (process : ProcessId) : Prop :=
  effects.find? (fun e => e.signalled? = some process) = some (.pause process)

variable {added effects : List Effect} {process : ProcessId}

/-- Effects that signal nobody change nothing. -/
theorem stops_append_of_silent (h : ∀ e ∈ added, e.signalled? = none) :
    Stops (added ++ effects) process ↔ Stops effects process := by
  have hnone : added.find? (fun e => e.signalled? = some process) = none := by
    rw [List.find?_eq_none]
    intro e he
    simp [h e he]
  rw [Stops, Stops, List.find?_append, hnone, Option.none_or]

/-- An effect that signals nobody changes nothing. -/
theorem stops_cons_of_silent {e : Effect} (h : e.signalled? = none) :
    Stops (e :: effects) process ↔ Stops effects process := by
  have hsilent : ∀ x ∈ [e], x.signalled? = none := by simpa using h
  exact stops_append_of_silent hsilent

/-- A process is stopped if it was stopped before or is stopped now, and is not let go on. -/
theorem stops_append (hw : .wake process ∉ added)
    (h : .pause process ∈ added ∨ Stops effects process) : Stops (added ++ effects) process := by
  rw [Stops, List.find?_append]
  cases hf : added.find? (fun e => e.signalled? = some process) with
  | none =>
    rw [Option.none_or]
    refine h.resolve_left fun hmem => ?_
    simpa [signalled?] using List.find?_eq_none.mp hf _ hmem
  | some e =>
    have hmem := List.mem_of_find?_eq_some hf
    have hsignals := List.find?_some hf
    rw [decide_eq_true_eq] at hsignals
    cases e with
    | pause p =>
      cases hsignals
      rfl
    | wake p =>
      cases hsignals
      exact absurd hmem hw
    | _ => cases hsignals

end Effect

/-- Printing a solution signals no process. -/
theorem Solution.signalled?_prints (x : Solution) : ∀ e ∈ x.prints, e.signalled? = none := by
  unfold prints
  dsimp only
  split <;> simp [Effect.signalled?]

namespace Run

variable {α : Type} {now : Instant} {r r' : Run α} {e : RunEvent} {process : ProcessId}

/-- Was a process last told to stop, rather than to go on? -/
def Stopped (r : Run α) (process : ProcessId) : Prop := Effect.Stops r.effects process

/-- Is the slot of a worker being served? -/
def Serves (r : Run α) (id : WorkerId) : Prop := ∃ slot, r.current = some slot ∧ slot.worker = id

/-- The solving processes are those of the workers that solve. -/
theorem mem_solvingProcesses :
    process ∈ r.solvingProcesses ↔
      ∃ id w, r.worker? id = some w ∧ w.phase = .solving ∧ w.process = some process := by
  rw [solvingProcesses, List.mem_filterMap]
  constructor
  · rintro ⟨w, hw, hp⟩
    rw [List.mem_filter, decide_eq_true_eq] at hw
    obtain ⟨id, hid⟩ := List.mem_iff_getElem?.mp hw.1
    exact ⟨id, w, hid, hw.2, hp⟩
  · rintro ⟨id, w, hw, hs, hp⟩
    refine ⟨w, List.mem_filter.mpr ⟨List.mem_iff_getElem?.mpr ⟨id, hw⟩, ?_⟩, hp⟩
    exact decide_eq_true hs

/-- A response lets a stopped process go on only after the signal for it. -/
theorem Response.stopped (h : Response now r e r') (hs : r.Stopped process) :
    r'.Stopped process ∨ e = .signal .resume ∧ process ∈ r.solvingProcesses := by
  have hkeep {added : List Effect} (hw : .wake process ∉ added) :
      Effect.Stops (added ++ r.effects) process := Effect.stops_append hw (Or.inr hs)
  cases h with
  | launched p injected hw hp =>
    refine Or.inl (hkeep ?_)
    split <;> simp
  | suspended n hc hid hw hp he =>
    left
    refine (Effect.stops_cons_of_silent rfl).mpr (hkeep ?_)
    simp
  | paused => exact Or.inl (hkeep (by simp))
  | woken =>
    by_cases hmem : process ∈ r.solvingProcesses
    · exact Or.inr ⟨rfl, hmem⟩
    · exact Or.inl (hkeep (by simpa using hmem))
  | failedLate | outputLate | surplus | exitedLate | idle => exact Or.inl hs
  | refused p injected hw hn => exact Or.inl ((Effect.stops_cons_of_silent rfl).mpr hs)
  | aborted n => exact Or.inl ((Effect.stops_cons_of_silent rfl).mpr hs)
  | failed hw hl => exact Or.inl (hkeep (by simp))
  | bound value notes hw hl => exact Or.inl (hkeep (by simp))
  | recorded x notes hw hl hg hx => exact Or.inl (hkeep (by simp))
  | shown x notes hw hl hg hx =>
    left
    refine (Effect.stops_append_of_silent x.signalled?_prints).mpr (hkeep ?_)
    simp
  | counted x hw hl hg ha =>
    exact Or.inl ((Effect.stops_append_of_silent x.signalled?_prints).mpr hs)
  | satisfied x hw hl hg hn =>
    left
    refine Effect.stops_append (by simp) (Or.inr ?_)
    exact (Effect.stops_append_of_silent x.signalled?_prints).mpr hs
  | proved n hw hl hp hn =>
    left
    refine Effect.stops_append (by simp) (Or.inr ?_)
    exact (Effect.stops_cons_of_silent rfl).mpr ((Effect.stops_cons_of_silent rfl).mpr hs)
  | completed notes hw hl hp =>
    exact Or.inl (Effect.stops_append (by simp) (Or.inr (hkeep (by simp))))
  | exited n hw hp =>
    exact Or.inl (Effect.stops_append (by simp) (Or.inr ((Effect.stops_cons_of_silent rfl).mpr hs)))
  | expired n hc hid hw he =>
    exact Or.inl (Effect.stops_append (by simp) (Or.inr ((Effect.stops_cons_of_silent rfl).mpr hs)))

/-- A worker is suspended at the end of its slot, and its process is stopped. -/
theorem Response.stopped_of_suspended (h : Response now r .slotExpired r') {id : WorkerId}
    {w w' : Worker} (hw : r.worker? id = some w) (hw' : r'.worker? id = some w')
    (hs : w.phase = .solving) (hs' : w'.phase = .suspended) (hp : w.process = some process) :
    r.Serves id ∧ r'.Stopped process := by
  cases h with
  | idle h =>
    cases Option.some.inj (hw.symm.trans hw')
    cases hs.symm.trans hs'
  | suspended n hc hid hv hphase hkeeps =>
    rcases getElem?_modify_cases hw' with ⟨_, hsame⟩ | ⟨rfl, v, hv', rfl⟩
    · cases Option.some.inj (hw.symm.trans hsame)
      cases hs.symm.trans hs'
    · cases Option.some.inj (hw.symm.trans hv)
      refine ⟨⟨_, hc, hid⟩, (Effect.stops_cons_of_silent rfl).mpr (Effect.stops_append ?_ ?_)⟩
      · simp
      · exact Or.inl (by simp [hp])
  | expired n hc hid hv hkeeps =>
    rcases getElem?_modify_cases hw' with ⟨_, hsame⟩ | ⟨rfl, v, hv', rfl⟩
    · cases Option.some.inj (hw.symm.trans hsame)
      cases hs.symm.trans hs'
    · cases hs'

/-- A process that a worker takes up while the run is paused is stopped. -/
theorem Response.stopped_of_launched {w : Worker} {injected : Option Objective}
    (h : Response now r (.message (.launched w.id w.generation process injected)) r')
    (hw : r.worker? w.id = some w) (hphase : w.phase = .converting ∨ w.phase = .restarting)
    (hp : r.paused) : r'.Stopped process := by
  generalize hm : RunEvent.message (.launched w.id w.generation process injected) = e at h
  cases h with
  | @launched v q b hv hv' =>
    injection hm with hm
    injection hm with hid hgen hq hb
    refine Effect.stops_append ?_ (Or.inl ?_)
    · simp [hp]
    · simp [hp, hq]
  | @refused v generation q b hv hn =>
    injection hm with hm
    injection hm with hid hgen
    rw [← hid] at hv
    cases Option.some.inj (hv.symm.trans hw)
    exact absurd ⟨hgen, hphase⟩ hn
  | _ => cases hm

/-- The signal to pause stops the processes that solve. -/
theorem Response.stopped_of_signal (h : Response now r (.signal .suspend) r')
    (hp : process ∈ r.solvingProcesses) : r'.Stopped process := by
  cases h with
  | paused => exact Effect.stops_append (by simp) (Or.inl (by simpa using hp))

/-- A pause goes on until the signal that ends it, and begins with the signal for it. -/
theorem Response.pausing (h : Response now r e r') (hp : r'.paused) :
    e ≠ .signal .resume ∧ (r.paused ∨ e = .signal .suspend) := by
  cases h with
  | paused => exact ⟨by simp, Or.inr rfl⟩
  | woken => cases hp
  | _ => exact ⟨by simp, Or.inl hp⟩

/-- A newcomer signals no process. -/
theorem Newcomer.signalled?_effects {name : String} {placement : Placement} {w : Worker}
    {effects : List Effect} (h : r.Newcomer name placement now w effects) :
    ∀ e ∈ effects, e.signalled? = none := by
  cases h <;> simp [Effect.signalled?]

/-- A move lets a stopped process go on only if it serves the slot of its suspended worker. -/
theorem Move.stopped (h : Move now r r') (hs : r.Stopped process) :
    r'.Stopped process ∨ ∃ w, r.worker? w.id = some w ∧ w.phase = .suspended ∧
      w.process = some process ∧ r'.worker? w.id = some w.resume ∧ r'.Serves w.id := by
  cases h with
  | report n => exact Or.inl ((Effect.stops_cons_of_silent rfl).mpr hs)
  | plan queue carry | tidy | leave h | keep deadline hw hl hsus hc => exact Or.inl hs
  | recruit deadline hn hl hc =>
    exact Or.inl ((Effect.stops_append_of_silent hn.signalled?_effects).mpr hs)
  | @resume w deadline n hw hsus hc =>
    by_cases hp : w.process = some process
    · refine Or.inr ⟨w, hw, hsus, hp, ?_, ⟨_, rfl, rfl⟩⟩
      rw [worker?, List.getElem?_modify_eq, show r.workers[w.id]? = some w from hw]
      rfl
    · left
      refine (Effect.stops_cons_of_silent rfl).mpr (Effect.stops_append ?_ (Or.inr hs))
      simpa using hp

/-- An intervention leaves stopped processes stopped. -/
theorem Intervention.stopped (h : Intervention now r r') (hs : r.Stopped process) :
    r'.Stopped process := by
  cases h with
  | finish cause hw => exact Effect.stops_append (by simp) (Or.inr hs)
  | restart n hw hstag =>
    refine Effect.stops_append (by simp) (Or.inr ?_)
    exact (Effect.stops_cons_of_silent rfl).mpr (Effect.stops_append (by simp) (Or.inr hs))

/-- A move neither begins nor ends a pause. -/
theorem Move.paused_eq (h : Move now r r') : r'.paused = r.paused := by
  cases h <;> rfl

/-- An intervention neither begins nor ends a pause. -/
theorem Intervention.paused_eq (h : Intervention now r r') : r'.paused = r.paused := by
  cases h <;> rfl

/-- The slot of a worker that solves before and after a move goes on being served. -/
theorem Move.serves (h : Move now r r') {id : WorkerId} {w : Worker} (hc : r.Serves id)
    (hw : r.worker? id = some w) (hs : w.phase = .solving) : r'.Serves id := by
  obtain ⟨slot, hslot, rfl⟩ := hc
  cases h with
  | report n | plan queue carry | tidy => exact ⟨slot, hslot, rfl⟩
  | leave h => rcases h slot w hslot hw with h | h <;> cases hs.symm.trans h
  | resume deadline n hv hsus hc | keep deadline hv hl hsus hc | recruit deadline hn hl hc =>
    cases hslot.symm.trans hc

end Run

namespace Situation

variable {α : Type} {P : Discipline} {o : Opening α} {s s' : Situation α}
  {e : Option RunEvent} {process : ProcessId}

/-! ## Single changes -/

/-- A change lets a stopped process go on after the signal for it, or if the slot of the suspended
worker that holds it is served. -/
theorem Change.stopped (hc : Change P s e s') (hs : s.run.Stopped process) :
    s'.run.Stopped process ∨
      (e = some (.signal .resume) ∧ process ∈ s.run.solvingProcesses) ∨
      e = none ∧ ∃ w, s.run.worker? w.id = some w ∧ w.phase = .suspended ∧
        w.process = some process ∧ s'.run.worker? w.id = some w.resume ∧ s'.run.Serves w.id := by
  cases hc with
  | respond now hh hr =>
    rcases hr.stopped hs with hs | ⟨he, hp⟩
    · exact Or.inl hs
    · exact Or.inr (Or.inl ⟨congrArg some he, hp⟩)
  | move now hm =>
    rcases hm.stopped hs with hs | hresumed
    · exact Or.inl hs
    · exact Or.inr (Or.inr ⟨rfl, hresumed⟩)
  | intervene now hi => exact Or.inl (hi.stopped hs)

/-- A pause goes on until the signal that ends it, and begins with the signal for it. -/
theorem Change.pausing (hc : Change P s e s') (hp : s'.run.paused) :
    e ≠ some (.signal .resume) ∧ (s.run.paused ∨ e = some (.signal .suspend)) := by
  cases hc with
  | respond now hh hr => simpa using hr.pausing hp
  | move now hm => exact ⟨by simp, Or.inl (hm.paused_eq ▸ hp)⟩
  | intervene now hi => exact ⟨by simp, Or.inl (hi.paused_eq ▸ hp)⟩

/-- The slot of a worker that solves before and after a change goes on being served. -/
theorem Change.serves (hc : Change P s e s') {id : WorkerId} {w w' : Worker}
    (hserves : s.run.Serves id) (hw : s.run.worker? id = some w) (hs : w.phase = .solving)
    (hw' : s'.run.worker? id = some w') (hs' : w'.phase = .solving) : s'.run.Serves id := by
  cases hc with
  | respond now hh hr =>
    obtain ⟨slot, hslot, rfl⟩ := hserves
    rcases hr.current with hsame | ⟨_, hleft⟩
    · exact ⟨slot, hsame.trans hslot, rfl⟩
    · rcases hleft slot w' hslot hw' with h | h <;> cases hs'.symm.trans h
  | move now hm => exact hm.serves hserves hw hs
  | intervene now hi =>
    obtain ⟨slot, hslot, rfl⟩ := hserves
    exact ⟨slot, hi.current.trans hslot, rfl⟩

/-! ## Hosts -/

/-- A process that is launched has a number that no worker's process has. -/
def Fresh (s : Situation α) : RunEvent → Prop
  | .message (.launched _ _ process _) => ∀ w ∈ s.run.workers, w.process ≠ some process
  | _ => True

/-- What changes preserve is preserved by a round of the monitor. -/
theorem round_preserves {J : Situation α → Prop}
    (hJ : ∀ s s', J s → Change P s none s' → J s') {now : Instant} {r' : Run α}
    (h : Run.Round now s.run r') (hs : J s) : J { s with run := r' } := by
  induction h with
  | refl => exact hs
  | tail _ hm ih =>
    rcases hm with hm | hi
    · exact hJ _ _ ih (.move now hm)
    · exact hJ _ _ ih (.intervene now hi)

/-- What changes preserve is preserved by a step. -/
theorem Step.preserves [Timed α] {J : Situation α → Prop}
    (hJ : ∀ s e s', J s → (∀ x, e = some x → s.Fresh x) → Change P s e s' → J s')
    (hf : s.Founded) {e : RunEvent} (hfresh : s.Fresh e) (h : Step P s e s') (hs : J s) :
    J s' := by
  have hquiet (s s' : Situation α) (hs : J s) (hc : Change P s none s') : J s' :=
    hJ s none s' hs (fun x hx => by cases hx) hc
  rcases h.cases hf with ⟨usage, now, -, hround, heq⟩ | ⟨s₁, now, hc, hm, heq⟩
  · rw [heq]
    exact round_preserves hquiet hround hs
  · rw [heq]
    refine round_preserves hquiet (Run.Moves.round hm) (hJ s (some e) s₁ hs ?_ hc)
    intro x hx
    cases hx
    exact hfresh

/-- The situations that a run may come to on a host that tells the processes apart. -/
abbrev Hosted [Timed α] (P : Discipline) (o : Opening α) (s : Situation α) : Prop :=
  Relation.ReflTransGen (fun s s' => ∃ e, s.Fresh e ∧ Step P s e s') o.situation s

/-- What holds at first and is preserved by every single change holds on such a host. -/
theorem Hosted.invariant [Timed α] {I : Situation α → Prop} (h : Hosted P o s)
    (hopen : ∀ r, Run.Enrolled o o.schedule.dedicated.length r → I ⟨r, fun _ => .pending, []⟩)
    (hchange : ∀ s e s', Arises P o s → I s → (∀ x, e = some x → s.Fresh x) →
      Change P s e s' → I s') : Arises P o s ∧ I s := by
  have hboth (s : Situation α) (e : Option RunEvent) (s' : Situation α)
      (hs : Arises P o s ∧ I s) (hf : ∀ x, e = some x → s.Fresh x) (hc : Change P s e s') :
      Arises P o s' ∧ I s' := ⟨hs.1.change hc, hchange s e s' hs.1 hs.2 hf hc⟩
  induction h with
  | refl =>
    obtain ⟨r, hr, hm⟩ := Run.exists_enrolled o
    have hquiet (s s' : Situation α) (hs : Arises P o s ∧ I s) (hc : Change P s none s') :
        Arises P o s' ∧ I s' := hboth s none s' hs (fun x hx => by cases hx) hc
    have hfirst : Arises P o ⟨r, fun _ => .pending, []⟩ ∧ I ⟨r, fun _ => .pending, []⟩ :=
      ⟨⟨r, hr, Relation.ReflTransGen.refl⟩, hopen r hr⟩
    exact round_preserves hquiet (Run.Moves.round hm) hfirst
  | tail _ hstep ih =>
    obtain ⟨e, hfresh, hstep⟩ := hstep
    exact hstep.preserves hboth ih.1.founded hfresh ih

/-! ## What a pause reaches -/

/-- Processes are told apart, those of suspended workers are stopped, and in a pause all others are
stopped but that of a worker that the queue let go on. -/
structure Hushed (s : Situation α) : Prop where
  distinct : ∀ i j v w process, s.run.worker? i = some v → s.run.worker? j = some w →
    v.process = some process → w.process = some process → i = j
  suspended : ∀ id w process, s.run.worker? id = some w → w.process = some process →
    w.phase = .suspended → 0 < w.suspensions ∧ s.run.Stopped process
  paused : s.run.paused → ∀ id w process, s.run.worker? id = some w → w.process = some process →
    s.run.Stopped process ∨ w.phase = .solving ∧ 0 < w.suspensions ∧ s.run.Serves id

/-- The process of a worker after a change was its process before, or was just launched. -/
theorem Change.process_cases (hc : Change P s e s') (hn : s.run.Numbered) {id : WorkerId}
    {w' : Worker} (hw' : s'.run.worker? id = some w') (hp : w'.process = some process) :
    (∃ w, s.run.worker? id = some w ∧ w.process = some process ∧
      ((w'.phase = w.phase ∧ w'.suspensions = w.suspensions) ∨
        (e = some .slotExpired ∧ w.phase = .solving ∧ w' = w.suspend) ∨
        (e = none ∧ w.phase = .suspended ∧ w' = w.resume))) ∨
    ∃ w injected, s.run.worker? id = some w ∧ w'.phase = .solving ∧
      (w.phase = .converting ∨ w.phase = .restarting) ∧
      e = some (.message (.launched w.id w.generation process injected)) := by
  rcases hc.worker_cases hn hw' with ⟨w, hw, hturn⟩ | ⟨-, -, _, _, _, hnew, -⟩
  · cases hturn with
    | still h => exact Or.inl ⟨_, hw, hp, Or.inl ⟨rfl, rfl⟩⟩
    | launched now q injected hphase =>
      cases hp
      exact Or.inr ⟨w, injected, hw, rfl, hphase, rfl⟩
    | recorded x now hl =>
      obtain ⟨best, h⟩ := w.exists_recordSolution now s.run.goal x.objective
      rw [h] at hp ⊢
      exact Or.inl ⟨w, hw, hp, Or.inl ⟨rfl, rfl⟩⟩
    | satisfied x now hl hg => cases hp
    | ended cause he => cases hp
    | suspended hphase => exact Or.inl ⟨w, hw, hp, Or.inr (Or.inl ⟨rfl, hphase, rfl⟩)⟩
    | resumed hphase => exact Or.inl ⟨w, hw, hp, Or.inr (Or.inr ⟨rfl, hphase, rfl⟩)⟩
    | restarted switchSearch hphase hr => cases hp
  · cases hnew.eq_none.2.2.symm.trans hp

/-- Processes go on being told apart. -/
theorem Hushed.distinct_change (hs : s.Hushed) (hn : s.run.Numbered)
    (hf : ∀ x, e = some x → s.Fresh x) (hc : Change P s e s') {i j : WorkerId} {v' w' : Worker}
    (hv' : s'.run.worker? i = some v') (hw' : s'.run.worker? j = some w')
    (hpv : v'.process = some process) (hpw : w'.process = some process) : i = j := by
  have hfresh {u : Worker} {injected : Option Objective} {k : WorkerId} {w : Worker}
      (he : e = some (.message (.launched u.id u.generation process injected)))
      (hw : s.run.worker? k = some w) : w.process ≠ some process :=
    hf _ he w (List.mem_of_getElem? hw)
  rcases hc.process_cases hn hv' hpv with ⟨v, hv, hpv, -⟩ | ⟨v, injected, hv, -, -, he⟩
  · rcases hc.process_cases hn hw' hpw with ⟨w, hw, hpw, -⟩ | ⟨w, injected, hw, -, -, he⟩
    · exact hs.distinct i j v w process hv hw hpv hpw
    · exact absurd hpv (hfresh he hv)
  · rcases hc.process_cases hn hw' hpw with ⟨w, hw, hpw, -⟩ | ⟨w, injected', hw, -, -, he'⟩
    · exact absurd hpw (hfresh he hw)
    · rw [he] at he'
      injection he' with he'
      injection he' with he'
      injection he' with hid
      rw [← hn i v hv, ← hn j w hw, hid]

/-- A stopped process stays stopped, unless there is the signal for it to go on or the slot of the
suspended worker that holds it is served. -/
theorem Hushed.stopped_change (hs : s.Hushed) (hc : Change P s e s')
    {id : WorkerId} {w : Worker} (hw : s.run.worker? id = some w)
    (hp : w.process = some process) (hstopped : s.run.Stopped process) :
    s'.run.Stopped process ∨ (e = some (.signal .resume) ∧ w.phase = .solving) ∨
      w.phase = .suspended ∧ s'.run.worker? id = some w.resume ∧ s'.run.Serves id := by
  rcases hc.stopped hstopped with h | ⟨he, hsolving⟩ | ⟨-, v, hv, hsus, hpv, hv', hserves⟩
  · exact Or.inl h
  -- No other worker holds the process.
  · obtain ⟨k, v, hv, hphase, hpv⟩ := Run.mem_solvingProcesses.mp hsolving
    obtain rfl := hs.distinct k id v w process hv hw hpv hp
    cases Option.some.inj (hv.symm.trans hw)
    exact Or.inr (Or.inl ⟨he, hphase⟩)
  · obtain rfl := hs.distinct v.id id v w process hv hw hpv hp
    cases Option.some.inj (hv.symm.trans hw)
    exact Or.inr (Or.inr ⟨hsus, hv', hserves⟩)

/-- A worker is suspended at the end of its slot, and its process is stopped. -/
theorem Change.stopped_of_suspended (hc : Change P s (some .slotExpired) s') {id : WorkerId}
    {w w' : Worker} (hw : s.run.worker? id = some w) (hw' : s'.run.worker? id = some w')
    (hs : w.phase = .solving) (hs' : w'.phase = .suspended) (hp : w.process = some process) :
    s.run.Serves id ∧ s'.run.Stopped process := by
  cases hc with
  | respond now hh hr => exact hr.stopped_of_suspended hw hw' hs hs' hp

/-- The process of a worker that is suspended after a change is stopped. -/
theorem Hushed.suspended_change (hs : s.Hushed) (hn : s.run.Numbered) (hc : Change P s e s')
    {id : WorkerId} {w' : Worker} (hw' : s'.run.worker? id = some w')
    (hp : w'.process = some process) (hphase : w'.phase = .suspended) :
    0 < w'.suspensions ∧ s'.run.Stopped process := by
  rcases hc.process_cases hn hw' hp with ⟨w, hw, hp, hcase⟩ | ⟨w, _, hw, hsolving, -⟩
  · rcases hcase with ⟨hsame, hcount⟩ | ⟨rfl, hsolving, rfl⟩ | ⟨-, -, rfl⟩
    · rw [hphase] at hsame
      obtain ⟨hpos, hstopped⟩ := hs.suspended id w process hw hp hsame.symm
      refine ⟨hcount ▸ hpos, ?_⟩
      rcases hs.stopped_change hc hw hp hstopped with h | ⟨-, h⟩ | ⟨-, h, -⟩
      · exact h
      · cases h.symm.trans hsame.symm
      · cases Option.some.inj (h.symm.trans hw')
        cases hphase
    · exact ⟨Nat.succ_pos _, (hc.stopped_of_suspended hw hw' hsolving rfl hp).2⟩
    · cases hphase
  · cases hsolving.symm.trans hphase

/-- A process that a worker takes up in a change while the run is paused is stopped. -/
theorem Change.stopped_of_launched {w : Worker} {injected : Option Objective}
    (hc : Change P s (some (.message (.launched w.id w.generation process injected))) s')
    (hw : s.run.worker? w.id = some w) (hphase : w.phase = .converting ∨ w.phase = .restarting)
    (hp : s.run.paused) : s'.run.Stopped process := by
  cases hc with
  | respond now hh hr => exact hr.stopped_of_launched hw hphase hp

/-- The signal to pause stops the processes that solve. -/
theorem Change.stopped_of_signal (hc : Change P s (some (.signal .suspend)) s')
    (hp : process ∈ s.run.solvingProcesses) : s'.run.Stopped process := by
  cases hc with
  | respond now hh hr => exact hr.stopped_of_signal hp

/-- In a pause, a process held after a change is stopped, or the queue let it go on. -/
theorem Hushed.paused_change (hs : s.Hushed) (ha : Arises P o s) (hc : Change P s e s')
    (hpaused : s'.run.paused) {id : WorkerId} {w' : Worker} (hw' : s'.run.worker? id = some w')
    (hp : w'.process = some process) :
    s'.run.Stopped process ∨ w'.phase = .solving ∧ 0 < w'.suspensions ∧ s'.run.Serves id := by
  have hn := ha.founded.numbered
  obtain ⟨hresume, hpausing⟩ := hc.pausing hpaused
  -- What was stopped before stays stopped, or the queue lets it go on.
  have hstays {w : Worker} (hw : s.run.worker? id = some w) (hp : w.process = some process)
      (hstopped : s.run.Stopped process) :
      s'.run.Stopped process ∨ w'.phase = .solving ∧ 0 < w'.suspensions ∧ s'.run.Serves id := by
    rcases hs.stopped_change hc hw hp hstopped with h | ⟨he, -⟩ | ⟨hsus, h, hserves⟩
    · exact Or.inl h
    · exact absurd he hresume
    · cases Option.some.inj (h.symm.trans hw')
      exact Or.inr ⟨rfl, (hs.suspended id w process hw hp hsus).1, hserves⟩
  rcases hc.process_cases hn hw' hp with ⟨w, hw, hp, hcase⟩ | ⟨w, injected, hw, -, hphase, rfl⟩
  · rcases hcase with ⟨hsame, hcount⟩ | ⟨rfl, hsolving, rfl⟩ | ⟨-, hsus, -⟩
    · have hholds := (ha.sound.worker id w hw).process.mp (by rw [hp]; rfl)
      rcases hpausing with hpausing | rfl
      · rcases hs.paused hpausing id w process hw hp with h | ⟨hsolving, hpos, hserves⟩
        · exact hstays hw hp h
        · rw [hsolving] at hsame
          exact Or.inr ⟨hsame, hcount ▸ hpos, hc.serves hserves hw hsolving hw' hsame⟩
      · rcases hholds with hsolving | hsus
        · have hmem := Run.mem_solvingProcesses.mpr ⟨id, w, hw, hsolving, hp⟩
          exact Or.inl (hc.stopped_of_signal hmem)
        · exact hstays hw hp (hs.suspended id w process hw hp hsus).2
    · exact Or.inl (hc.stopped_of_suspended hw hw' hsolving rfl hp).2
    · exact hstays hw hp (hs.suspended id w process hw hp hsus).2
  · obtain rfl := hn id w hw
    exact Or.inl (hc.stopped_of_launched hw hphase (hpausing.resolve_right (by simp)))

/-- On a host that tells the processes apart, a pause reaches all processes but those that the queue
lets go on. -/
theorem Hosted.hushed [Timed α] (h : Hosted P o s) : Arises P o s ∧ s.Hushed := by
  refine h.invariant (fun r hr => ?_) fun s e s' ha hs hf hc => ?_
  · have hnone {id : WorkerId} {w : Worker} {process : ProcessId} (hw : r.worker? id = some w)
        (hp : w.process = some process) : False := by
      cases (hr.eq_none hw).2.2.symm.trans hp
    exact ⟨fun i j v w process hv hw hpv hpw => (hnone hv hpv).elim,
      fun id w process hw hp _ => (hnone hw hp).elim,
      fun _ id w process hw hp => (hnone hw hp).elim⟩
  · have hn := ha.founded.numbered
    constructor
    case distinct =>
      intro i j v w process hv hw hpv hpw
      exact hs.distinct_change hn hf hc hv hw hpv hpw
    case suspended =>
      intro id w process hw hp hphase
      exact hs.suspended_change hn hc hw hp hphase
    case paused =>
      intro hpaused id w process hw hp
      exact hs.paused_change ha hc hpaused hw hp

/-! ## Steps -/

variable [Timed α]

/-- A process is stopped, and no worker that holds it is suspended. -/
def Quiet (process : ProcessId) (s : Situation α) : Prop :=
  s.run.Numbered ∧ s.run.Stopped process ∧
    ∀ id w, s.run.worker? id = some w → w.process = some process → w.phase ≠ .suspended

omit [Timed α] in
/-- What the run does of its own accord leaves such a process alone. -/
theorem Quiet.change (hs : s.Quiet process) (hc : Change P s none s') : s'.Quiet process := by
  obtain ⟨hn, hstopped, hnobody⟩ := hs
  refine ⟨hc.numbered hn, ?_, fun id w' hw' hp hsus => ?_⟩
  · rcases hc.stopped hstopped with h | ⟨he, -⟩ | ⟨-, w, hw, hsus, hp, -⟩
    · exact h
    · cases he
    · exact absurd hsus (hnobody _ w hw hp)
  · rcases hc.process_cases hn hw' hp with ⟨w, hw, hp, hcase⟩ | ⟨w, injected, -, -, -, he⟩
    · rcases hcase with ⟨hsame, -⟩ | ⟨he, -⟩ | ⟨-, hsus, -⟩
      · exact hnobody id w hw hp (hsame.symm.trans hsus)
      · cases he
      · exact hnobody id w hw hp hsus
    · cases he

/-- A step lets a stopped process go on if there is the signal for it, if the worker that holds it
is suspended, or if the slot of this worker ends. -/
theorem Hushed.stopped_step (hs : s.Hushed) (ha : Arises P o s) {e : RunEvent} (hf : s.Fresh e)
    (hstep : Step P s e s') (he : e ≠ .signal .resume) {id : WorkerId} {w : Worker}
    (hw : s.run.worker? id = some w) (hp : w.process = some process)
    (hstopped : s.run.Stopped process) :
    s'.run.Stopped process ∨ w.phase = .suspended ∨ e = .slotExpired ∧ s.run.Serves id := by
  by_cases hsus : w.phase = .suspended
  · exact Or.inr (Or.inl hsus)
  by_cases hslot : e = .slotExpired ∧ s.run.Serves id
  · exact Or.inr (Or.inr hslot)
  left
  have hn := ha.founded.numbered
  have honly {k : WorkerId} {v : Worker} (hv : s.run.worker? k = some v)
      (hpv : v.process = some process) : k = id ∧ v = w := by
    obtain rfl := hs.distinct k id v w process hv hw hpv hp
    exact ⟨rfl, Option.some.inj (hv.symm.trans hw)⟩
  rcases hstep.cases ha.founded with ⟨usage, now, -, hround, -⟩ | ⟨s₁, now, hc, hm, -⟩
  · have hquiet : s.Quiet process := by
      refine ⟨hn, hstopped, fun k v hv hpv => ?_⟩
      rw [(honly hv hpv).2]
      exact hsus
    exact (round_preserves (P := P) (fun _ _ hs hc => hs.change hc) hround hquiet).2.1
  · have hquiet : s₁.Quiet process := by
      refine ⟨hc.numbered hn, ?_, fun k v' hv' hpv' hsus' => ?_⟩
      · rcases hs.stopped_change hc hw hp hstopped with h | ⟨h, -⟩ | ⟨h, -⟩
        · exact h
        · exact absurd (Option.some.inj h) he
        · exact absurd h hsus
      · rcases hc.process_cases hn hv' hpv' with ⟨v, hv, hpv, hcase⟩ | ⟨v, _, hv, hsolving, -⟩
        · obtain ⟨rfl, rfl⟩ := honly hv hpv
          rcases hcase with ⟨hsame, -⟩ | ⟨h, hsolving, -⟩ | ⟨h, -⟩
          · exact hsus (hsame.symm.trans hsus')
          · cases h
            exact hslot ⟨rfl, (hc.stopped_of_suspended hw hv' hsolving hsus' hp).1⟩
          · cases h
        · cases hsolving.symm.trans hsus'
    exact (round_preserves (P := P) (fun _ _ hs hc => hs.change hc) hm.round hquiet).2.1

/-- In a pause every process held is stopped but that of the slot being served, whose worker the
queue has suspended and let go on. No event but the signal that ends the pause lets a stopped
process go on, unless its worker is suspended, or is suspended at the end of its slot only to be
served again. -/
theorem hosted_paused (h : Hosted P o s) :
    (s.run.paused → ∀ w ∈ s.run.workers, ∀ process, w.process = some process →
      s.run.Stopped process ∨ w.phase = .solving ∧ 0 < w.suspensions ∧ s.run.Serves w.id) ∧
    ∀ e s', s.Fresh e → Step P s e s' → e ≠ .signal .resume →
      ∀ w ∈ s.run.workers, ∀ process, w.process = some process → s.run.Stopped process →
        s'.run.Stopped process ∨ w.phase = .suspended ∨
          e = .slotExpired ∧ s.run.Serves w.id := by
  obtain ⟨ha, hs⟩ := h.hushed
  have hfind {w : Worker} (hw : w ∈ s.run.workers) : s.run.worker? w.id = some w := by
    obtain ⟨i, hi⟩ := List.mem_iff_getElem?.mp hw
    exact ha.founded.numbered.worker?_id hi
  refine ⟨fun hpaused w hw process hp => ?_, fun e s' hf hstep he w hw process hp hstopped => ?_⟩
  · exact hs.paused hpaused w.id w process (hfind hw) hp
  · exact hs.stopped_step ha hf hstep he (hfind hw) hp hstopped

/-! ## A pause in a run of two solvers -/

/-- Several events come one after another on a host that tells the processes apart. -/
def FreshAll (now : Instant) : List RunEvent → Situation α → Prop
  | [], _ => True
  | e :: events, s => s.Fresh e ∧ FreshAll now events (s.after e (s.run.handle e now))

/-- Events that may come on such a host are taken up in steps. -/
theorem hosted_takes {now : Instant} {events : List RunEvent} (hs : Hosted P o s)
    (hh : HearsAll P now events s) (hf : FreshAll now events s) :
    Hosted P o (s.takes now events) := by
  induction events generalizing s with
  | nil => exact hs
  | cons e events ih => exact ih (hs.tail ⟨e, hf.1, now, hh.1, rfl⟩) hh.2 hf.2

/-- The processes of the two solvers have numbers of their own. -/
theorem hosted_duo :
    Hosted (Parsed "_objective") .duo (Opening.duo.situation.takes 0 duoEvents) := by
  refine hosted_takes Relation.ReflTransGen.refl ?_ ?_
  · exact hearsAll_duo ⟨["x = 9;".toList, "_objective = 9;".toList], rfl⟩
      ⟨["x = 9;".toList, "_objective = 9;".toList, "----------".toList], rfl⟩
      ⟨["x = 9;".toList, "_objective = 9;".toList, "----------".toList, "x = 5;".toList,
        "_objective = 5;".toList], rfl⟩
  · have hnobody : ∀ w ∈ Opening.duo.situation.run.workers, w.process ≠ some 10 := by decide
    have hother : ∀ w ∈ (Opening.duo.situation.takes 0 (duoEvents.take 5)).run.workers,
        w.process ≠ some 11 := by decide
    exact ⟨hnobody, trivial, trivial, trivial, trivial, hother, trivial⟩

/-- The run of the two solvers is paused while one is suspended and the other one solves. -/
theorem hosted_duo_paused :
    Hosted (Parsed "_objective") .duo
      ((Opening.duo.situation.takes 0 duoEvents).takes 0 [.signal .suspend]) :=
  hosted_takes hosted_duo ⟨trivial, trivial⟩ ⟨trivial, trivial⟩

/-- When the pause begins, the processes of both solvers are stopped. -/
theorem duo_paused :
    ∃ s, Hosted (Parsed "_objective") .duo s ∧ s.run.paused ∧
      s.run.workers.map (·.process) = [some 10, some 11] ∧
      ∀ w ∈ s.run.workers, ∀ process, w.process = some process →
        s.run.Stopped process ∨ w.phase = .solving ∧ 0 < w.suspensions ∧ s.run.Serves w.id :=
  ⟨_, hosted_duo_paused, rfl, rfl, (hosted_paused hosted_duo_paused).1 rfl⟩

/-- The slot of the second solver ends in the pause. -/
theorem hosted_duo_slotExpired :
    Hosted (Parsed "_objective") .duo
      (((Opening.duo.situation.takes 0 duoEvents).takes 0 [.signal .suspend]).takes 0
        [.slotExpired]) :=
  hosted_takes hosted_duo_paused ⟨trivial, trivial⟩ ⟨trivial, trivial⟩

/-- When the slot of the second solver ends in the pause, the process of the first one is let go
on. -/
theorem exists_woken_in_pause :
    ∃ s, Hosted (Parsed "_objective") .duo s ∧ s.run.paused ∧
      s.run.workers.map (·.process) = [some 10, none] ∧
      s.run.effects.find? (fun e => e.signalled? = some 10) = some (.wake 10) := by
  refine ⟨_, hosted_duo_slotExpired, ?_, ?_, ?_⟩
  · decide +kernel
  · decide +kernel
  · decide +kernel

end Situation

end SolverPortfolio
