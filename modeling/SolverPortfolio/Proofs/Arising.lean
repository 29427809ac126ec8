import SolverPortfolio.Proofs.Turn

/-
# From steps to single changes

Every situation that a run may come to arises from the run that has added the
workers with a core of their own, by single changes. What holds of that run and
is preserved by every single change therefore holds of every reachable situation.

Main definitions: `Run.Enrolled`, `Opening.ready`, `Situation.Founded`, `Situation.Arises`.
Main statements: `Situation.Arises.invariant`, `Situation.Reachable.arises`,
`Situation.Steps.changes`.
-/

namespace SolverPortfolio

namespace Run

variable {α : Type}

/-! ## The workers with a core of their own -/

/-- A run that has added `n` workers with a core of their own, and nothing else. -/
structure Enrolled (o : Opening α) (n : Nat) (r : Run α) : Prop where
  length : r.workers.length = n
  worker : ∀ id w, r.worker? id = some w → w.id = id ∧
    ∃ (r₀ : Run α) (name : String) (now : Instant) (effects : List Effect),
      r₀.Newcomer name .dedicated now w effects
  request : ∀ request, .launch request ∈ r.effects → r.IsCurrent request
  lines : r.lines = []
  settings : r.settings = o.settings
  incumbent : r.incumbent = Incumbent.start o.goal
  running : r.running = []
  current : r.current = none
  suspended : r.suspended = []
  lastPrinted : r.lastPrinted = none
  solutions : r.solutions = 0

/-- A run that has not begun has added nobody. -/
theorem enrolled_idle (o : Opening α) : Enrolled o 0 o.idle where
  length := rfl
  worker := fun id w h => by cases h
  request := fun request h => by cases h
  lines := rfl
  settings := rfl
  incumbent := rfl
  running := rfl
  current := rfl
  suspended := rfl
  lastPrinted := rfl
  solutions := rfl

/-- One more worker is added. -/
theorem Enrolled.add {o : Opening α} {n : Nat} {r : Run α} (h : Enrolled o n r) (name : String)
    (now : Instant) : Enrolled o (n + 1) (r.addAndLaunch name .dedicated now) := by
  obtain ⟨w, effects, hn, heq⟩ := r.exists_newcomer name .dedicated now
  rw [heq]
  refine { h with length := ?_, worker := ?_, request := ?_, lines := ?_ }
  · simp [h.length]
  · intro id v hv
    rcases getElem?_concat_cases hv with hv | ⟨rfl, rfl⟩
    · exact h.worker id v hv
    · exact ⟨hn.id_eq, r, name, now, effects, hn⟩
  · intro request hq
    rcases List.mem_append.mp hq with hq | hq
    · obtain ⟨hg, hb, hid, hgen⟩ := hn.launch_mem hq
      refine ⟨hg, hb, w, ?_, hgen⟩
      rw [hid]
      exact List.getElem?_concat_length
    · obtain ⟨hg, hb, v, hv, hgen⟩ := h.request request hq
      refine ⟨hg, hb, v, ?_, hgen⟩
      obtain ⟨hlt, -⟩ := List.getElem?_eq_some_iff.mp hv
      rw [worker?, List.getElem?_append_left hlt]
      exact hv
  · have hlines := h.lines
    unfold Run.lines at hlines ⊢
    rw [List.filterMap_append, hn.lines, hlines, List.nil_append]

/-- All of them are added. -/
theorem Enrolled.addAll {o : Opening α} {n : Nat} {r : Run α} (h : Enrolled o n r)
    (names : List String) (now : Instant) :
    Enrolled o (n + names.length)
      (names.foldl (fun r name => r.addAndLaunch name .dedicated now) r) := by
  induction names generalizing n r with
  | nil => exact h
  | cons name names ih =>
    have hrest := ih (h.add name now)
    rw [Nat.add_right_comm] at hrest
    exact hrest

/-- The workers of such a run are numbered. -/
theorem Enrolled.numbered {o : Opening α} {n : Nat} {r : Run α} (h : Enrolled o n r) :
    r.Numbered := fun id w hw => (h.worker id w hw).1

/-- The workers of such a run have found nothing, have no bounds and hold no processes. -/
theorem Enrolled.eq_none {o : Opening α} {n : Nat} {r : Run α} (h : Enrolled o n r)
    {id : WorkerId} {w : Worker} (hw : r.worker? id = some w) :
    w.best = none ∧ w.injected = none ∧ w.process = none := by
  obtain ⟨_, r₀, name, now, effects, hn⟩ := h.worker id w hw
  exact hn.eq_none

/-- The workers with a core of their own are added when a run begins. -/
theorem enrolled_dedicated (o : Opening α) :
    Enrolled o o.schedule.dedicated.length
      (o.schedule.dedicated.foldl (fun r name => r.addAndLaunch name .dedicated o.begun)
        o.idle) := by
  have henrolled := (enrolled_idle o).addAll o.schedule.dedicated o.begun
  rwa [Nat.zero_add] at henrolled

/-- A run begins by adding the workers with a core of their own, and goes on with moves. -/
theorem exists_enrolled [Timed α] (o : Opening α) :
    ∃ r, Enrolled o o.schedule.dedicated.length r ∧ Moves o.begun r o.situation.run := by
  have henrolled := enrolled_dedicated o
  -- What follows the dedicated workers is the first turn of the queue, when no slot is current.
  refine ⟨_, henrolled, ?_⟩
  unfold Opening.situation start
  generalize o.schedule.dedicated.foldl _ o.idle = r at henrolled ⊢
  have hplan : Moves o.begun r _ :=
    Relation.ReflTransGen.single (Move.plan o.schedule.shared r.carry)
  refine hplan.trans (moves_advance (Moves.numbered hplan henrolled.numbered) o.begun ?_)
  intro slot w h
  cases henrolled.current.symm.trans h

end Run

/-- The run that has added the workers with a core of their own, and looks at the queue next. -/
def Opening.ready {α : Type} (o : Opening α) : Run α :=
  { o.schedule.dedicated.foldl (fun r name => r.addAndLaunch name .dedicated o.begun) o.idle with
    queue := o.schedule.shared }

namespace Situation

variable {α : Type} {P : Discipline} {o : Opening α} {s s' : Situation α}

/-! ## Workers and launch tasks -/

/-- Workers are numbered, launches are asked for generations of workers that there are, and so
are the launch tasks that have sent something. -/
structure Founded (s : Situation α) : Prop where
  numbered : s.run.Numbered
  requested : ∀ request, .launch request ∈ s.run.effects →
    ∃ w, s.run.worker? request.worker = some w ∧ request.generation ≤ w.generation
  heard : ∀ key, s.progress key ≠ .pending →
    ∃ w, s.run.worker? key.1 = some w ∧ key.2 ≤ w.generation

/-- A message is about a worker that there is. -/
theorem Founded.of_sends (h : s.Founded) {m : Message}
    (hm : Sends P s.run (s.progress m.key) m) :
    ∃ w, s.run.worker? m.key.1 = some w ∧ m.key.2 ≤ w.generation := by
  have hspeaking {injected : Option Objective} {said : List StreamEvent}
      (hp : s.progress m.key = .speaking injected said) :
      ∃ w, s.run.worker? m.key.1 = some w ∧ m.key.2 ≤ w.generation :=
    h.heard m.key (by rw [hp]; simp)
  generalize hp : s.progress m.key = p at hm
  cases hm with
  | launched hq process converted => exact h.requested _ hq
  | launchFailed hq => exact h.requested _ hq
  | output id generation hP => exact hspeaking hp
  | exited injected said id generation success code => exact hspeaking hp
  | lost injected said id generation => exact hspeaking hp

/-- A generation of a worker that there is stays one. -/
theorem Change.exists_generation {e : Option RunEvent} (hc : Change P s e s')
    (hr : s.run.Numbered) {id : WorkerId} {generation : Nat}
    (h : ∃ w, s.run.worker? id = some w ∧ generation ≤ w.generation) :
    ∃ w, s'.run.worker? id = some w ∧ generation ≤ w.generation := by
  obtain ⟨w, hw, hle⟩ := h
  obtain ⟨w', hw', hturn⟩ := hc.turn hr hw
  exact ⟨w', hw', Nat.le_trans hle hturn.generation_le⟩

/-- A single change keeps a situation founded. -/
theorem Founded.change (h : s.Founded) {e : Option RunEvent} (hc : Change P s e s') :
    s'.Founded where
  numbered := hc.numbered h.numbered
  requested := by
    intro request hq
    rcases hc.launch_mem hq with hq | ⟨_, _, w, hw, hgen⟩
    · exact hc.exists_generation h.numbered (h.requested request hq)
    · exact ⟨w, hw, Nat.le_of_eq hgen.symm⟩
  heard := by
    intro key hkey
    apply hc.exists_generation h.numbered
    rcases hc.progress_cases key with ⟨m, _, rfl, hm, _⟩ | ⟨hsame, _⟩
    · exact h.of_sends hm
    · exact h.heard key (hsame ▸ hkey)

/-- A run that has added its first workers is founded. -/
theorem founded_of_enrolled {n : Nat} {r : Run α} (h : r.Enrolled o n) :
    Founded ⟨r, fun _ => .pending, []⟩ where
  numbered := h.numbered
  requested := by
    intro request hq
    obtain ⟨_, _, w, hw, hgen⟩ := h.request request hq
    exact ⟨w, hw, Nat.le_of_eq hgen.symm⟩
  heard := fun key hkey => absurd rfl hkey

/-! ## Situations that arise -/

/-- A situation that single changes lead to, once the workers with a core of their own are
added. -/
def Arises (P : Discipline) (o : Opening α) (s : Situation α) : Prop :=
  ∃ r, Run.Enrolled o o.schedule.dedicated.length r ∧ Changes P ⟨r, fun _ => .pending, []⟩ s

/-- A situation that arises is founded. -/
theorem Arises.founded (h : Arises P o s) : s.Founded := by
  obtain ⟨r, hr, hc⟩ := h
  induction hc with
  | refl => exact founded_of_enrolled hr
  | tail _ hc ih =>
    obtain ⟨e, hc⟩ := hc
    exact ih.change hc

/-- What arises goes on arising. -/
theorem Arises.change (h : Arises P o s) {e : Option RunEvent} (hc : Change P s e s') :
    Arises P o s' := by
  obtain ⟨r, hr, hcs⟩ := h
  exact ⟨r, hr, hcs.tail ⟨e, hc⟩⟩

/-- What arises goes on arising, however much changes. -/
theorem Arises.changes (h : Arises P o s) (hcs : Changes P s s') : Arises P o s' := by
  obtain ⟨r, hr, hcs₀⟩ := h
  exact ⟨r, hr, hcs₀.trans hcs⟩

/-- What holds at first and is preserved by every single change holds of all that arises. -/
theorem Arises.invariant {I : Situation α → Prop} (h : Arises P o s)
    (hopen : ∀ r, Run.Enrolled o o.schedule.dedicated.length r → I ⟨r, fun _ => .pending, []⟩)
    (hchange : ∀ s e s', Arises P o s → I s → Change P s e s' → I s') : I s := by
  obtain ⟨r, hr, hcs⟩ := h
  induction hcs with
  | refl => exact hopen r hr
  | tail hcs hc ih =>
    obtain ⟨e, hc⟩ := hc
    exact hchange _ e _ ⟨r, hr, hcs⟩ ih hc

/-- All that arises has the settings and the goal of the opening. -/
theorem Arises.settings (h : Arises P o s) :
    s.run.settings = o.settings ∧ s.run.goal = o.goal := by
  apply h.invariant (I := fun s => s.run.settings = o.settings ∧ s.run.goal = o.goal)
  · intro r hr
    exact ⟨hr.settings, congrArg Incumbent.goal hr.incumbent⟩
  · intro s e s' _ hs hc
    exact ⟨hc.settings.trans hs.1, hc.goal.trans hs.2⟩

/-! ## Steps -/

/-- Moves of the run are single changes. -/
theorem changes_of_moves {now : Instant} {r' : Run α} (h : Run.Moves now s.run r') :
    Changes P s { s with run := r' } := by
  induction h with
  | refl => exact Relation.ReflTransGen.refl
  | tail _ hm ih => exact ih.tail ⟨none, .move now hm⟩

/-- What arises goes on arising, whatever moves are made. -/
theorem Arises.moves (h : Arises P o s) {now : Instant} {r' : Run α}
    (hm : Run.Moves now s.run r') : Arises P o { s with run := r' } :=
  h.changes (changes_of_moves hm)

/-- The run that looks at the queue for the first time arises, and no slot is current. -/
theorem arises_ready (o : Opening α) :
    Arises P o ⟨o.ready, fun _ => .pending, []⟩ ∧ o.ready.current = none := by
  have henrolled := Run.enrolled_dedicated o
  have hplan : Run.Moves o.begun _ o.ready :=
    Relation.ReflTransGen.single (.plan o.schedule.shared _)
  exact ⟨⟨_, henrolled, changes_of_moves hplan⟩, henrolled.current⟩

/-- A round of the monitor is made of single changes. -/
theorem changes_of_round {now : Instant} {r' : Run α} (h : Run.Round now s.run r') :
    Changes P s { s with run := r' } := by
  induction h with
  | refl => exact Relation.ReflTransGen.refl
  | tail _ hm ih =>
    rcases hm with hm | hi
    · exact ih.tail ⟨none, .move now hm⟩
    · exact ih.tail ⟨none, .intervene now hi⟩

variable [Timed α]

/-- A step is a round of the monitor, or a response followed by moves. -/
theorem Step.cases (hs : s.Founded) {e : RunEvent} (h : Step P s e s') :
    (∃ usage now, e = .tick usage ∧ Run.Round now s.run s'.run ∧ s' = { s with run := s'.run }) ∨
    ∃ s₁ now, Change P s (some e) s₁ ∧ Run.Moves now s₁.run s'.run ∧
      s' = { s₁ with run := s'.run } := by
  obtain ⟨now, hh, heq⟩ := h
  have hknown : ∀ m, e = .message m → ∃ w, s.run.worker? m.key.1 = some w := by
    rintro m rfl
    obtain ⟨w, hw, _⟩ := hs.of_sends hh
    exact ⟨w, hw⟩
  rw [heq]
  rcases Run.handle_cases hs.numbered e now hknown with ⟨usage, rfl, hround⟩ | ⟨r₁, hr, hm⟩
  · exact Or.inl ⟨usage, now, rfl, hround, rfl⟩
  · refine Or.inr ⟨s.after e r₁, now, .respond now hh hr, hm, ?_⟩
    simp only [after, (Run.Moves.kept hm).solutions]

/-- A step is made of single changes. -/
theorem Step.changes (hs : s.Founded) {e : RunEvent} (h : Step P s e s') : Changes P s s' := by
  rcases h.cases hs with ⟨usage, now, -, hround, heq⟩ | ⟨s₁, now, hc, hm, heq⟩
  · rw [heq]
    exact changes_of_round hround
  · rw [heq]
    exact Relation.ReflTransGen.head ⟨some e, hc⟩ (changes_of_moves hm)

/-- Steps are made of single changes. -/
theorem Steps.changes (hs : Arises P o s) (h : Steps P s s') : Changes P s s' := by
  induction h with
  | refl => exact Relation.ReflTransGen.refl
  | tail _ hstep ih =>
    obtain ⟨e, hstep⟩ := hstep
    exact ih.trans (hstep.changes (hs.changes ih).founded)

/-- Every reachable situation arises. -/
theorem Reachable.arises (h : Reachable P o s) : Arises P o s := by
  obtain ⟨r, hr, hm⟩ := Run.exists_enrolled o
  have hopen : Arises P o o.situation := ⟨r, hr, changes_of_moves hm⟩
  exact hopen.changes (Steps.changes hopen h)

end Situation

end SolverPortfolio
