import SolverPortfolio.Proofs.Arising

/-
# The life of a worker

Nothing in a worker itself keeps its parts in step: any of its changes could be
made at any time. That its phase, its cause, its process and its generation belong
together is due to what the run asks before it makes them.

Main definitions: `Phase.Next`, `Worker.Sound`, `Situation.Holds`,
`Situation.Sound`.
Main statements: `Worker.Turn.sound`, `Worker.Turn.eq_of_terminated`,
`Situation.Arises.sound`, `Situation.Step.phase`.
-/

namespace SolverPortfolio

/-! ## Phases -/

/-- The phases that may follow a phase. -/
inductive Phase.Next : Phase → Phase → Prop where
  | convert : Next .ready .converting
  | launch : Next .converting .solving
  | suspend : Next .solving .suspended
  | resume : Next .suspended .solving
  | restart : Next .solving .restarting
  | relaunch : Next .restarting .solving
  | terminate {p : Phase} (h : p ≠ .terminated) : Next p .terminated

/-- No worker goes back to its beginning. -/
theorem Phase.Next.ne_ready {p q : Phase} (h : Next p q) : q ≠ .ready := by
  cases h <;> simp

namespace Worker

variable {goal : Goal} {maxRestarts : Nat} {e : Option RunEvent} {w w' : Worker}

/-- A live worker has any phase but the last. -/
theorem isLive_iff {w : Worker} : w.isLive ↔ w.phase ≠ .terminated := by
  simp [isLive]

/-- The phase, the cause, the process and the generation of a worker belong together. -/
structure Sound (maxRestarts : Nat) (w : Worker) : Prop where
  termination : w.phase = .terminated ↔ w.termination.isSome
  process : w.process.isSome ↔ w.phase = .solving ∨ w.phase = .suspended
  restarts_eq : w.restarts = w.generation
  restarts_le : w.restarts ≤ maxRestarts

/-- A turn leaves the phase as it is, or goes on to a phase that may follow. -/
theorem Turn.phase (h : Turn goal maxRestarts e w w') :
    w'.phase = w.phase ∨ w.phase.Next w'.phase := by
  have hterminated : Phase.terminated = w.phase ∨ w.phase.Next .terminated := by
    by_cases hp : w.phase = .terminated
    · exact Or.inl hp.symm
    · exact Or.inr (.terminate hp)
  cases h with
  | still h => exact Or.inl rfl
  | launched now process injected hp =>
    right
    rcases hp with hp | hp
    · rw [hp]
      exact .launch
    · rw [hp]
      exact .relaunch
  | recorded x now hl =>
    obtain ⟨best, h⟩ := w.exists_recordSolution now goal x.objective
    rw [h]
    exact Or.inl rfl
  | satisfied x now hl hg => exact hterminated
  | ended cause he => exact hterminated
  | suspended hp =>
    rw [hp]
    exact Or.inr .suspend
  | resumed hp =>
    rw [hp]
    exact Or.inr .resume
  | restarted switchSearch hp hr =>
    rw [hp]
    exact Or.inr .restart

/-- A worker that has ended does not live again. -/
theorem Turn.dead (h : Turn goal maxRestarts e w w') (hw : w.isLive = false) :
    w'.isLive = false := by
  have ht : w.phase = .terminated := by simpa [isLive] using hw
  rcases h.phase with hsame | hnext
  · simpa [isLive, hsame] using ht
  · rw [ht] at hnext
    generalize w'.phase = q at hnext
    cases hnext with
    | terminate h => exact absurd rfl h

/-- A turn keeps a worker sound. -/
theorem Turn.sound (h : Turn goal maxRestarts e w w') (hw : w.Sound maxRestarts) :
    w'.Sound maxRestarts := by
  cases h with
  | still h => exact hw
  | launched now process injected hp =>
    refine { hw with termination := ?_, process := ?_ }
    · have hlive : w.phase ≠ .terminated := by rcases hp with hp | hp <;> simp [hp]
      simpa [Worker.launched, hw.termination] using hlive
    · simp [Worker.launched]
  | recorded x now hl =>
    obtain ⟨best, h⟩ := w.exists_recordSolution now goal x.objective
    rw [h]
    exact { hw with }
  | satisfied x now hl hg =>
    obtain ⟨best, h⟩ := w.exists_recordSolution now goal x.objective
    rw [h]
    refine { hw with termination := ?_, process := ?_ }
    · simp [terminate]
    · simp [terminate]
  | ended cause he =>
    refine { hw with termination := ?_, process := ?_ }
    · simp [terminate]
    · simp [terminate]
  | suspended hp =>
    refine { hw with termination := ?_, process := ?_ }
    · simp [suspend, ← hw.termination, hp]
    · simp [suspend, hw.process, hp]
  | resumed hp =>
    refine { hw with termination := ?_, process := ?_ }
    · simp [resume, ← hw.termination, hp]
    · simp [resume, hw.process, hp]
  | restarted switchSearch hp hr =>
    refine ⟨?_, ?_, congrArg (· + 1) hw.restarts_eq, hr⟩
    · simp [beginRestart, ← hw.termination, hp]
    · simp [beginRestart]

/-- A worker that has ended takes no further turn. -/
theorem Turn.eq_of_terminated (h : Turn goal maxRestarts e w w') (hw : w.Sound maxRestarts)
    (ht : w.phase = .terminated) : w' = w := by
  have hdead : w.isLive = false := by simp [isLive, ht]
  cases h with
  | still h => rfl
  | launched now process injected hp =>
    rcases hp with hp | hp <;> cases ht.symm.trans hp
  | recorded x now hl => rw [hdead] at hl; cases hl
  | satisfied x now hl hg => rw [hdead] at hl; cases hl
  | ended cause he =>
    obtain ⟨first, hfirst⟩ := Option.isSome_iff_exists.mp (hw.termination.mp ht)
    have hprocess : w.process = none := by
      rw [← Option.not_isSome_iff_eq_none, hw.process, ht]
      simp
    -- It keeps its first cause and has no process left, so that a second end changes nothing.
    have hkeep : (w.termination <|> some cause) = w.termination := by
      rw [hfirst]
      rfl
    rw [terminate, hkeep, ← ht, ← hprocess]
  | suspended hp => cases ht.symm.trans hp
  | resumed hp => cases ht.symm.trans hp
  | restarted switchSearch hp hr => cases ht.symm.trans hp

end Worker

/-- A newcomer is sound. -/
theorem Run.Newcomer.sound {α : Type} {r : Run α} {name : String} {placement : Placement}
    {now : Instant} {w : Worker} {effects : List Effect}
    (h : r.Newcomer name placement now w effects) (maxRestarts : Nat) : w.Sound maxRestarts := by
  cases h <;> constructor <;> simp [Worker.new, Worker.startConverting, Worker.terminate]

/-- A newcomer converts, or ended at once. -/
theorem Run.Newcomer.phase {α : Type} {r : Run α} {name : String} {placement : Placement}
    {now : Instant} {w : Worker} {effects : List Effect}
    (h : r.Newcomer name placement now w effects) : Phase.Next .ready w.phase := by
  cases h with
  | launched h => exact .convert
  | unknown h n => exact .terminate (by simp)

namespace Situation

variable {α : Type} {P : Discipline} {o : Opening α} {s s' : Situation α}

/-! ## Processes -/

/-- A process is recorded as running for a generation of a worker, whose launch task has not come
to its end. -/
def Holds (s : Situation α) (key : WorkerId × Nat) (process : ProcessId) : Prop :=
  (key, process) ∈ s.run.running ∧ ∃ injected said, s.progress key = .speaking injected said

/-- A process goes on being recorded as long as its launch task tells no more than output. -/
theorem Holds.change {key : WorkerId × Nat} {process : ProcessId} (h : s.Holds key process)
    {e : Option RunEvent} (hc : Change P s e s')
    (hm : ∀ m, e = some (.message m) → m.key = key → ∃ event, m = .output key.1 key.2 event) :
    s'.Holds key process := by
  obtain ⟨hrunning, injected, said, hspeaking⟩ := h
  have hother {k : WorkerId × Nat} (hk : key ≠ k) :
      (key, process) ∈ s.run.runningWithout k := by
    rw [Run.runningWithout, List.mem_filter]
    exact ⟨hrunning, by simpa using hk⟩
  constructor
  · rw [hc.running]
    split
    -- A process that is reported or ends here is another one's.
    · next id generation q injected =>
      refine List.mem_append_left _ (hother fun hk => ?_)
      obtain ⟨event, h⟩ := hm _ rfl hk.symm
      cases h
    · next id generation success code =>
      refine hother fun hk => ?_
      obtain ⟨event, h⟩ := hm _ rfl hk.symm
      cases h
    · exact hrunning
  · rcases hc.progress_cases key with ⟨m, he, hk, -, hnext⟩ | ⟨hsame, _⟩
    · obtain ⟨event, rfl⟩ := hm m he hk
      rw [hnext, hspeaking]
      exact ⟨injected, said ++ [event], rfl⟩
    · rw [hsame]
      exact ⟨injected, said, hspeaking⟩

/-- Every worker is sound, and its process is recorded as running. -/
structure Sound (o : Opening α) (s : Situation α) : Prop where
  worker : ∀ id w, s.run.worker? id = some w → w.Sound o.settings.maxRestarts
  process : ∀ id w process, s.run.worker? id = some w → w.process = some process →
    s.Holds (w.id, w.generation) process

/-- A worker that holds a process, and lets the messages of a change pass, goes on holding it. -/
theorem Sound.holds_of_passes (hs : s.Sound o) {e : Option RunEvent} (hc : Change P s e s')
    {id : WorkerId} {w : Worker} (hw : s.run.worker? id = some w) {process : ProcessId}
    (hp : w.process = some process)
    (hpass : ∀ m, e = some (.message m) → m.key.1 = w.id → m.Passes w) :
    s'.Holds (w.id, w.generation) process := by
  have hholds := hs.process id w process hw hp
  have hphase := (hs.worker id w hw).process.mp (by rw [hp]; rfl)
  refine hholds.change hc fun m he hkey => ?_
  obtain ⟨_, injected, said, hspeaking⟩ := hholds
  -- The end of the process, and the loss of it, would not pass the worker.
  rcases hc.progress_cases (w.id, w.generation) with ⟨m', he', -, hsends, -⟩ | ⟨_, hne⟩
  · cases he.symm.trans he'
    have hm := hpass m he (by rw [hkey])
    rw [hspeaking] at hsends
    cases hsends with
    | output id' generation hP =>
      cases hkey
      exact ⟨_, rfl⟩
    | exited injected said id' generation success code =>
      cases hkey
      exact absurd ⟨rfl, hphase⟩ hm
    | lost injected said id' generation =>
      cases hkey
      refine absurd ⟨rfl, Worker.isLive_iff.mpr ?_⟩ hm
      rcases hphase with hphase | hphase <;> simp [hphase]
  · exact absurd hkey (hne m he)

/-- The process that a worker holds after a turn is recorded as running. -/
theorem Sound.holds_of_turn (hs : s.Sound o) {e : Option RunEvent} (hc : Change P s e s')
    {goal : Goal} {maxRestarts : Nat} {id : WorkerId} {w w' : Worker}
    (hw : s.run.worker? id = some w) (hturn : Worker.Turn goal maxRestarts e w w')
    {process : ProcessId} (hp : w'.process = some process) :
    s'.Holds (w'.id, w'.generation) process := by
  cases hturn with
  | still hpass => exact hs.holds_of_passes hc hw hp hpass
  | launched now q injected hphase =>
    cases hp
    constructor
    · rw [hc.running]
      exact List.mem_append_right _ (List.mem_singleton_self _)
    · rcases hc.progress_cases (w.id, w.generation) with ⟨m, he, -, hsends, hnext⟩ | ⟨_, hne⟩
      · cases he
        rw [hsends.of_launched.1] at hnext
        exact ⟨injected, [], hnext⟩
      · exact absurd rfl (hne _ rfl)
  | recorded x now hl =>
    obtain ⟨best, h⟩ := w.exists_recordSolution now goal x.objective
    rw [h] at hp ⊢
    refine (hs.process id w process hw hp).change hc fun m he hkey => ?_
    cases he
    exact ⟨_, rfl⟩
  | satisfied x now hl hg => cases hp
  | ended cause he => cases hp
  | suspended hphase => exact (hs.process id w process hw hp).change hc fun m he => by cases he
  | resumed hphase => exact (hs.process id w process hw hp).change hc fun m he => by cases he
  | restarted switchSearch hphase hr => cases hp

/-- In all that arises, every worker is sound and its process is recorded as running. -/
theorem Arises.sound (h : Arises P o s) : s.Sound o := by
  apply h.invariant (I := Sound o)
  · intro r hr
    constructor
    case worker =>
      intro id w hw
      obtain ⟨_, r₀, name, now, effects, hn⟩ := hr.worker id w hw
      exact hn.sound _
    case process =>
      intro id w process hw hp
      cases (hr.eq_none hw).2.2.symm.trans hp
  · intro s e s' ha hs hc
    have hmax : s.run.settings.maxRestarts = o.settings.maxRestarts := by rw [ha.settings.1]
    constructor
    case worker =>
      intro id w' hw'
      rcases hc.worker_cases ha.founded.numbered hw' with ⟨w, hw, hturn⟩ | ⟨-, -, _, _, _, hn, -⟩
      · rw [hmax] at hturn
        exact hturn.sound (hs.worker id w hw)
      · exact hn.sound _
    case process =>
      intro id w' process hw' hp
      rcases hc.worker_cases ha.founded.numbered hw' with ⟨w, hw, hturn⟩ | ⟨-, -, _, _, _, hn, -⟩
      · exact hs.holds_of_turn hc hw hturn hp
      · cases hn.eq_none.2.2.symm.trans hp

/-- In all that arises, every worker has begun. -/
theorem Arises.begun (h : Arises P o s) :
    ∀ id w, s.run.worker? id = some w → w.phase ≠ .ready := by
  apply h.invariant (I := fun s => ∀ id w, s.run.worker? id = some w → w.phase ≠ .ready)
  · intro r hr id w hw
    obtain ⟨_, r₀, name, now, effects, hn⟩ := hr.worker id w hw
    exact hn.phase.ne_ready
  · intro s e s' ha hs hc id w' hw'
    rcases hc.worker_cases ha.founded.numbered hw' with ⟨w, hw, hturn⟩ | ⟨-, -, _, _, _, hn, -⟩
    · rcases hturn.phase with hsame | hnext
      · rw [hsame]
        exact hs id w hw
      · exact hnext.ne_ready
    · exact hn.phase.ne_ready

/-! ## Ends -/

/-- A worker that has ended stays as it is. -/
theorem Changes.eq_of_terminated (h : Arises P o s) (hcs : Changes P s s') {id : WorkerId}
    {w : Worker} (hw : s.run.worker? id = some w) (ht : w.phase = .terminated) :
    s'.run.worker? id = some w := by
  induction hcs with
  | refl => exact hw
  | tail hcs hc ih =>
    obtain ⟨e, hc⟩ := hc
    have ha := h.changes hcs
    obtain ⟨w', hw', hturn⟩ := hc.turn ha.founded.numbered ih
    rw [ha.settings.1] at hturn
    rw [hw', hturn.eq_of_terminated (ha.sound.worker id w ih) ht]

end Situation

/-! ## Phases of a whole step -/

/-- The phases that a worker may come to without an event that concerns it. -/
def Phase.Drifts (p q : Phase) : Prop :=
  q = p ∨ q = .terminated ∨ p = .suspended ∧ q = .solving ∨
    (p = .solving ∨ p = .suspended) ∧ q = .restarting

/-- Drifting goes on. -/
theorem Phase.Drifts.trans {p q t : Phase} (hpq : p.Drifts q) (hqt : q.Drifts t) :
    p.Drifts t := by
  unfold Drifts at *
  grind

/-- A worker that has just begun drifts no further than to its end. -/
theorem Phase.Next.of_drifts {p q : Phase} (h : Next .ready p) (hpq : p.Drifts q) :
    Next .ready q := by
  cases h with
  | convert =>
    rcases hpq with rfl | rfl | ⟨h, _⟩ | ⟨h | h, _⟩
    · exact .convert
    · exact .terminate (by simp)
    all_goals cases h
  | terminate h =>
    rcases hpq with rfl | rfl | ⟨h, _⟩ | ⟨h | h, _⟩
    · exact .terminate (by simp)
    · exact .terminate (by simp)
    all_goals cases h

/-- A turn without an event is a drift. -/
theorem Worker.Turn.drifts {goal : Goal} {maxRestarts : Nat} {w w' : Worker}
    (h : Turn goal maxRestarts none w w') : w.phase.Drifts w'.phase := by
  cases h with
  | still h => exact Or.inl rfl
  | ended cause he => exact Or.inr (Or.inl rfl)
  | resumed hp => exact Or.inr (Or.inr (Or.inl ⟨hp, rfl⟩))
  | restarted switchSearch hp hr => exact Or.inr (Or.inr (Or.inr ⟨Or.inl hp, rfl⟩))

namespace Run

variable {α : Type} {now : Instant} {r r' : Run α}

/-- Moves leave the workers that were there before as they are, or resume some of them. -/
theorem Moves.worker (h : Moves now r r') {id : WorkerId} {w : Worker}
    (hw : r.worker? id = some w) :
    ∃ w', r'.worker? id = some w' ∧ (w' = w ∨ w.phase = .suspended ∧ w' = w.resume) := by
  induction h with
  | refl => exact ⟨w, hw, Or.inl rfl⟩
  | tail _ hm ih =>
    obtain ⟨v, hv, hcase⟩ := ih
    obtain ⟨w', hw', heq⟩ := hm.worker hv
    rcases hcase with rfl | ⟨hs, rfl⟩
    · exact ⟨w', hw', heq⟩
    · rcases heq with rfl | ⟨hresumed, _⟩
      · exact ⟨_, hw', Or.inr ⟨hs, rfl⟩⟩
      · cases hresumed

/-- In a round, the workers that were there before drift, and the others have just begun. -/
theorem Round.phase (h : Round now r r') (hr : r.Numbered) :
    (∀ id w, r.worker? id = some w →
      ∃ w', r'.worker? id = some w' ∧ w.phase.Drifts w'.phase) ∧
    ∀ id w', r.worker? id = none → r'.worker? id = some w' → Phase.Next .ready w'.phase := by
  induction h with
  | refl =>
    refine ⟨fun id w hw => ⟨w, hw, Or.inl rfl⟩, fun id w' hnone hw' => ?_⟩
    cases hnone.symm.trans hw'
  | @tail r₁ r₂ hround hm ih =>
    have hr₁ := Round.numbered hround hr
    have hturn {id : WorkerId} {w : Worker} (hw : r₁.worker? id = some w) :
        ∃ w', r₂.worker? id = some w' ∧ w.phase.Drifts w'.phase := by
      rcases hm with hm | hi
      · obtain ⟨w', hw', hturn⟩ := hm.turn .satisfy 0 hw
        exact ⟨w', hw', hturn.drifts⟩
      · obtain ⟨w', hw', hturn⟩ := hi.turn hr₁ hw
        exact ⟨w', hw', hturn.drifts⟩
    refine ⟨fun id w hw => ?_, fun id w' hnone hw' => ?_⟩
    · obtain ⟨v, hv, hdrifts⟩ := ih.1 id w hw
      obtain ⟨w', hw', hnext⟩ := hturn hv
      exact ⟨w', hw', hdrifts.trans hnext⟩
    · cases hv : r₁.worker? id with
      | some v =>
        obtain ⟨v', hv', hdrifts⟩ := hturn hv
        cases Option.some.inj (hv'.symm.trans hw')
        exact (ih.2 id v hnone hv).of_drifts hdrifts
      | none =>
        rcases hm with hm | hi
        · obtain ⟨name, effects, hn, _⟩ := hm.newcomer hv hw'
          exact hn.phase
        · have hlen := List.getElem?_eq_none_iff.mp hv
          obtain ⟨hlt, -⟩ := List.getElem?_eq_some_iff.mp hw'
          rw [hi.length_workers] at hlt
          omega

end Run

namespace Situation

variable {α : Type} [Timed α] {P : Discipline} {o : Opening α} {s s' : Situation α}

/-- A step takes the phase of a worker to one that may follow, or leaves it as it is. A tick that
resumes a worker may restart it at once. -/
theorem Step.phase (h : Arises P o s) {e : RunEvent} (hstep : Step P s e s') {id : WorkerId}
    {w : Worker} (hw : s.run.worker? id = some w) :
    ∃ w', s'.run.worker? id = some w' ∧ (w'.phase = w.phase ∨ w.phase.Next w'.phase ∨
      (∃ usage, e = .tick usage) ∧ w.phase = .suspended ∧ w'.phase = .restarting) := by
  rcases hstep.cases h.founded with ⟨usage, now, rfl, hround, -⟩ | ⟨s₁, now, hc, hm, -⟩
  -- In a tick a worker may end, be resumed, be restarted, or be resumed and then restarted.
  · obtain ⟨w', hw', hdrifts⟩ := (hround.phase h.founded.numbered).1 id w hw
    refine ⟨w', hw', ?_⟩
    rcases hdrifts with hsame | hend | ⟨hs, hsolving⟩ | ⟨hs | hs, hrestarting⟩
    · exact Or.inl hsame
    · by_cases ht : w.phase = .terminated
      · exact Or.inl (hend.trans ht.symm)
      · exact Or.inr (Or.inl (hend ▸ .terminate ht))
    · exact Or.inr (Or.inl (hs ▸ hsolving ▸ .resume))
    · exact Or.inr (Or.inl (hs ▸ hrestarting ▸ .restart))
    · exact Or.inr (Or.inr ⟨⟨usage, rfl⟩, hs, hrestarting⟩)
  -- The moves after a response only resume workers, and one just suspended is as before.
  · obtain ⟨w₁, hw₁, hturn⟩ := hc.turn h.founded.numbered hw
    obtain ⟨w', hw', hcase⟩ := hm.worker hw₁
    refine ⟨w', hw', ?_⟩
    rcases hcase with rfl | ⟨hs, rfl⟩
    · exact hturn.phase.imp_right Or.inl
    · rcases hturn.phase with hsame | hnext
      · rw [← hsame, hs]
        exact Or.inr (Or.inl .resume)
      · rw [hs] at hnext
        generalize w.phase = p at hnext ⊢
        cases hnext
        exact Or.inl rfl

/-- A worker added in a step begins as every worker does. -/
theorem Step.newcomer (h : Arises P o s) {e : RunEvent} (hstep : Step P s e s') {id : WorkerId}
    {w' : Worker} (hnone : s.run.worker? id = none) (hw' : s'.run.worker? id = some w') :
    Phase.Next .ready w'.phase := by
  rcases hstep.cases h.founded with ⟨usage, now, rfl, hround, -⟩ | ⟨s₁, now, hc, hm, -⟩
  · exact (hround.phase h.founded.numbered).2 id w' hnone hw'
  · have hnone₁ : s₁.run.worker? id = none := by
      cases hw₁ : s₁.run.worker? id with
      | none => rfl
      | some w₁ =>
        rcases hc.worker_cases h.founded.numbered hw₁ with ⟨w, hw, -⟩ | ⟨he, -⟩
        · cases hnone.symm.trans hw
        · cases he
    exact (hm.round.phase (hc.numbered h.founded.numbered)).2 id w' hnone₁ hw'

/-- So do the workers that are there from the beginning. -/
theorem phase_situation (o : Opening α) {id : WorkerId} {w : Worker}
    (hw : o.situation.run.worker? id = some w) : Phase.Next .ready w.phase := by
  obtain ⟨r, hr, hm⟩ := Run.exists_enrolled o
  obtain ⟨hold, hnew⟩ := hm.round.phase hr.numbered
  cases hv : r.worker? id with
  | none => exact hnew id w hv hw
  | some v =>
    obtain ⟨_, r₀, name, now, effects, hn⟩ := hr.worker id v hv
    obtain ⟨w', hw', hdrifts⟩ := hold id v hv
    cases Option.some.inj (hw'.symm.trans hw)
    exact hn.phase.of_drifts hdrifts

end Situation

end SolverPortfolio
