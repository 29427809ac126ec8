import SolverPortfolio.Proofs.Situation

/-
# What a change does to each part of a run

A change of a situation is a response, a move or an intervention, and each of
these changes a few parts of the run. For every part there is one lemma here that
says how it may change: each worker takes a turn in its life or is left alone, the
best value is offered a new one or kept, and so on. Invariants are proved from
these lemmas.

Main definitions: `Message.Passes`, `Worker.Turn`, `Run.Sharing`, `Run.Printing`,
`Run.Kept`.
Main statements: `Situation.Change.turn`, `Situation.Change.worker_cases`,
`Situation.Change.launch_mem`, `Situation.Change.speaking_cases`,
`Situation.Change.sharing`, `Situation.Change.printing`, `Situation.Change.running`.
-/

namespace SolverPortfolio

/-- The line that an effect prints. -/
@[simp] def Effect.line? : Effect → Option String
  | .print line => some line
  | _ => none

/-- The lines that print a solution, the latest first. -/
def Solution.lines (x : Solution) : List String := x.prints.filterMap Effect.line?

/-- The lines printed in a run, the latest first. -/
def Run.lines {α : Type} (r : Run α) : List String := r.effects.filterMap Effect.line?

/-- Processes that are given up print nothing. -/
@[simp] theorem filterMap_line?_release (processes : List ProcessId) :
    processes.filterMap (Effect.line? ∘ Effect.release) = [] := by
  rw [List.filterMap_eq_nil_iff]
  intro process _
  rfl

/-- Reports print nothing. -/
@[simp] theorem filterMap_line?_notice (notes : List Notice) :
    notes.filterMap (Effect.line? ∘ Effect.notice) = [] := by
  rw [List.filterMap_eq_nil_iff]
  intro n _
  rfl

/-- Does a message to a worker leave that worker as it is? -/
def Message.Passes (m : Message) (w : Worker) : Prop :=
  match m with
  | .launched _ generation _ _ =>
    ¬ (w.generation = generation ∧ (w.phase = .converting ∨ w.phase = .restarting))
  | .launchFailed _ generation => ¬ (w.generation = generation ∧ w.isLive)
  | .output _ _ (.bound _) => True
  | .output _ generation _ => ¬ (w.generation = generation ∧ w.isLive)
  | .exited _ generation _ _ =>
    ¬ (w.generation = generation ∧ (w.phase = .solving ∨ w.phase = .suspended))

/-- How a worker changes with an event, or without one. -/
inductive Worker.Turn (goal : Goal) (maxRestarts : Nat) :
    Option RunEvent → Worker → Worker → Prop where
  | still {e : Option RunEvent} {w : Worker}
      (h : ∀ m, e = some (.message m) → m.key.1 = w.id → m.Passes w) :
      Turn goal maxRestarts e w w
  | launched {w : Worker} (now : Instant) (process : ProcessId) (injected : Option Objective)
      (hp : w.phase = .converting ∨ w.phase = .restarting) :
      Turn goal maxRestarts (some (.message (.launched w.id w.generation process injected)))
        w (w.launched now process injected)
  | recorded {w : Worker} (x : Solution) (now : Instant) (hl : w.isLive) :
      Turn goal maxRestarts (some (.message (.output w.id w.generation (.solution x))))
        w (w.recordSolution now goal x.objective).1
  | satisfied {w : Worker} (x : Solution) (now : Instant) (hl : w.isLive) (hg : goal = .satisfy) :
      Turn goal maxRestarts (some (.message (.output w.id w.generation (.solution x))))
        w ((w.recordSolution now goal x.objective).1.terminate .finished)
  | ended {e : Option RunEvent} {w : Worker} (cause : TerminationCause)
      (he : ∀ id generation x, e ≠ some (.message (.output id generation (.solution x)))) :
      Turn goal maxRestarts e w (w.terminate cause)
  | suspended {w : Worker} (hp : w.phase = .solving) :
      Turn goal maxRestarts (some .slotExpired) w w.suspend
  | resumed {w : Worker} (hp : w.phase = .suspended) :
      Turn goal maxRestarts none w w.resume
  | restarted {w : Worker} (switchSearch : Bool) (hp : w.phase = .solving)
      (hr : w.restarts < maxRestarts) :
      Turn goal maxRestarts none w (w.beginRestart switchSearch)

/-- A worker keeps its number, its name and its place. -/
theorem Worker.Turn.keeps {goal : Goal} {maxRestarts : Nat} {e : Option RunEvent}
    {w w' : Worker} (h : Turn goal maxRestarts e w w') :
    w'.id = w.id ∧ w'.name = w.name ∧ w'.placement = w.placement := by
  cases h with
  | recorded x now hl | satisfied x now hl hg =>
    obtain ⟨best, h⟩ := w.exists_recordSolution now goal x.objective
    rw [h]
    exact ⟨rfl, rfl, rfl⟩
  | _ => exact ⟨rfl, rfl, rfl⟩

/-- A worker goes on to the next generation only by a restart, which no event brings about. -/
theorem Worker.Turn.generation {goal : Goal} {maxRestarts : Nat} {e : Option RunEvent}
    {w w' : Worker} (h : Turn goal maxRestarts e w w') :
    w'.generation = w.generation ∨ e = none ∧ w'.generation = w.generation + 1 := by
  cases h with
  | recorded x now hl | satisfied x now hl hg =>
    obtain ⟨best, h⟩ := w.exists_recordSolution now goal x.objective
    rw [h]
    exact Or.inl rfl
  | restarted switchSearch hp hr => exact Or.inr ⟨rfl, rfl⟩
  | _ => exact Or.inl rfl

/-- A worker never goes back to an earlier generation. -/
theorem Worker.Turn.generation_le {goal : Goal} {maxRestarts : Nat} {e : Option RunEvent}
    {w w' : Worker} (h : Turn goal maxRestarts e w w') : w.generation ≤ w'.generation := by
  rcases h.generation with hsame | ⟨-, hnext⟩
  · exact Nat.le_of_eq hsame.symm
  · rw [hnext]
    exact Nat.le_succ _

/-- A worker is restarted only if it solves and was not restarted too often. -/
theorem Worker.restarts_of_stagnation {w : Worker} {now : Instant} {goal : Goal}
    {best : Option Objective} {restartTime : Duration} {maxRestarts : Nat}
    (h : w.stagnation now goal best restartTime maxRestarts = .restart) :
    w.phase = .solving ∧ w.restarts < maxRestarts := by
  unfold stagnation at h
  split at h
  · cases h
  · split at h
    · next hs =>
      split at h
      · next hr => exact ⟨hs.1, hr⟩
      · cases h
    · cases h

namespace Run

variable {α : Type} {now : Instant} {r r' : Run α} {e : RunEvent}

/-! ## The workers -/

/-- In the response to an event, each worker takes a turn. -/
theorem Response.turn (h : Response now r e r') (hr : r.Numbered) {id : WorkerId} {w : Worker}
    (hw : r.worker? id = some w) :
    ∃ w', r'.worker? id = some w' ∧
      Worker.Turn r.goal r.settings.maxRestarts (some e) w w' := by
  obtain rfl := hr id w hw
  -- The worker that an event is about takes the turn of that event; all others let it pass.
  have hpass {m : Message} (hm : m.key.1 = w.id → m.Passes w) :
      Worker.Turn r.goal r.settings.maxRestarts (some (.message m)) w w := by
    refine .still fun m' hm' hkey => ?_
    cases hm'
    exact hm hkey
  have hother {m : Message} (hm : m.key.1 ≠ w.id) :
      Worker.Turn r.goal r.settings.maxRestarts (some (.message m)) w w :=
    hpass fun hkey => absurd hkey hm
  have hquiet {e : RunEvent} (he : ∀ m, e ≠ .message m) :
      Worker.Turn r.goal r.settings.maxRestarts (some e) w w := by
    refine .still fun m hm _ => ?_
    exact absurd (Option.some.inj hm) (he m)
  have hsame {v : Worker} (hv : r.worker? v.id = some v) (hid : v.id = w.id) : v = w := by
    rw [hid] at hv
    exact Option.some.inj (hv.symm.trans hw)
  cases h with
  | launched process injected hv hp =>
    refine exists_getElem?_modify hw (fun hid => hother hid) fun hid => ?_
    obtain rfl := hsame hv hid
    exact .launched now process injected hp
  | refused process injected hv hn =>
    refine ⟨w, hw, hpass fun hid => ?_⟩
    obtain rfl := hsame hv hid
    exact hn
  | failed hv hl =>
    exact exists_getElem?_modify hw (fun hid => hother hid) fun _ => .ended _ (by simp)
  | failedLate hv hn =>
    refine ⟨w, hw, hpass fun hid => ?_⟩
    obtain rfl := hsame hv hid
    exact hn
  | outputLate event hv hn =>
    refine ⟨w, hw, hpass fun hid => ?_⟩
    obtain rfl := hsame hv hid
    cases event with
    | bound value => trivial
    | solution x => exact hn
    | completed status => exact hn
  | bound value notes hv hl => exact ⟨w, hw, hpass fun _ => trivial⟩
  | shown x notes hv hl hg hs | recorded x notes hv hl hg hs | counted x hv hl hg ha
  | surplus x hv hl hg hn =>
    refine exists_getElem?_modify hw (fun hid => hother hid) fun hid => ?_
    obtain rfl := hsame hv hid
    exact .recorded x now hl
  | @satisfied v x hv hl hg hn =>
    by_cases hid : v.id = w.id
    · obtain rfl := hsame hv hid
      refine ⟨(v.recordSolution now r.goal x.objective).1.terminate .finished, ?_,
        .satisfied x now hl hg⟩
      rw [worker?, List.getElem?_modify_eq, List.getElem?_modify_eq, show r.workers[_]? = _ from hw]
      rfl
    · refine ⟨w, ?_, hother hid⟩
      rw [worker?, List.getElem?_modify_ne _ _ hid, List.getElem?_modify_ne _ _ hid]
      exact hw
  | proved n hv hl hp hn | completed notes hv hl hp | exited n hv hp =>
    exact exists_getElem?_modify hw (fun hid => hother hid) fun _ => .ended _ (by simp)
  | exitedLate success code hv hn =>
    refine ⟨w, hw, hpass fun hid => ?_⟩
    obtain rfl := hsame hv hid
    exact hn
  | suspended n hc hs hv hp he =>
    refine exists_getElem?_modify hw (fun _ => hquiet fun _ h => by cases h) fun hid => ?_
    obtain rfl := hsame hv hid
    exact .suspended hp
  | expired n hc hs hv he =>
    exact exists_getElem?_modify hw (fun _ => hquiet fun _ h => by cases h)
      fun _ => .ended _ (by simp)
  | idle h => exact ⟨w, hw, hquiet fun _ h => by cases h⟩
  | aborted n => exact ⟨w, hw, hquiet fun _ h => by cases h⟩
  | paused => exact ⟨w, hw, hquiet fun _ h => by cases h⟩
  | woken => exact ⟨w, hw, hquiet fun _ h => by cases h⟩

/-- A response adds no worker. -/
theorem Response.length_workers (h : Response now r e r') :
    r'.workers.length = r.workers.length := by
  cases h <;> simp

/-- An intervention adds no worker. -/
theorem Intervention.length_workers (h : Intervention now r r') :
    r'.workers.length = r.workers.length := by
  cases h <;> simp

/-- A numbered run stays so in the response to an event. -/
theorem Response.numbered (h : Response now r e r') (hr : r.Numbered) : r'.Numbered := by
  intro id w' hw'
  obtain ⟨hlt, -⟩ := List.getElem?_eq_some_iff.mp hw'
  rw [h.length_workers] at hlt
  have hw : r.worker? id = some r.workers[id] := List.getElem?_eq_getElem hlt
  obtain ⟨v, hv, hturn⟩ := h.turn hr hw
  cases Option.some.inj (hv.symm.trans hw')
  rw [hturn.keeps.1, hr id _ hw]

/-- A run answers a tick with a round, and any other event with a response and moves. -/
theorem handle_cases [Timed α] (hr : r.Numbered) (e : RunEvent) (now : Instant)
    (hknown : ∀ m, e = .message m → ∃ w, r.worker? m.key.1 = some w) :
    (∃ usage, e = .tick usage ∧ Round now r (r.handle e now)) ∨
      ∃ r₁, Response now r e r₁ ∧ Moves now r₁ (r.handle e now) := by
  rcases handle_follows hr e now hknown with ⟨usage, rfl, hwatch⟩ | ⟨r₁, hresponse, hnext⟩
  · exact Or.inl ⟨usage, rfl, hwatch.round hr⟩
  · refine Or.inr ⟨r₁, hresponse, ?_⟩
    have hr₁ := hresponse.numbered hr
    rcases hnext with ⟨hf, -⟩ | ⟨-, -, heq, hidle⟩
    · exact hf.moves hr₁
    · rw [heq]
      exact moves_advance hr₁ now fun slot w hslot hw => absurd hw (hidle slot w hslot)

/-- A move leaves the workers that were there before as they are, or resumes one. -/
theorem Move.worker (h : Move now r r') {id : WorkerId} {w : Worker}
    (hw : r.worker? id = some w) :
    ∃ w', r'.worker? id = some w' ∧ (w' = w ∨ w.phase = .suspended ∧ w' = w.resume) := by
  cases h with
  | report n | plan queue carry | tidy | leave h | keep deadline hv hl hs hc =>
    exact ⟨w, hw, Or.inl rfl⟩
  | resume deadline n hv hs hc =>
    refine exists_getElem?_modify (T := fun w w' => w' = w ∨ w.phase = .suspended ∧ w' = w.resume)
      hw (fun _ => Or.inl rfl) fun hid => ?_
    rw [hid] at hv
    cases Option.some.inj (hv.symm.trans hw)
    exact Or.inr ⟨hs, rfl⟩
  | recruit deadline hn hl hc =>
    refine ⟨w, ?_, Or.inl rfl⟩
    obtain ⟨hlt, -⟩ := List.getElem?_eq_some_iff.mp hw
    rw [worker?, List.getElem?_append_left hlt]
    exact hw

/-- In a move, each worker that was there before takes a turn. -/
theorem Move.turn (h : Move now r r') (goal : Goal) (maxRestarts : Nat) {id : WorkerId}
    {w : Worker} (hw : r.worker? id = some w) :
    ∃ w', r'.worker? id = some w' ∧ Worker.Turn goal maxRestarts none w w' := by
  obtain ⟨w', hw', rfl | ⟨hs, rfl⟩⟩ := h.worker hw
  · exact ⟨w', hw', .still fun _ hm => by cases hm⟩
  · exact ⟨_, hw', .resumed hs⟩

/-- When the monitor intervenes, each worker takes a turn. -/
theorem Intervention.turn (h : Intervention now r r') (hr : r.Numbered) {id : WorkerId}
    {w : Worker} (hw : r.worker? id = some w) :
    ∃ w', r'.worker? id = some w' ∧ Worker.Turn r.goal r.settings.maxRestarts none w w' := by
  obtain rfl := hr id w hw
  have hstill : Worker.Turn r.goal r.settings.maxRestarts none w w := .still fun _ hm => by cases hm
  cases h with
  | finish cause hv => exact exists_getElem?_modify hw (fun _ => hstill) fun _ => .ended _ (by simp)
  | restart n hv hs =>
    refine exists_getElem?_modify hw (fun _ => hstill) fun hid => ?_
    rw [hid] at hv
    cases Option.some.inj (hv.symm.trans hw)
    obtain ⟨hp, hn⟩ := Worker.restarts_of_stagnation hs
    exact .restarted r.settings.switchSearch hp hn

/-- A worker that a move adds is a newcomer. -/
theorem Move.newcomer (h : Move now r r') {id : WorkerId} {w' : Worker}
    (hold : r.worker? id = none) (hw : r'.worker? id = some w') :
    ∃ name effects, r.Newcomer name .queued now w' effects ∧
      ∀ v, r.lastQueued? name = some v → v.isLive = false := by
  cases h with
  | report n | plan queue carry | tidy | leave h | keep deadline hv hl hs hc =>
    cases hold.symm.trans hw
  | resume deadline n hv hs hc =>
    rcases getElem?_modify_cases hw with ⟨_, hw⟩ | ⟨_, v, hw, _⟩
    · cases hold.symm.trans hw
    · cases hold.symm.trans hw
  | recruit deadline hn hl hc =>
    rcases getElem?_concat_cases hw with hw | ⟨_, rfl⟩
    · cases hold.symm.trans hw
    · exact ⟨_, _, hn, hl⟩

/-! ## The best value and the winner -/

/-- How an event, or a change without one, leaves what the workers share. -/
inductive Sharing (r : Run α) : Option RunEvent → Incumbent → Prop where
  | keep {e : Option RunEvent}
      (h : ∀ w value, e = some (.message (.output w.id w.generation (.bound value))) →
        r.worker? w.id = some w → w.isLive = false) :
      Sharing r e r.incumbent
  | offered {w : Worker} (value : Objective) (hw : r.worker? w.id = some w) (hl : w.isLive) :
      Sharing r (some (.message (.output w.id w.generation (.bound value))))
        (r.incumbent.offer value).1
  | proved {w : Worker} {status : SearchStatus} {proof : Proof} (hw : r.worker? w.id = some w)
      (hl : w.isLive) (hp : r.proofOf w status = some proof) (hn : r.incumbent.winner = none) :
      Sharing r (some (.message (.output w.id w.generation (.completed status))))
        (r.incumbent.declareWinner w.name proof).1
  | satisfied {w : Worker} (x : Solution) (hg : r.goal = .satisfy) :
      Sharing r (some (.message (.output w.id w.generation (.solution x))))
        (r.incumbent.declareWinner w.name .satisfied).1
  | cancelled : Sharing r (some (.signal .abort)) r.incumbent.cancel

/-- The goal stays. -/
theorem Sharing.goal {e : Option RunEvent} {i : Incumbent} (h : r.Sharing e i) :
    i.goal = r.goal := by
  cases h with
  | keep h => rfl
  | offered value hw hl => exact Incumbent.goal_offer _ _
  | proved hw hl hp hn => exact Incumbent.goal_declareWinner _ _ _
  | satisfied x hg => exact Incumbent.goal_declareWinner _ _ _
  | cancelled => rfl

/-- What the workers share after the response to an event. -/
theorem Response.sharing (h : Response now r e r') : r.Sharing (some e) r'.incumbent := by
  have hkeep (h : ∀ w value, e = .message (.output w.id w.generation (.bound value)) →
      r.worker? w.id = some w → w.isLive = false) : r.Sharing (some e) r.incumbent :=
    .keep fun w value he => h w value (Option.some.inj he)
  cases h with
  | bound value notes hw hl => exact .offered value hw hl
  | satisfied x hw hl hg hn => exact .satisfied x hg
  | proved n hw hl hp hn => exact .proved hw hl hp hn
  | aborted n => exact .cancelled
  | @outputLate v generation event hv hn =>
    refine hkeep fun w value he hw => ?_
    injection he with he
    injection he with hid hgen hevent
    rw [hid] at hv
    cases Option.some.inj (hv.symm.trans hw)
    exact Bool.eq_false_iff.mpr fun hl => hn ⟨hgen.symm, hl⟩
  | _ => exact hkeep fun w value he => by simp at he

/-! ## Solutions and lines -/

/-- How an event, or a change without one, adds to the solutions and the lines printed. -/
inductive Printing (r r' : Run α) : Option RunEvent → Prop where
  | nothing {e : Option RunEvent} (hp : r'.lastPrinted = r.lastPrinted)
      (hs : r'.solutions = r.solutions) (hl : r'.lines = r.lines)
      (hn : r'.incumbent.winner = r.incumbent.winner)
      (h : ∀ w x, e = some (.message (.output w.id w.generation (.solution x))) →
        r.worker? w.id = some w → w.isLive → r.goal ≠ .satisfy → ¬ r.Shows x) :
      Printing r r' e
  | closing {w : Worker} {status : SearchStatus} {proof : Proof}
      (hn : r'.incumbent.winner = some ⟨w.name, proof⟩) (hp : r'.lastPrinted = r.lastPrinted)
      (hs : r'.solutions = r.solutions) (he : r'.lines = closingLine proof :: r.lines) :
      Printing r r' (some (.message (.output w.id w.generation (.completed status))))
  | shown {w : Worker} {x : Solution} (hw : r.worker? w.id = some w) (hl : w.isLive)
      (hg : r.goal ≠ .satisfy) (hx : r.Shows x)
      (hp : r'.lastPrinted = (x.objective <|> r.lastPrinted))
      (hs : r'.solutions = r.solutions + 1) (he : r'.lines = x.lines ++ r.lines) :
      Printing r r' (some (.message (.output w.id w.generation (.solution x))))
  | satisfying {w : Worker} {x : Solution} (hg : r.goal = .satisfy)
      (hp : r'.lastPrinted = r.lastPrinted) (hs : r'.solutions = r.solutions + 1)
      (he : r'.lines = x.lines ++ r.lines) :
      Printing r r' (some (.message (.output w.id w.generation (.solution x))))

/-- What the response to an event prints. -/
theorem Response.printing (h : Response now r e r') : r.Printing r' (some e) := by
  cases h with
  | shown x notes hw hl hg hs => exact .shown hw hl hg hs rfl rfl (by simp [lines, Solution.lines])
  | counted x hw hl hg ha => exact .satisfying hg rfl rfl (by simp [lines, Solution.lines])
  | satisfied x hw hl hg hn => exact .satisfying hg rfl rfl (by simp [lines, Solution.lines])
  | @proved w status proof n hw hl hp hn =>
    have hwin : (r.incumbent.declareWinner w.name proof).1.winner = some ⟨w.name, proof⟩ := by
      simp [hn]
    exact .closing hwin rfl rfl (by simp [lines, List.filterMap_cons])
  | @recorded v x notes hv hl hg hs =>
    refine .nothing rfl rfl (by simp [lines]) rfl fun w y he hw _ _ => ?_
    injection Option.some.inj he with he
    injection he with _ _ he
    injection he with he
    rw [← he]
    exact hs
  | surplus x hv hl hg hn => exact .nothing rfl rfl rfl rfl fun w y he hw _ hg' => absurd hg hg'
  | @outputLate v generation event hv hn =>
    refine .nothing rfl rfl rfl rfl fun w x he hw hl _ => ?_
    injection Option.some.inj he with he
    injection he with hid hgen hevent
    rw [hid] at hv
    cases Option.some.inj (hv.symm.trans hw)
    exact absurd ⟨hgen.symm, hl⟩ hn
  | launched process injected hw hp =>
    refine .nothing rfl rfl ?_ rfl (by simp)
    cases r.paused <;> rfl
  | bound value notes hw hl =>
    exact .nothing rfl rfl (by simp [lines]) (Incumbent.winner_offer _ _) (by simp)
  | _ => exact .nothing rfl rfl (by simp [lines, List.filterMap_cons]) rfl (by simp)

/-! ## What stays -/

/-- What a run keeps between the responses to two events. -/
structure Kept (r r' : Run α) : Prop where
  settings : r'.settings = r.settings
  incumbent : r'.incumbent = r.incumbent
  running : r'.running = r.running
  lastPrinted : r'.lastPrinted = r.lastPrinted
  solutions : r'.solutions = r.solutions
  lines : r'.lines = r.lines

/-- What is kept twice is kept. -/
theorem Kept.trans {r₁ r₂ : Run α} (h : r.Kept r₁) (h' : r₁.Kept r₂) : r.Kept r₂ where
  settings := h'.settings.trans h.settings
  incumbent := h'.incumbent.trans h.incumbent
  running := h'.running.trans h.running
  lastPrinted := h'.lastPrinted.trans h.lastPrinted
  solutions := h'.solutions.trans h.solutions
  lines := h'.lines.trans h.lines

/-- The launch of a newcomer is asked for with the best value known. -/
theorem Newcomer.launch_mem {name : String} {placement : Placement} {w : Worker}
    {effects : List Effect} (hn : r.Newcomer name placement now w effects)
    {request : LaunchRequest} (hq : .launch request ∈ effects) :
    request.goal = r.goal ∧ request.bound = r.incumbent.best ∧ request.worker = r.workers.length ∧
      w.generation = request.generation := by
  cases hn with
  | launched hf =>
    cases List.mem_singleton.mp hq
    exact ⟨rfl, rfl, rfl, rfl⟩
  | unknown hf n => cases List.mem_singleton.mp hq

/-- A newcomer prints nothing. -/
theorem Newcomer.lines {name : String} {placement : Placement} {w : Worker}
    {effects : List Effect} (hn : r.Newcomer name placement now w effects) :
    effects.filterMap Effect.line? = [] := by
  cases hn <;> rfl

/-- A newcomer has found nothing, has no bound and holds no process. -/
theorem Newcomer.eq_none {name : String} {placement : Placement} {w : Worker}
    {effects : List Effect} (hn : r.Newcomer name placement now w effects) :
    w.best = none ∧ w.injected = none ∧ w.process = none := by
  cases hn <;> exact ⟨rfl, rfl, rfl⟩

/-- What a move keeps. -/
theorem Move.kept (h : Move now r r') : r.Kept r' := by
  cases h with
  | resume deadline n hw hs hc =>
    exact ⟨rfl, rfl, rfl, rfl, rfl, by simp [lines, List.filterMap_cons]⟩
  | recruit deadline hn hl hc =>
    refine ⟨rfl, rfl, rfl, rfl, rfl, ?_⟩
    simp [lines, hn.lines]
  | _ => exact ⟨rfl, rfl, rfl, rfl, rfl, rfl⟩

/-- What moves keep. -/
theorem Moves.kept (h : Moves now r r') : r.Kept r' := by
  induction h with
  | refl => exact ⟨rfl, rfl, rfl, rfl, rfl, rfl⟩
  | tail _ hm ih => exact ih.trans hm.kept

/-- What an intervention keeps. -/
theorem Intervention.kept (h : Intervention now r r') : r.Kept r' := by
  cases h with
  | finish cause hw => exact ⟨rfl, rfl, rfl, rfl, rfl, by simp [lines]⟩
  | restart n hw hs =>
    refine ⟨rfl, rfl, rfl, rfl, rfl, ?_⟩
    simp [lines, List.filterMap_cons]

/-- What a round keeps. -/
theorem Round.kept (h : Round now r r') : r.Kept r' := by
  induction h with
  | refl => exact ⟨rfl, rfl, rfl, rfl, rfl, rfl⟩
  | tail _ hm ih => exact ih.trans (hm.elim (fun hm => hm.kept) fun hi => hi.kept)

/-- A response keeps the settings. -/
theorem Response.settings (h : Response now r e r') : r'.settings = r.settings := by
  cases h <;> rfl

/-- The processes that run after the response to an event. -/
theorem Response.running (h : Response now r e r') :
    r'.running = match e with
      | .message (.launched id generation process _) =>
        r.runningWithout (id, generation) ++ [((id, generation), process)]
      | .message (.exited id generation _ _) => r.runningWithout (id, generation)
      | _ => r.running := by
  cases h <;> rfl

/-- A response asks for no launch. -/
theorem Response.launch_mem (h : Response now r e r') {request : LaunchRequest} :
    .launch request ∈ r'.effects ↔ .launch request ∈ r.effects := by
  cases h <;> simp [Solution.prints] <;> split <;> simp

/-- A request for the current generation of a worker, with the best value known. -/
def IsCurrent (r : Run α) (request : LaunchRequest) : Prop :=
  request.goal = r.goal ∧ request.bound = r.incumbent.best ∧
    ∃ w, r.worker? request.worker = some w ∧ w.generation = request.generation

/-- A move asks for the launch of a newcomer at most. -/
theorem Move.launch_mem (h : Move now r r') {request : LaunchRequest}
    (hq : .launch request ∈ r'.effects) :
    .launch request ∈ r.effects ∨ r'.IsCurrent request := by
  cases h with
  | report n | plan queue carry | tidy | leave h | keep deadline hw hl hs hc =>
    exact Or.inl (by simpa using hq)
  | resume deadline n hw hs hc => exact Or.inl (by simpa using hq)
  | recruit deadline hn hl hc =>
    rcases List.mem_append.mp hq with hq | hq
    · obtain ⟨hg, hb, hid, hgen⟩ := hn.launch_mem hq
      refine Or.inr ⟨hg, hb, _, ?_, hgen⟩
      rw [hid]
      exact List.getElem?_concat_length
    · exact Or.inl hq

/-- An intervention asks for the launch of a restarted worker at most. -/
theorem Intervention.launch_mem (h : Intervention now r r') {request : LaunchRequest}
    (hq : .launch request ∈ r'.effects) :
    .launch request ∈ r.effects ∨ r'.IsCurrent request := by
  cases h with
  | finish cause hw => exact Or.inl (by simpa using hq)
  | @restart w best n hw hs =>
    simp only [List.mem_append, List.mem_map, List.mem_cons, Effect.launch.injEq, reduceCtorEq,
      exists_false, false_or, and_false, Option.mem_toList] at hq
    rcases hq with ⟨solver, _, rfl⟩ | hq
    · right
      refine ⟨rfl, rfl, w.beginRestart r.settings.switchSearch, ?_, rfl⟩
      show (r.workers.modify w.id _)[w.id]? = _
      rw [List.getElem?_modify_eq, show r.workers[w.id]? = _ from hw]
      rfl
    · exact Or.inl hq

end Run

namespace Situation

variable {α : Type} {P : Discipline} {s s' : Situation α} {e : Option RunEvent}

/-! ## Single changes of a situation -/

/-- A change keeps the settings. -/
theorem Change.settings (h : Change P s e s') : s'.run.settings = s.run.settings := by
  cases h with
  | respond now hs hr => exact hr.settings
  | move now hm => exact hm.kept.settings
  | intervene now hi => exact hi.kept.settings

/-- What the workers share after a change. -/
theorem Change.sharing (h : Change P s e s') : s.run.Sharing e s'.run.incumbent := by
  have hkeep : s.run.Sharing none s.run.incumbent := .keep fun w value he => by cases he
  cases h with
  | respond now hs hr => exact hr.sharing
  | move now hm => exact hm.kept.incumbent ▸ hkeep
  | intervene now hi => exact hi.kept.incumbent ▸ hkeep

/-- A change keeps the goal. -/
theorem Change.goal (h : Change P s e s') : s'.run.goal = s.run.goal :=
  h.sharing.goal

/-- What a change prints. -/
theorem Change.printing (h : Change P s e s') : s.run.Printing s'.run e := by
  have hkept {r' : Run α} (hk : s.run.Kept r') : s.run.Printing r' none :=
    .nothing hk.lastPrinted hk.solutions hk.lines (by rw [hk.incumbent]) fun w x he => by cases he
  cases h with
  | respond now hs hr => exact hr.printing
  | move now hm => exact hkept hm.kept
  | intervene now hi => exact hkept hi.kept

/-- The launches asked for after a change. -/
theorem Change.launch_mem (h : Change P s e s') {request : LaunchRequest}
    (hq : .launch request ∈ s'.run.effects) :
    .launch request ∈ s.run.effects ∨ s'.run.IsCurrent request := by
  cases h with
  | respond now hs hr => exact Or.inl (hr.launch_mem.mp hq)
  | move now hm => exact hm.launch_mem hq
  | intervene now hi => exact hi.launch_mem hq

/-- In a change, each worker that was there before takes a turn. -/
theorem Change.turn (h : Change P s e s') (hr : s.run.Numbered) {id : WorkerId} {w : Worker}
    (hw : s.run.worker? id = some w) :
    ∃ w', s'.run.worker? id = some w' ∧
      Worker.Turn s.run.goal s.run.settings.maxRestarts e w w' := by
  cases h with
  | respond now hs hresp => exact hresp.turn hr hw
  | move now hm => exact hm.turn _ _ hw
  | intervene now hi => exact hi.turn hr hw

/-- A change keeps the workers numbered. -/
theorem Change.numbered (h : Change P s e s') (hr : s.run.Numbered) : s'.run.Numbered := by
  cases h with
  | respond now hs hresp => exact hresp.numbered hr
  | move now hm => exact hm.numbered hr
  | intervene now hi => exact hi.numbered hr

/-- A worker after a change has taken a turn, or is a newcomer. -/
theorem Change.worker_cases (h : Change P s e s') (hr : s.run.Numbered) {id : WorkerId}
    {w' : Worker} (hw : s'.run.worker? id = some w') :
    (∃ w, s.run.worker? id = some w ∧
      Worker.Turn s.run.goal s.run.settings.maxRestarts e w w') ∨
    (e = none ∧ s.run.worker? id = none ∧ ∃ name now effects,
      s.run.Newcomer name .queued now w' effects ∧
        ∀ v, s.run.lastQueued? name = some v → v.isLive = false) := by
  cases hold : s.run.worker? id with
  | some w =>
    obtain ⟨v, hv, hturn⟩ := h.turn hr hold
    cases Option.some.inj (hv.symm.trans hw)
    exact Or.inl ⟨w, rfl, hturn⟩
  | none =>
    right
    have hlen := List.getElem?_eq_none_iff.mp hold
    obtain ⟨hlt, -⟩ := List.getElem?_eq_some_iff.mp hw
    cases h with
    | respond now hs hresp =>
      rw [run_after, hresp.length_workers] at hlt
      omega
    | move now hm =>
      obtain ⟨name, effects, hn, hl⟩ := hm.newcomer hold hw
      exact ⟨rfl, rfl, name, now, effects, hn, hl⟩
    | intervene now hi =>
      rw [hi.length_workers] at hlt
      omega

/-- A launch task sends a message, or is left alone by a change. -/
theorem Change.progress_cases (h : Change P s e s') (key : WorkerId × Nat) :
    (∃ m, e = some (.message m) ∧ m.key = key ∧ Sends P s.run (s.progress key) m ∧
      s'.progress key = (s.progress key).after m) ∨
    (s'.progress key = s.progress key ∧ ∀ m, e = some (.message m) → m.key ≠ key) := by
  cases h with
  | @respond e r' now hs hresp =>
    cases e with
    | message m =>
      by_cases hk : m.key = key
      · subst hk
        exact Or.inl ⟨m, rfl, rfl, hs, Function.update_self _ _ _⟩
      · refine Or.inr ⟨Function.update_of_ne (Ne.symm hk) _ _, fun m' hm' => ?_⟩
        cases hm'
        exact hk
    | slotExpired => exact Or.inr ⟨rfl, fun m hm => by cases hm⟩
    | tick usage => exact Or.inr ⟨rfl, fun m hm => by cases hm⟩
    | signal signal => exact Or.inr ⟨rfl, fun m hm => by cases hm⟩
  | move now hm => exact Or.inr ⟨rfl, fun m hm => by cases hm⟩
  | intervene now hi => exact Or.inr ⟨rfl, fun m hm => by cases hm⟩

/-- A message that is taken up was sent by its launch task. -/
theorem Change.sends {m : Message} (h : Change P s (some (.message m)) s') :
    Sends P s.run (s.progress m.key) m := by
  cases h with
  | respond now hs hresp => exact hs

/-- A launch task that speaks did so before, has just reported a process, or has just told what
this printed. -/
theorem Change.speaking_cases (h : Change P s e s') {key : WorkerId × Nat}
    {injected : Option Objective} {said : List StreamEvent}
    (hs : s'.progress key = .speaking injected said) :
    s.progress key = .speaking injected said ∨
    (said = [] ∧ ∃ process, e = some (.message (.launched key.1 key.2 process injected))) ∨
    ∃ said' event, e = some (.message (.output key.1 key.2 event)) ∧ said = said' ++ [event] ∧
      s.progress key = .speaking injected said' ∧ P injected said := by
  rcases h.progress_cases key with ⟨m, rfl, rfl, hsends, hnext⟩ | ⟨hsame, _⟩
  · right
    rw [hnext] at hs
    rcases LaunchProgress.after_eq_speaking hs with
      ⟨_, hsaid, id, generation, process, rfl⟩ | ⟨said', event, hp, hsaid, id, generation, rfl⟩
    · exact Or.inl ⟨hsaid, process, rfl⟩
    · obtain ⟨injected', said'', hp', hP⟩ := hsends.of_output
      cases hp.symm.trans hp'
      exact Or.inr ⟨said', event, rfl, hsaid, hp, hsaid ▸ hP⟩
  · exact Or.inl (hsame ▸ hs)

/-- An event prints nothing as long as no solution is counted. -/
theorem printed_after_of_eq (s : Situation α) (e : RunEvent) {r' : Run α}
    (h : r'.solutions = s.run.solutions) : (s.after e r').printed = s.printed := by
  unfold after
  dsimp only
  split
  · rw [if_pos h]
  · rfl

/-- A change that counts no solution prints none. -/
theorem Change.printed_of_eq (h : Change P s e s') (hs : s'.run.solutions = s.run.solutions) :
    s'.printed = s.printed := by
  cases h with
  | respond now hh hr => exact s.printed_after_of_eq _ hs
  | move now hm => rfl
  | intervene now hi => rfl

/-- A change that counts a solution prints it. -/
theorem Change.printed_solution {id : WorkerId} {generation : Nat} {x : Solution}
    (h : Change P s (some (.message (.output id generation (.solution x)))) s')
    (hs : s'.run.solutions = s.run.solutions + 1) : s'.printed = x :: s.printed := by
  cases h with
  | respond now hh hr =>
    rw [run_after] at hs
    refine if_neg ?_
    omega

/-- The processes that run after a change. -/
theorem Change.running (h : Change P s e s') :
    s'.run.running = match e with
      | some (.message (.launched id generation process _)) =>
        s.run.runningWithout (id, generation) ++ [((id, generation), process)]
      | some (.message (.exited id generation _ _)) => s.run.runningWithout (id, generation)
      | _ => s.run.running := by
  cases h with
  | respond now hs hr =>
    rw [run_after, hr.running]
    cases hr <;> rfl
  | move now hm => exact hm.kept.running
  | intervene now hi => exact hi.kept.running

end Situation

end SolverPortfolio
