import SolverPortfolio.Supervision.Queue
import Mathlib.Logic.Relation

/-
# What a run does of its own accord

When a worker ends, a run looks for the next slot to serve, and may resume,
launch or pass over several workers until one slot is settled. `Run.Move` lists
the single changes of which all this is made, each with what is known when it is
made. A property that no move breaks therefore survives the end of any worker,
whatever the queue does next.

Main definitions: `Run.Numbered`, `Run.Newcomer`, `Run.Move`, `Run.Moves`, `Run.Follow`.
Main statements: `Run.moves_advance`, `Run.follows_terminate`, `Run.Follows.moves`.
-/

namespace SolverPortfolio

/-! ## Lists of which one element changes -/

/-- An element of a changed list was there before, or is the changed one. -/
theorem getElem?_modify_cases {β : Type} {l : List β} {f : β → β} {i j : Nat} {x : β}
    (h : (l.modify i f)[j]? = some x) :
    (i ≠ j ∧ l[j]? = some x) ∨ (i = j ∧ ∃ y, l[j]? = some y ∧ f y = x) := by
  by_cases hij : i = j
  · subst hij
    rw [List.getElem?_modify_eq] at h
    exact Or.inr ⟨rfl, Option.map_eq_some_iff.mp h⟩
  · rw [List.getElem?_modify_ne _ _ hij] at h
    exact Or.inl ⟨hij, h⟩

/-- What holds of the elements of a list and of the changed element holds of the elements of the
changed list. -/
theorem exists_getElem?_modify {β : Type} {l : List β} {i j : Nat} {f : β → β} {x : β}
    {T : β → β → Prop} (hx : l[j]? = some x) (hne : i ≠ j → T x x) (heq : i = j → T x (f x)) :
    ∃ y, (l.modify i f)[j]? = some y ∧ T x y := by
  by_cases hij : i = j
  · subst hij
    exact ⟨f x, by rw [List.getElem?_modify_eq, hx]; rfl, heq rfl⟩
  · exact ⟨x, by rw [List.getElem?_modify_ne _ _ hij, hx], hne hij⟩

/-- An element of a list that was added to was there before, or is the added one. -/
theorem getElem?_concat_cases {β : Type} {l : List β} {a x : β} {j : Nat}
    (h : (l ++ [a])[j]? = some x) : l[j]? = some x ∨ (j = l.length ∧ x = a) := by
  rcases Nat.lt_trichotomy j l.length with hj | hj | hj
  · left
    rwa [List.getElem?_append_left hj] at h
  · right
    subst hj
    rw [List.getElem?_concat_length] at h
    exact ⟨rfl, (Option.some.inj h).symm⟩
  · rw [List.getElem?_eq_none (by simp; omega)] at h
    cases h

/-- A change of the element added last. -/
theorem modify_concat_length {β : Type} (l : List β) (a : β) (f : β → β) :
    (l ++ [a]).modify l.length f = l ++ [f a] := by
  induction l with
  | nil => rfl
  | cons b l ih => simp [ih]

namespace Run

variable {α : Type}

/-! ## Numbers of workers -/

/-- Every worker knows its place among the workers. -/
def Numbered (r : Run α) : Prop := ∀ id w, r.worker? id = some w → w.id = id

/-- A worker of a numbered run is found under its own number. -/
theorem Numbered.worker?_id {r : Run α} (h : r.Numbered) {id : WorkerId} {w : Worker}
    (hw : r.worker? id = some w) : r.worker? w.id = some w := by
  rw [h id w hw]
  exact hw

/-- The workers of a numbered run stand in the order of their numbers. -/
theorem Numbered.pairwise {r : Run α} (h : r.Numbered) :
    r.workers.Pairwise fun a b => a.id < b.id := by
  rw [List.pairwise_iff_getElem]
  intro i j hi hj hij
  rw [h i _ (List.getElem?_eq_getElem hi), h j _ (List.getElem?_eq_getElem hj)]
  exact hij

/-- A changed worker keeps its number as long as the change does. -/
theorem Numbered.modify {r r' : Run α} (h : r.Numbered) {id : WorkerId} {f : Worker → Worker}
    (hr : r'.workers = r.workers.modify id f) (hf : ∀ w, (f w).id = w.id) : r'.Numbered := by
  intro other w hw
  rw [worker?, hr] at hw
  rcases getElem?_modify_cases hw with ⟨_, hw⟩ | ⟨_, v, hv, rfl⟩
  · exact h other w hw
  · rw [hf, h other v hv]

/-! ## The worker added last for a solver -/

/-- The worker added last for a solver takes its turns on the shared core. -/
theorem Numbered.lastQueued? {r : Run α} (h : r.Numbered) {solver : String} {w : Worker}
    (hw : r.lastQueued? solver = some w) :
    r.worker? w.id = some w ∧ w.placement = .queued ∧ w.name = solver := by
  have hmem := List.mem_of_getLast? hw
  rw [List.mem_filter, decide_eq_true_eq] at hmem
  obtain ⟨i, hi⟩ := List.mem_iff_getElem?.mp hmem.1
  exact ⟨h.worker?_id hi, hmem.2⟩

/-- No worker of the shared core was added after the last one for its solver. -/
theorem Numbered.exists_lastQueued? {r : Run α} (h : r.Numbered) {id : WorkerId} {v : Worker}
    (hv : r.worker? id = some v) (hq : v.placement = .queued) :
    ∃ w, r.lastQueued? v.name = some w ∧ (v = w ∨ v.id < w.id) := by
  have hmem : v ∈ r.workers.filter fun w => w.placement = .queued ∧ w.name = v.name := by
    rw [List.mem_filter, decide_eq_true_eq]
    exact ⟨List.mem_iff_getElem?.mpr ⟨id, hv⟩, hq, rfl⟩
  obtain ⟨w, hw⟩ : ∃ w, r.lastQueued? v.name = some w := by
    rw [← Option.isSome_iff_exists, Option.isSome_iff_ne_none, Ne, Run.lastQueued?,
      List.getLast?_eq_none_iff]
    exact List.ne_nil_of_mem hmem
  refine ⟨w, hw, ?_⟩
  obtain ⟨before, hbefore⟩ := List.getLast?_eq_some_iff.mp hw
  have hsorted := h.pairwise.filter fun w => decide (w.placement = .queued ∧ w.name = v.name)
  rw [hbefore] at hsorted hmem
  rcases List.mem_append.mp hmem with hin | hin
  · exact Or.inr ((List.pairwise_append.mp hsorted).2.2 v hin w (List.mem_singleton_self w))
  · exact Or.inl (List.mem_singleton.mp hin)

/-! ## Single changes -/

/-- A worker that was just added for a solver, and what its launch asks for. -/
inductive Newcomer (r : Run α) (name : String) (placement : Placement) (now : Instant) :
    Worker → List Effect → Prop where
  | launched {solver : Solver} (h : r.table.find? name = some solver) :
      Newcomer r name placement now
        (Worker.new r.workers.length name placement r.settings.freeSearch).startConverting
        [.launch (r.request
          (Worker.new r.workers.length name placement r.settings.freeSearch) solver now)]
  | unknown (h : r.table.find? name = none) (n : Notice) :
      Newcomer r name placement now
        ((Worker.new r.workers.length name placement r.settings.freeSearch).terminate
          .conversionFailure)
        [.notice n]

/-- One change that a run makes of its own accord. -/
inductive Move (now : Instant) (r : Run α) : Run α → Prop where
  /-- Something is reported. -/
  | report (n : Notice) : Move now r { r with effects := .notice n :: r.effects }
  /-- Other slots are to come, or other time is left over. -/
  | plan (queue : Schedule α) (carry : Duration) : Move now r { r with queue, carry }
  /-- Workers that are suspended no more are taken from the list of those that are. -/
  | tidy : Move now r { r with suspended := r.suspended.filter r.isSuspended }
  /-- The slot being served ends; its worker has ended or is suspended. -/
  | leave
      (h : ∀ slot w, r.current = some slot → r.worker? slot.worker = some w →
        w.phase = .terminated ∨ w.phase = .suspended) :
      Move now r { r with current := none }
  /-- A suspended worker goes on, and the slot of its solver is served. -/
  | resume {w : Worker} (deadline : Instant) (n : Notice) (hw : r.worker? w.id = some w)
      (hs : w.phase = .suspended) (hc : r.current = none) :
      Move now r { r with
        workers := r.workers.modify w.id (·.resume)
        suspended := r.suspended.filter (· ≠ w.id)
        current := some ⟨w.id, deadline⟩
        effects := .notice n :: (w.process.toList.map .wake ++ r.effects) }
  /-- The slot of a worker that has work to do is served. -/
  | keep {w : Worker} (deadline : Instant) (hw : r.worker? w.id = some w)
      (hl : w.isLive) (hs : w.phase ≠ .suspended) (hc : r.current = none)
      (hq : w.placement = .queued) :
      Move now r { r with current := some ⟨w.id, deadline⟩ }
  /-- A worker is added for a solver that has no live one on the shared core; its slot is served
  unless it ends at once. -/
  | recruit {name : String} {w : Worker} {effects : List Effect} (deadline : Instant)
      (hn : r.Newcomer name .queued now w effects)
      (hl : ∀ v, r.lastQueued? name = some v → v.isLive = false) (hc : r.current = none) :
      Move now r { r with
        workers := r.workers ++ [w]
        current := if w.isLive then some ⟨w.id, deadline⟩ else none
        effects := effects ++ r.effects }

/-- What a run does of its own accord, one change after another. -/
abbrev Moves (now : Instant) : Run α → Run α → Prop := Relation.ReflTransGen (Move now)

/-- A newcomer has the number after all others. -/
theorem Newcomer.id_eq {r : Run α} {name : String} {placement : Placement} {now : Instant}
    {w : Worker} {effects : List Effect} (h : r.Newcomer name placement now w effects) :
    w.id = r.workers.length := by
  cases h <;> rfl

/-- A numbered run stays so when a newcomer is added. -/
theorem Newcomer.numbered {r : Run α} {name : String} {placement : Placement} {now : Instant}
    {w : Worker} {effects : List Effect} (h : r.Newcomer name placement now w effects)
    (hr : r.Numbered) {r' : Run α} (hr' : r'.workers = r.workers ++ [w]) : r'.Numbered := by
  intro id v hv
  rw [worker?, hr'] at hv
  rcases getElem?_concat_cases hv with hv | ⟨rfl, rfl⟩
  · exact hr id v hv
  · exact h.id_eq

/-- A numbered run stays so. -/
theorem Move.numbered {now : Instant} {r r' : Run α} (h : Move now r r') (hr : r.Numbered) :
    r'.Numbered := by
  cases h with
  | report n => exact hr
  | plan queue carry => exact hr
  | tidy => exact hr
  | leave h => exact hr
  | resume deadline n hw hs hc => exact hr.modify rfl fun _ => rfl
  | keep deadline hw hl hs hc => exact hr
  | recruit deadline hn hl hc => exact hn.numbered hr rfl

/-- A numbered run stays so, however much it does. -/
theorem Moves.numbered {now : Instant} {r r' : Run α} (h : Moves now r r') (hr : r.Numbered) :
    r'.Numbered := by
  induction h with
  | refl => exact hr
  | tail _ hm ih => exact hm.numbered ih

/-! ## The steps of a run in terms of its fields -/

/-- Changing a worker and giving up its process, in terms of the fields of the run. -/
theorem releaseProcess_updateWorker (r : Run α) (id : WorkerId) (f : Worker → Worker)
    (process : Option ProcessId) :
    (r.updateWorker id f).releaseProcess process = { r with
      workers := r.workers.modify id f
      effects := process.toList.map .release ++ r.effects } := by
  cases process <;> rfl

/-- Ending a worker changes that worker, and gives up its process. -/
theorem endWorker_eq {r : Run α} {id : WorkerId} {w : Worker} (hw : r.worker? id = some w)
    (cause : TerminationCause) :
    r.endWorker id cause = { r with
      workers := r.workers.modify id (·.terminate cause)
      effects := w.process.toList.map .release ++ r.effects } := by
  rw [endWorker, hw]
  exact r.releaseProcess_updateWorker id _ w.process

/-- A worker that was ended has ended. -/
theorem phase_endWorker {r : Run α} {id : WorkerId} {cause : TerminationCause} {w : Worker}
    (hw : (r.endWorker id cause).worker? id = some w) : w.phase = .terminated := by
  cases hw₀ : r.worker? id with
  | none =>
    simp only [endWorker, hw₀] at hw
    cases hw
  | some v =>
    rw [endWorker_eq hw₀, worker?] at hw
    rcases getElem?_modify_cases hw with ⟨hne, _⟩ | ⟨_, u, _, rfl⟩
    · exact absurd rfl hne
    · rfl

/-- A launch that finds the solver asks for its process. -/
theorem launch_of_find {r : Run α} {id : WorkerId} {w : Worker} {solver : Solver} {now : Instant}
    (hw : r.worker? id = some w) (hfind : r.table.find? w.name = some solver) :
    r.launch id now = { r with
      workers := if w.phase = .ready then r.workers.modify id (·.startConverting) else r.workers
      effects := .launch (r.request w solver now) :: r.effects } := by
  rw [launch, hw]
  simp only [hfind]
  split
  · rfl
  · rfl

/-- A launch that finds no solver asks for nothing and ends the worker. -/
theorem launch_of_not_find {r : Run α} {id : WorkerId} {w : Worker} {now : Instant}
    (hw : r.worker? id = some w) (hfind : r.table.find? w.name = none) :
    r.launch id now = { r with
      workers := r.workers.modify id (·.terminate .conversionFailure)
      effects := w.process.toList.map .release ++
        .notice (.error s!"solver '{w.name}' is not in the solver table") :: r.effects } := by
  rw [launch, hw]
  simp only [hfind]
  exact endWorker_eq (r := r.note _) hw _

/-- Adding a worker and launching it adds a newcomer. -/
theorem exists_newcomer (r : Run α) (name : String) (placement : Placement) (now : Instant) :
    ∃ w effects, r.Newcomer name placement now w effects ∧
      r.addAndLaunch name placement now
        = { r with workers := r.workers ++ [w], effects := effects ++ r.effects } := by
  have hself := worker?_addWorker_self r name placement
  cases hs : r.table.find? name with
  | none =>
    refine ⟨_, _, Newcomer.unknown hs
      (.error s!"solver '{name}' is not in the solver table"), ?_⟩
    rw [addAndLaunch, launch_of_not_find hself hs]
    simp [addWorker, modify_concat_length, Worker.new]
  | some solver =>
    refine ⟨_, _, Newcomer.launched hs, ?_⟩
    rw [addAndLaunch, launch_of_find hself hs]
    simp [addWorker, modify_concat_length, Worker.new, request, goal, remaining]

/-- Resuming a worker changes that worker, and wakes its process. -/
theorem resumeWorker_eq (r : Run α) (w : Worker) :
    ∃ n, r.resumeWorker w = { r with
      workers := r.workers.modify w.id (·.resume)
      suspended := r.suspended.filter (· ≠ w.id)
      effects := .notice n :: (w.process.toList.map .wake ++ r.effects) } := by
  refine ⟨.info s!"resumed solver '{w.name}'", ?_⟩
  unfold resumeWorker
  cases w.process <;> rfl

/-! ## The queue -/

/-- The run that is left when a slot was served or passed over. -/
def Served.run : Served α → Run α
  | .passed r => r
  | .settled r => r

/-- A slot for which a worker is added is served by moves, and no slot is current when it was
passed over. -/
theorem moves_serveNewWorker {r : Run α} (slot : Slot α) (allotted : Duration)
    (deadline now : Instant) (hc : r.current = none)
    (hl : ∀ v, r.lastQueued? slot.solver = some v → v.isLive = false) :
    Moves now r (r.serveNewWorker slot allotted deadline now).run ∧
      ∀ r', r.serveNewWorker slot allotted deadline now = .passed r' → r'.current = none := by
  obtain ⟨w, effects, hn, heq⟩ := r.exists_newcomer slot.solver .queued now
  have hmove := Move.recruit deadline hn hl hc
  have hlive : (r.addAndLaunch slot.solver .queued now).isLive r.workers.length = w.isLive := by
    simp only [isLive, worker?, heq, List.getElem?_concat_length]
  simp only [serveNewWorker, hlive]
  cases hw : w.isLive with
  | true =>
    simp only [hw, hn.id_eq, if_true] at hmove
    simp only [heq, if_true]
    exact ⟨Relation.ReflTransGen.single hmove, fun r' h => by cases h⟩
  | false =>
    simp only [hw, Bool.false_eq_true, if_false, ← hc] at hmove
    simp only [heq, Bool.false_eq_true, if_false]
    refine ⟨(Relation.ReflTransGen.single hmove).tail (Move.plan r.queue _), ?_⟩
    intro r' h
    cases h
    exact hc

variable [Timed α]

/-- Looking for the next slot is planning, and settles no slot. -/
theorem moves_nextSlot (r : Run α) (now : Instant) :
    Moves now r (r.nextSlot now).2 ∧ (r.nextSlot now).2.current = r.current := by
  unfold nextSlot
  split
  · next slot rest hq =>
    exact ⟨Relation.ReflTransGen.single (Move.plan rest r.carry), rfl⟩
  · next hq =>
    have htidy : Moves now r { r with suspended := r.suspended.filter r.isSuspended } :=
      Relation.ReflTransGen.single Move.tidy
    dsimp only
    split
    · exact ⟨htidy, rfl⟩
    · split
      · exact ⟨htidy, rfl⟩
      · next slot rest hs => exact ⟨htidy.tail (Move.plan rest r.carry), rfl⟩

/-- A slot is served by moves, and no slot is current when it was passed over. -/
theorem moves_serveSlot {r : Run α} (hr : r.Numbered) (slot : Slot α) (now : Instant)
    (hc : r.current = none) :
    Moves now r (r.serveSlot slot now).run ∧
      ∀ r', r.serveSlot slot now = .passed r' → r'.current = none := by
  unfold serveSlot
  split
  · dsimp only
    split
    · exact ⟨Relation.ReflTransGen.refl, fun r' h => by cases h⟩
    · have hplan : Moves now r { r with carry := 0 } :=
        Relation.ReflTransGen.single (Move.plan r.queue 0)
      split
      · next hlast =>
        obtain ⟨hm, hp⟩ := moves_serveNewWorker (r := { r with carry := 0 }) slot _ _ now hc
          fun v hv => absurd (hlast.symm.trans hv) (by simp)
        exact ⟨hplan.trans hm, hp⟩
      · next w hlast =>
        obtain ⟨hw, hq, -⟩ := hr.lastQueued? hlast
        split
        · next hlive =>
          refine ⟨?_, fun r' h => by cases h⟩
          split
          · next hs =>
            obtain ⟨n, hn⟩ := resumeWorker_eq { r with carry := 0 } w
            rw [hn]
            exact hplan.tail (Move.resume _ n hw hs hc)
          · next hs => exact hplan.tail (Move.keep _ hw hlive hs hc hq)
        · next hlive =>
          have hdead : ∀ v, r.lastQueued? slot.solver = some v → v.isLive = false := by
            intro v hv
            cases hlast.symm.trans hv
            simpa using hlive
          split
          · obtain ⟨hm, hp⟩ :=
              moves_serveNewWorker (r := { r with carry := 0 }) slot _ _ now hc hdead
            exact ⟨hplan.trans hm, hp⟩
          · refine ⟨(hplan.tail (Move.report _)).tail (Move.plan r.queue _), ?_⟩
            intro r' h
            cases h
            exact hc
  · refine ⟨Relation.ReflTransGen.single (Move.report _), ?_⟩
    intro r' h
    cases h
    exact hc

/-- Taking slots until one is settled is made of moves. -/
theorem moves_serve? {now : Instant} (fuel : Nat) {r r' : Run α} (hr : r.Numbered)
    (hc : r.current = none) (h : serve? fuel r now = some r') : Moves now r r' := by
  -- The induction is on the fuel; a slot that is passed over leaves no slot current again.
  induction fuel generalizing r with
  | zero => cases h
  | succ fuel ih =>
    obtain ⟨hnext, hcur⟩ := r.moves_nextSlot now
    rw [serve?] at h
    split at h
    · next r₁ hslot =>
      rw [hslot] at hnext
      cases h
      exact hnext
    · next slot r₁ hslot =>
      rw [hslot] at hnext hcur
      have hr₁ := hnext.numbered hr
      obtain ⟨hm, hp⟩ := moves_serveSlot hr₁ slot now (hcur.trans hc)
      split at h
      · next r₂ hserved =>
        cases h
        rw [hserved] at hm
        exact hnext.trans hm
      · next r₂ hserved =>
        rw [hserved] at hm
        exact (hnext.trans hm).trans (ih (hm.numbered hr₁) (hp r₂ hserved) h)

/-- Going on to the next slot is made of moves, if the worker of the current one has ended or is
suspended. -/
theorem moves_advance {r : Run α} (hr : r.Numbered) (now : Instant)
    (h : ∀ slot w, r.current = some slot → r.worker? slot.worker = some w →
      w.phase = .terminated ∨ w.phase = .suspended) :
    Moves now r (r.advance now) := by
  have hleave : Moves now r { r with current := none } :=
    Relation.ReflTransGen.single (Move.leave h)
  unfold advance
  dsimp only
  split
  · exact hleave
  · cases hs : serve? (r.queue.length + r.suspended.length + 2) { r with current := none } now with
    | none => exact hleave
    | some r' => exact hleave.trans (moves_serve? _ (hleave.numbered hr) rfl hs)

/-! ## The end of a worker -/

/-- What a run does when a worker has ended: it reports something, or hands the rest of the slot of
a worker that has ended to the next one. -/
inductive Follow (now : Instant) (r : Run α) : Run α → Prop where
  | report (n : Notice) : Follow now r { r with effects := .notice n :: r.effects }
  | handOver {slot : CurrentSlot} (hc : r.current = some slot)
      (hw : ∀ w, r.worker? slot.worker = some w → w.phase = .terminated) :
      Follow now r ({ r with carry := r.carry + (slot.deadline - now) }.advance now)

/-- What a run does when workers have ended, one thing after another. -/
abbrev Follows (now : Instant) : Run α → Run α → Prop := Relation.ReflTransGen (Follow now)

/-- A slot is handed over by moves. -/
theorem Follow.moves {now : Instant} {r r' : Run α} (h : Follow now r r') (hr : r.Numbered) :
    Moves now r r' := by
  cases h with
  | report n => exact Relation.ReflTransGen.single (Move.report n)
  | @handOver slot hc hw =>
    have hplan : Moves now r _ := Relation.ReflTransGen.single
      (Move.plan r.queue (r.carry + (slot.deadline - now)))
    refine hplan.trans (moves_advance (Moves.numbered hplan hr) now ?_)
    intro slot' w hslot' hw'
    cases hc.symm.trans hslot'
    exact Or.inl (hw w hw')

/-- What follows is made of moves. -/
theorem Follows.moves {now : Instant} {r r' : Run α} (h : Follows now r r') (hr : r.Numbered) :
    Moves now r r' := by
  induction h with
  | refl => exact Relation.ReflTransGen.refl
  | tail _ hf ih => exact ih.trans (hf.moves (Moves.numbered ih hr))

/-- The slot of a worker that is ended is handed over. -/
theorem follows_terminate (r : Run α) (id : WorkerId) (cause : TerminationCause) (now : Instant) :
    Follows now (r.endWorker id cause) (r.terminate id cause now) := by
  unfold terminate
  dsimp only
  split
  · exact Relation.ReflTransGen.refl
  · next slot hslot =>
    split
    · next hid =>
      refine Relation.ReflTransGen.single (Follow.handOver hslot ?_)
      intro w hw
      rw [hid] at hw
      exact phase_endWorker hw
    · exact Relation.ReflTransGen.refl

end Run

end SolverPortfolio
