import SolverPortfolio.Proofs.SharedCore

/-
# Slots taken from the queue

When a slot of the shared core ends, a run takes slots from the queue until one is
settled. `Run.Takes` records the slots that are taken, each with what is served for
it; `Run.Handles` does so for all that an event brings about. Between two slots the
run leaves the shared core alone, whatever its workers do.

Main definitions: `Appointment`, `Worker.Abides`, `Run.Serving`, `Run.Takes`, `Run.Advances`,
`Run.Calm`, `Run.Attends`, `Run.Handles`.
Main statements: `Run.serving_serveSlot`, `Run.exists_advances`, `Run.exists_handles`.
-/

namespace SolverPortfolio

/-- A slot taken from the queue, and what is served for it, if anything is. -/
structure Appointment (α : Type) where
  slot : Slot α
  served : Option CurrentSlot

/-- A worker stays where it is placed, and goes on resting if it rests. -/
def Worker.Abides (w w' : Worker) : Prop := w'.placement = w.placement ∧ (w.Rests → w'.Rests)

namespace Run

variable {α : Type} [Timed α] {now : Instant} {r r' : Run α} {slot : Slot α}

/-! ## Serving a slot -/

/-- The time that a slot is served for, if enough time is left: its own, which is all the time left
if it is too long for a duration, and what earlier slots have left over. -/
def allotment (r : Run α) (slot : Slot α) (now : Instant) : Duration :=
  ((Timed.duration? slot.seconds).getD (r.remaining now)).saturatingAdd r.carry

/-- What becomes of a slot, as far as the shared core is concerned. -/
inductive Serving (r : Run α) (slot : Slot α) (now : Instant) : Served α → Prop where
  | unallotted (hp : Timed.isPositive slot.seconds = false) (n : Notice) :
      Serving r slot now (.passed (r.note n))
  | late (hp : Timed.isPositive slot.seconds) (h : r.remaining now < shortestSlot) :
      Serving r slot now (.settled r)
  | skipped (hp : Timed.isPositive slot.seconds) (h : shortestSlot ≤ r.remaining now)
      (workers : List Worker) (effects : List Effect) :
      Serving r slot now
        (.passed { r with workers, effects, carry := r.allotment slot now })
  | served (hp : Timed.isPositive slot.seconds) (h : shortestSlot ≤ r.remaining now)
      (workers : List Worker) (effects : List Effect) (suspended : List WorkerId)
      (worker : WorkerId) :
      Serving r slot now (.settled { r with
        workers, effects, suspended
        carry := 0
        current := some ⟨worker, now + min (r.allotment slot now) (r.remaining now)⟩ })

/-- A slot for which a worker is added is served, or is passed over when the worker ends at
once. -/
theorem serving_serveNewWorker (hp : Timed.isPositive slot.seconds)
    (h : shortestSlot ≤ r.remaining now) :
    Serving r slot now ({ r with carry := 0 }.serveNewWorker slot (r.allotment slot now)
      (now + min (r.allotment slot now) (r.remaining now)) now) := by
  obtain ⟨w, effects, hn, heq⟩ :=
    exists_newcomer { r with carry := 0 } slot.solver .queued now
  unfold serveNewWorker
  dsimp only at heq ⊢
  rw [heq]
  split
  · exact .served hp h _ _ r.suspended _
  · have hskipped : Serving r slot now _ := .skipped hp h (r.workers ++ [w]) (effects ++ r.effects)
    simpa using hskipped

/-- A slot is settled without being served when no time is left for a slot. -/
theorem serveSlot_of_late (hp : Timed.isPositive slot.seconds)
    (h : r.remaining now < shortestSlot) : r.serveSlot slot now = .settled r := by
  unfold serveSlot
  simp only [if_pos hp, if_pos h]

/-- The slot of a live worker is served with this worker, which goes on if it is suspended. -/
theorem serveSlot_of_isLive (hp : Timed.isPositive slot.seconds)
    (h : shortestSlot ≤ r.remaining now) {w : Worker}
    (hlast : r.lastQueued? slot.solver = some w) (hl : w.isLive) :
    r.serveSlot slot now = .settled { (if w.phase = .suspended
        then { r with carry := 0 }.resumeWorker w else { r with carry := 0 }) with
      current := some ⟨w.id, now + min (r.allotment slot now) (r.remaining now)⟩ } := by
  have hlast' : { r with carry := 0 }.lastQueued? slot.solver = some w := hlast
  unfold serveSlot
  simp only [if_pos hp, if_neg (Nat.not_lt.mpr h), hlast', if_pos hl]
  rfl

/-- The slot of a suspended worker is served with this worker, which goes on. -/
theorem serveSlot_of_suspended (hp : Timed.isPositive slot.seconds)
    (h : shortestSlot ≤ r.remaining now) {w : Worker}
    (hlast : r.lastQueued? slot.solver = some w) (hs : w.phase = .suspended) :
    r.serveSlot slot now = .settled { { r with carry := 0 }.resumeWorker w with
      current := some ⟨w.id, now + min (r.allotment slot now) (r.remaining now)⟩ } := by
  have hlive : w.isLive := Worker.isLive_iff.mpr (by rw [hs]; decide)
  have hserve := serveSlot_of_isLive hp h hlast hlive
  rwa [if_pos hs] at hserve

/-- All that may become of a slot. -/
theorem serving_serveSlot (r : Run α) (slot : Slot α) (now : Instant) :
    Serving r slot now (r.serveSlot slot now) := by
  by_cases hp : Timed.isPositive slot.seconds
  · by_cases h : r.remaining now < shortestSlot
    · rw [serveSlot_of_late hp h]
      exact .late hp h
    · have hle := Nat.not_lt.mp h
      cases hlast : r.lastQueued? slot.solver with
      | none =>
        have hlast' : { r with carry := 0 }.lastQueued? slot.solver = none := hlast
        unfold serveSlot
        simp only [if_pos hp, if_neg h, hlast']
        exact serving_serveNewWorker hp hle
      | some w =>
        by_cases hl : w.isLive
        · rw [serveSlot_of_isLive hp hle hlast hl]
          split
          · obtain ⟨n, hn⟩ := resumeWorker_eq { r with carry := 0 } w
            rw [hn]
            exact .served hp hle _ _ _ _
          · exact .served hp hle _ _ _ _
        · have hlast' : { r with carry := 0 }.lastQueued? slot.solver = some w := hlast
          unfold serveSlot
          simp only [if_pos hp, if_neg h, hlast', if_neg hl]
          split
          · exact serving_serveNewWorker hp hle
          · have hskipped (n : Notice) : Serving r slot now _ :=
              .skipped hp hle r.workers (.notice n :: r.effects)
            simpa [note, emit, allotment] using hskipped _
  · unfold serveSlot
    simp only [if_neg hp]
    exact .unallotted (Bool.eq_false_iff.mpr hp) _

/-- A slot that is passed over leaves all but the unused time as it is. -/
theorem Serving.kept_of_passed (h : Serving r slot now (.passed r')) :
    r'.queue = r.queue ∧ r'.suspended = r.suspended ∧ r'.current = r.current ∧
      r'.deadline = r.deadline := by
  cases h <;> exact ⟨rfl, rfl, rfl, rfl⟩

/-! ## Taking slots -/

/-- Slots are taken until one is settled or there is none to take. -/
inductive Takes (now : Instant) : Run α → List (Appointment α) → Run α → Prop where
  | nothing {r r' : Run α} (hn : r.nextSlot now = (none, r')) : Takes now r [] r'
  | settled {r r₁ r₂ : Run α} {slot : Slot α} (hn : r.nextSlot now = (some slot, r₁))
      (hs : r₁.serveSlot slot now = .settled r₂) : Takes now r [⟨slot, r₂.current⟩] r₂
  | passed {r r₁ r₂ r₃ : Run α} {slot : Slot α} {taken : List (Appointment α)}
      (hn : r.nextSlot now = (some slot, r₁)) (hs : r₁.serveSlot slot now = .passed r₂)
      (h : Takes now r₂ taken r₃) : Takes now r (⟨slot, none⟩ :: taken) r₃

/-- Taking slots until one is settled takes slots. -/
theorem exists_takes {fuel : Nat} (h : serve? fuel r now = some r') :
    ∃ taken, Takes now r taken r' := by
  induction fuel generalizing r with
  | zero => cases h
  | succ fuel ih =>
    rw [serve?] at h
    split at h
    · next r₁ hn =>
      cases h
      exact ⟨[], .nothing hn⟩
    · next slot r₁ hn =>
      split at h
      · next r₂ hs =>
        cases h
        exact ⟨_, .settled hn hs⟩
      · next r₂ hs =>
        obtain ⟨taken, ht⟩ := ih h
        exact ⟨_, .passed hn hs ht⟩

/-- A run goes on to the next slot: it takes slots, unless it is cancelled or would never come to
an end. -/
inductive Advances (now : Instant) (r : Run α) : List (Appointment α) → Run α → Prop where
  | cancelled (h : r.incumbent.cancelled) : Advances now r [] { r with current := none }
  | endless
      (h : serve? (r.queue.length + r.suspended.length + 2) { r with current := none } now = none) :
      Advances now r [] { r with current := none }
  | takes {taken : List (Appointment α)} {r' : Run α}
      (h : Takes now { r with current := none } taken r') : Advances now r taken r'

/-- Going on to the next slot takes slots. -/
theorem exists_advances (r : Run α) (now : Instant) :
    ∃ taken, Advances now r taken (r.advance now) := by
  unfold advance
  dsimp only
  split
  · next h => exact ⟨[], .cancelled h⟩
  · cases hs : serve? (r.queue.length + r.suspended.length + 2) { r with current := none } now with
    | none => exact ⟨[], .endless hs⟩
    | some r' =>
      obtain ⟨taken, ht⟩ := exists_takes hs
      exact ⟨taken, .takes ht⟩

/-- A run goes on to the first slot it takes, if that is settled. -/
theorem advance_of_settled {r₁ r₂ : Run α} (hgoes : r.incumbent.cancelled = false)
    (hn : { r with current := none }.nextSlot now = (some slot, r₁))
    (hs : r₁.serveSlot slot now = .settled r₂) : r.advance now = r₂ := by
  have hserve : serve? (r.queue.length + r.suspended.length + 2) { r with current := none } now
      = some r₂ := by
    rw [serve?, hn]
    simp only [hs]
  unfold advance
  simp only [hgoes, Bool.false_eq_true, if_false, hserve, Option.getD_some]

/-! ## Events -/

omit [Timed α] in
/-- The shared core is left alone: the slot being served, the queue and the unused time stay, and
no worker is suspended or resumed. -/
structure Calm (r r' : Run α) : Prop where
  current : r'.current = r.current
  queue : r'.queue = r.queue
  carry : r'.carry = r.carry
  deadline : r'.deadline = r.deadline
  suspended : r'.suspended = r.suspended
  isSuspended : ∀ id, r'.isSuspended id → r.isSuspended id
  worker : ∀ id w, r.worker? id = some w → ∃ w', r'.worker? id = some w' ∧ w.Abides w'
  cancelled : r.incumbent.cancelled → r'.incumbent.cancelled

omit [Timed α] in
/-- A suspended worker is one whose phase says so. -/
theorem isSuspended_iff (r : Run α) (id : WorkerId) :
    r.isSuspended id ↔ ∃ w, r.worker? id = some w ∧ w.phase = .suspended := by
  unfold isSuspended
  cases r.worker? id <;> simp

end Run

/-- A worker is suspended by the end of a slot only. -/
theorem Worker.Turn.phase_eq_suspended {goal : Goal} {maxRestarts : Nat} {e : Option RunEvent}
    {w w' : Worker} (h : Turn goal maxRestarts e w w') (hw' : w'.phase = .suspended) :
    w.phase = .suspended ∨ e = some .slotExpired := by
  cases h with
  | still h => exact Or.inl hw'
  | recorded x now hl =>
    obtain ⟨best, h⟩ := w.exists_recordSolution now goal x.objective
    rw [h] at hw'
    exact Or.inl hw'
  | suspended hp => exact Or.inr rfl
  | launched now process injected hp | satisfied x now hl hg | ended cause he | resumed hp
    | restarted switchSearch hp hr => cases hw'

namespace Run

variable {α : Type} {now : Instant} {r r' : Run α} {e : RunEvent}

/-- What workers share stays cancelled. -/
theorem Sharing.cancelled_of {e : Option RunEvent} {i : Incumbent} (h : r.Sharing e i)
    (hc : r.incumbent.cancelled) : i.cancelled := by
  cases h with
  | keep h => exact hc
  | offered value hw hl => rwa [Incumbent.cancelled_offer]
  | proved hw hl hp hn | satisfied x hg =>
    unfold Incumbent.declareWinner
    split
    · exact hc
    · rfl
  | cancelled => rfl

/-- No worker is suspended when each takes a turn that is not the end of a slot. -/
theorem isSuspended_of_turn {e : Option RunEvent} (he : e ≠ some .slotExpired)
    (hlen : r'.workers.length = r.workers.length)
    (hturn : ∀ id w, r.worker? id = some w → ∃ w', r'.worker? id = some w' ∧
      Worker.Turn r.goal r.settings.maxRestarts e w w') {id : WorkerId}
    (h : r'.isSuspended id) : r.isSuspended id := by
  obtain ⟨w', hw', hphase⟩ := (r'.isSuspended_iff id).mp h
  obtain ⟨hlt, -⟩ := List.getElem?_eq_some_iff.mp hw'
  rw [hlen] at hlt
  have hw : r.worker? id = some r.workers[id] := List.getElem?_eq_getElem hlt
  obtain ⟨v, hv, hturn⟩ := hturn id _ hw
  cases Option.some.inj (hv.symm.trans hw')
  exact (r.isSuspended_iff id).mpr ⟨_, hw, (hturn.phase_eq_suspended hphase).resolve_right he⟩

/-- A report leaves the shared core alone. -/
theorem calm_effects (r : Run α) (effects : List Effect) : r.Calm { r with effects } :=
  ⟨rfl, rfl, rfl, rfl, rfl, fun _ => id, fun _ w hw => ⟨w, hw, rfl, id⟩, id⟩

/-- A response leaves the shared core alone unless a slot ends. -/
theorem Response.calm (h : Response now r e r') (hr : r.Numbered)
    (he : e = .slotExpired → r.current = none) : r.Calm r' := by
  by_cases hslot : e = .slotExpired
  · have hc := he hslot
    subst hslot
    cases h with
    | idle _ => exact r.calm_effects r.effects
    | suspended n hc' | expired n hc' => cases hc.symm.trans hc'
  · have hsuspended {id : WorkerId} (hid : r'.isSuspended id) : r.isSuspended id :=
      isSuspended_of_turn (e := some e) (by simpa using hslot) h.length_workers
        (fun id w hw => h.turn hr hw) hid
    have hworker (id : WorkerId) (w : Worker) (hw : r.worker? id = some w) :
        ∃ w', r'.worker? id = some w' ∧ w.Abides w' := by
      obtain ⟨w', hw', hturn⟩ := h.turn hr hw
      exact ⟨w', hw', hturn.keeps.2.2, hturn.rests⟩
    have hcancelled := fun hc => h.sharing.cancelled_of hc
    cases h with
    | idle _ | suspended _ | expired _ => exact absurd rfl hslot
    | _ => exact ⟨rfl, rfl, rfl, rfl, rfl, fun _ => hsuspended, hworker, hcancelled⟩

/-- The monitor leaves the shared core alone when it intervenes. -/
theorem Intervention.calm (h : Intervention now r r') (hr : r.Numbered) : r.Calm r' := by
  have hsuspended {id : WorkerId} (hid : r'.isSuspended id) : r.isSuspended id :=
    isSuspended_of_turn (e := none) (by simp) h.length_workers
      (fun id w hw => h.turn hr hw) hid
  cases h with
  | finish cause hv =>
    refine ⟨rfl, rfl, rfl, rfl, rfl, fun _ => hsuspended, fun id w hw => ?_, id⟩
    exact exists_getElem?_modify (T := Worker.Abides) hw (fun _ => ⟨rfl, fun h => h⟩)
      fun _ => ⟨rfl, fun _ => Or.inl rfl⟩
  | @restart v best n hv hs =>
    refine ⟨rfl, rfl, rfl, rfl, rfl, fun _ => hsuspended, fun id w hw => ?_, id⟩
    -- A worker that is restarted was solving, and did not rest.
    refine exists_getElem?_modify (T := Worker.Abides) hw (fun _ => ⟨rfl, fun h => h⟩)
      fun hid => ⟨rfl, fun hrests => ?_⟩
    rw [hid] at hv
    cases Option.some.inj (hv.symm.trans hw)
    obtain ⟨hsolving, -⟩ := Worker.restarts_of_stagnation hs
    rcases hrests with h | h <;> cases hsolving.symm.trans h

/-- The response to the end of a slot leaves the queue and the unused time as they are. -/
theorem Response.plan_eq_of_slotExpired (h : Response now r .slotExpired r') :
    r'.queue = r.queue ∧ r'.carry = r.carry ∧ r'.deadline = r.deadline := by
  cases h <;> exact ⟨rfl, rfl, rfl⟩

variable [Timed α]

/-- Slots end one after another, and the rest of each is handed to the next one; meanwhile the
shared core is left alone. -/
inductive Attends (now : Instant) (r : Run α) : List (Appointment α) → Run α → Prop where
  | refl : Attends now r [] r
  | aside {r₁ r₂ : Run α} {taken : List (Appointment α)} (h : Attends now r taken r₁)
      (hc : r₁.Calm r₂) : Attends now r taken r₂
  | handOver {r₁ r₂ : Run α} {taken more : List (Appointment α)} {slot : CurrentSlot}
      (h : Attends now r taken r₁) (hc : r₁.current = some slot)
      (ha : Advances now { r₁ with carry := r₁.carry + (slot.deadline - now) } more r₂) :
      Attends now r (taken ++ more) r₂

/-- What an event does to the shared core. -/
inductive Handles (now : Instant) (r : Run α) : RunEvent → List (Appointment α) → Run α → Prop where
  | attends {e : RunEvent} {taken : List (Appointment α)} {r' : Run α}
      (he : e = .slotExpired → r.current = none) (h : Attends now r taken r') :
      Handles now r e taken r'
  /-- A slot runs out, and nothing is left of it. -/
  | expires {taken : List (Appointment α)} {r₁ r' : Run α} {slot : CurrentSlot}
      (hc : r.current = some slot) (hr : Response now r .slotExpired r₁)
      (ha : Advances now r₁ taken r') : Handles now r .slotExpired taken r'

/-- Slots that are served on are served one after the other. -/
theorem Attends.trans {r₁ r₂ : Run α} {taken more : List (Appointment α)}
    (h : Attends now r taken r₁) (h' : Attends now r₁ more r₂) :
    Attends now r (taken ++ more) r₂ := by
  induction h' with
  | refl => simpa using h
  | aside _ hc ih => exact ih.aside hc
  | handOver _ hc ha ih =>
    rw [← List.append_assoc]
    exact ih.handOver hc ha

/-- What is done when a worker has ended. -/
theorem exists_attends_of_follow (h : Follow now r r') : ∃ taken, Attends now r taken r' := by
  cases h with
  | report n =>
    exact ⟨[], .aside .refl (r.calm_effects _)⟩
  | @handOver slot hc hw =>
    obtain ⟨taken, ha⟩ :=
      exists_advances { r with carry := r.carry + (slot.deadline - now) } now
    exact ⟨taken, .handOver .refl hc ha⟩

/-- What is done when workers have ended. -/
theorem exists_attends_of_follows (h : Follows now r r') : ∃ taken, Attends now r taken r' := by
  induction h with
  | refl => exact ⟨[], .refl⟩
  | tail _ hf ih =>
    obtain ⟨taken, hattends⟩ := ih
    obtain ⟨more, hnext⟩ := exists_attends_of_follow hf
    exact ⟨taken ++ more, hattends.trans hnext⟩

/-- What is done at a tick of the monitor. -/
theorem exists_attends_of_watch (h : Watch now r r') (hr : r.Numbered) :
    ∃ taken, Attends now r taken r' := by
  induction h with
  | refl => exact ⟨[], .refl⟩
  | tail hbefore hnext ih =>
    obtain ⟨taken, hattends⟩ := ih
    rcases hnext with hf | hi
    · obtain ⟨more, hnext⟩ := exists_attends_of_follow hf
      exact ⟨taken ++ more, hattends.trans hnext⟩
    · exact ⟨taken, hattends.aside (hi.calm (Watch.numbered hbefore hr))⟩

/-- Whatever an event brings about, there is a record of the slots that are taken. -/
theorem exists_handles (hr : r.Numbered) (e : RunEvent) (now : Instant)
    (hknown : ∀ m, e = .message m → ∃ w, r.worker? m.key.1 = some w) :
    ∃ taken, Handles now r e taken (r.handle e now) := by
  rcases handle_follows hr e now hknown with ⟨usage, rfl, hwatch⟩ | ⟨r₁, hresponse, hnext⟩
  · obtain ⟨taken, hattends⟩ := exists_attends_of_watch hwatch hr
    exact ⟨taken, .attends (fun h => by cases h) hattends⟩
  · rcases hnext with ⟨hf, hidle⟩ | ⟨rfl, hcur, heq, -⟩
    · obtain ⟨taken, hattends⟩ := exists_attends_of_follows hf
      have hcalm : Attends now r [] r₁ := Attends.refl.aside (hresponse.calm hr hidle)
      exact ⟨taken, .attends hidle (hcalm.trans hattends)⟩
    · obtain ⟨slot, hslot⟩ := Option.ne_none_iff_exists'.mp hcur
      obtain ⟨taken, ha⟩ := exists_advances r₁ now
      rw [heq]
      exact ⟨taken, .expires hslot hresponse ha⟩

end Run

end SolverPortfolio
