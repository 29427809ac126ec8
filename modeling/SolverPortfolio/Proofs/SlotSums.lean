import SolverPortfolio.Proofs.Deadlines

/-
# Sums of times

Slots may be given any number of seconds, and a sum of times that is too long ends the program. A
run adds times in four places: to the present when a slot is served, and to the unused time when a
slot is passed over in one of two ways or a worker ends. None of these sums is too long. A slot ends
at the deadline of the run at the latest, its time is cut off before it is handed on, and there is
no unused time while a slot is being served, so that the rest of it is all that is handed over.

Main definitions: `sumWithin?`, `Run.guardedAdvance`, `Run.guardedTerminate`, `Run.Solvent`,
`Run.KeepsTimes`, `Run.Spends`, `Run.Visits`.
Main statements: `Run.guardedAdvance_eq`, `Run.Solvent.guardedTerminate_eq`, `Run.Solvent.visits`,
`Situation.Reachable.sums_fit`.
-/

namespace SolverPortfolio

/-- The sum of two numbers, if it is within a limit. -/
def sumWithin? (limit a b : Nat) : Option Nat := if a + b ≤ limit then some (a + b) else none

/-- A sum within the limit is formed. -/
theorem sumWithin?_of_le {limit a b : Nat} (h : a + b ≤ limit) :
    sumWithin? limit a b = some (a + b) := if_pos h

namespace Run

section

variable {α : Type}

/-! ## Guarded sums -/

/-- Adds unused time to what is left over for the next slot; none if the sum is too long. -/
def leaveOver? (r : Run α) (d : Duration) : Option (Run α) :=
  (sumWithin? Duration.longest r.carry d).map fun carry => { r with carry }

/-- Unused time is left over if the sum is not too long. -/
theorem leaveOver?_of_le {r : Run α} {d : Duration} (h : r.carry + d ≤ Duration.longest) :
    r.leaveOver? d = some { r with carry := r.carry + d } := by
  rw [leaveOver?, sumWithin?_of_le h]
  rfl

/-- Serves a slot with a new worker, as `serveNewWorker` does; none if a sum is too long. -/
def guardedServeNewWorker (r : Run α) (slot : Slot α) (allotted : Duration)
    (deadline now : Instant) : Option (Served α) :=
  let id := r.workers.length
  let r := r.addAndLaunch slot.solver .queued now
  if r.isLive id then some (.settled { r with current := some ⟨id, deadline⟩ })
  else (r.leaveOver? allotted).map .passed

variable [Timed α] (latest : Instant)

/-- Serves a slot, as `serveSlot` does; none if a sum is too long, or an instant would come after
the latest one. -/
def guardedServeSlot (r : Run α) (slot : Slot α) (now : Instant) : Option (Served α) :=
  if Timed.isPositive slot.seconds then
    let remaining := r.remaining now
    if remaining < shortestSlot then some (.settled r)
    else do
      let allotted := ((Timed.duration? slot.seconds).getD remaining).saturatingAdd r.carry
      let deadline ← sumWithin? latest now (min allotted remaining)
      let r := { r with carry := 0 }
      match r.lastQueued? slot.solver with
      | none => r.guardedServeNewWorker slot allotted deadline now
      | some w =>
        if w.isLive then
          let r := if w.phase = .suspended then r.resumeWorker w else r
          some (.settled { r with current := some ⟨w.id, deadline⟩ })
        else if w.termination.any (·.allowsRelaunch) then
          r.guardedServeNewWorker slot allotted deadline now
        else
          let r := r.note (.info s!"skipping slot of terminated solver '{slot.solver}'")
          (r.leaveOver? allotted).map .passed
  else some (.passed (r.note (.info s!"solver '{slot.solver}' has no time allocated")))

/-- Takes slots until one is settled, as `serve?` does, with every sum guarded. -/
def guardedServe : Nat → Run α → Instant → Option (Option (Run α))
  | 0, _, _ => some none
  | fuel + 1, r, now =>
    match r.nextSlot now with
    | (none, r) => some (some r)
    | (some slot, r) => do
      match ← r.guardedServeSlot latest slot now with
      | .settled r => some (some r)
      | .passed r => guardedServe fuel r now

/-- Goes on to the next slot, as `advance` does, with every sum guarded. -/
def guardedAdvance (r : Run α) (now : Instant) : Option (Run α) :=
  let r := { r with current := none }
  if r.incumbent.cancelled then some r
  else (guardedServe latest (r.queue.length + r.suspended.length + 2) r now).map (·.getD r)

/-- Ends a worker and hands the rest of its slot to the next one, as `terminate` does, with every
sum guarded. -/
def guardedTerminate (r : Run α) (id : WorkerId) (cause : TerminationCause) (now : Instant) :
    Option (Run α) :=
  let r := r.endWorker id cause
  match r.current with
  | none => some r
  | some slot =>
    if slot.worker = id then do
      let r ← r.leaveOver? (slot.deadline - now)
      r.guardedAdvance latest now
    else some r

end

variable {α : Type} {now : Instant} {r r' : Run α} {slot : Slot α}

/-! ## Serving a slot -/

/-- A worker is added without looking at unused time. -/
theorem carry_addAndLaunch (r : Run α) (name : String) (placement : Placement) (now : Instant) :
    (r.addAndLaunch name placement now).carry = r.carry := by
  obtain ⟨w, effects, -, heq⟩ := r.exists_newcomer name placement now
  rw [heq]

/-- What is left over by a slot whose worker ends at once is not too long. -/
theorem guardedServeNewWorker_eq {allotted : Duration} (h : r.carry + allotted ≤ Duration.longest)
    (slot : Slot α) (deadline now : Instant) :
    r.guardedServeNewWorker slot allotted deadline now =
      some (r.serveNewWorker slot allotted deadline now) := by
  have hcarry := r.carry_addAndLaunch slot.solver .queued now
  unfold guardedServeNewWorker serveNewWorker
  dsimp only
  split
  · rfl
  · rw [leaveOver?_of_le (hcarry ▸ h)]
    rfl

variable [Timed α] {latest : Instant}

omit [Timed α] in
/-- The end of a slot that is served is an instant, if the deadline of the run is one. -/
theorem sumWithin?_end (h : r.deadline ≤ latest) (hlong : shortestSlot ≤ r.remaining now)
    (d : Duration) : sumWithin? latest now (min d (r.remaining now))
      = some (now + min d (r.remaining now)) := by
  refine sumWithin?_of_le ?_
  rw [add_min_remaining (le_deadline hlong)]
  exact Nat.le_trans (Nat.min_le_left _ _) h

/-- No sum is too long when a slot is served: it ends at the deadline of the run at the latest, and
what is left over is its time, cut off where it is too long, and nothing else. -/
theorem guardedServeSlot_eq (h : r.deadline ≤ latest) (slot : Slot α) (now : Instant) :
    r.guardedServeSlot latest slot now = some (r.serveSlot slot now) := by
  unfold guardedServeSlot serveSlot
  split
  · by_cases hshort : r.remaining now < shortestSlot
    · simp only [if_pos hshort]
    · have hsum := sumWithin?_end h (Nat.not_lt.mp hshort)
      -- Nothing is left over from before, because that has been taken.
      have hleft (d : Duration) : 0 + Duration.saturatingAdd d r.carry ≤ Duration.longest := by
        rw [Nat.zero_add]
        exact Duration.saturatingAdd_le_longest _ _
      simp only [if_neg hshort, hsum, Option.bind_eq_bind, Option.bind_some]
      cases { r with carry := 0 }.lastQueued? slot.solver with
      | none => exact guardedServeNewWorker_eq (r := { r with carry := 0 }) (hleft _) slot _ now
      | some w =>
        dsimp only
        by_cases hlive : w.isLive
        · simp only [if_pos hlive]
        · simp only [if_neg hlive]
          split
          · exact guardedServeNewWorker_eq (r := { r with carry := 0 }) (hleft _) slot _ now
          · rw [leaveOver?_of_le (r := note _ _) (hleft _)]
            rfl
  · rfl

/-- No sum is too long while slots are taken. -/
theorem guardedServe_eq (h : r.deadline ≤ latest) (fuel : Nat) (now : Instant) :
    guardedServe latest fuel r now = some (serve? fuel r now) := by
  induction fuel generalizing r with
  | zero => rfl
  | succ fuel ih =>
    rw [guardedServe, serve?]
    rcases hnext : r.nextSlot now with ⟨_ | slot, r₁⟩
    · rfl
    · obtain ⟨-, -, hD, -⟩ := prefix_of_nextSlot hnext
      have hserve := guardedServeSlot_eq (hD ▸ h) slot now
      simp only [hserve, Option.bind_eq_bind, Option.bind_some]
      cases hs : r₁.serveSlot slot now with
      | settled r₂ => rfl
      | passed r₂ =>
        have hserving := serving_serveSlot r₁ slot now
        rw [hs] at hserving
        obtain ⟨-, -, -, hD'⟩ := hserving.kept_of_passed
        exact ih (by rw [hD', hD]; exact h)

/-- No sum is too long when a run goes on to the next slot, whatever slots there are. -/
theorem guardedAdvance_eq (h : r.deadline ≤ latest) (now : Instant) :
    r.guardedAdvance latest now = some (r.advance now) := by
  unfold guardedAdvance advance
  dsimp only
  split
  · rfl
  · rw [guardedServe_eq (r := { r with current := none }) h]
    rfl

/-! ## What is known of the times of a run -/

omit [Timed α] in
/-- The times of a run are in order: unused time is a duration, and while a slot is being served,
which ends at the deadline of the run at the latest, there is none. -/
structure Solvent (deadline : Instant) (r : Run α) : Prop where
  deadline_eq : r.deadline = deadline
  carry_le : r.carry ≤ Duration.longest
  current : ∀ served, r.current = some served → r.carry = 0 ∧ served.deadline ≤ deadline

omit [Timed α] in
/-- The times of a run stay as they are, but the slot being served may end. -/
structure KeepsTimes (r r' : Run α) : Prop where
  carry : r'.carry = r.carry
  deadline : r'.deadline = r.deadline
  current : r'.current = r.current ∨ r'.current = none

omit [Timed α] in
/-- No slot begins to be served while the times stay as they are. -/
theorem KeepsTimes.current_of_none (h : r.KeepsTimes r') (hcur : r.current = none) :
    r'.current = none :=
  h.current.elim (fun hsame => hsame.trans hcur) id

omit [Timed α] in
/-- A report leaves the times as they are. -/
theorem keepsTimes_effects (r : Run α) (effects : List Effect) : r.KeepsTimes { r with effects } :=
  ⟨rfl, rfl, Or.inl rfl⟩

/-- Looking for the next slot leaves the times as they are. -/
theorem keepsTimes_of_nextSlot {taken : Option (Slot α)} (h : r.nextSlot now = (taken, r')) :
    r.KeepsTimes r' := by
  obtain ⟨-, hcarry, hD, hcurrent⟩ := prefix_of_nextSlot h
  exact ⟨hcarry, hD, Or.inl hcurrent⟩

omit [Timed α] in
/-- Ending a worker leaves the times as they are. -/
theorem keepsTimes_endWorker (r : Run α) (id : WorkerId) (cause : TerminationCause) :
    r.KeepsTimes (r.endWorker id cause) := by
  cases hw : r.worker? id with
  | none =>
    rw [endWorker, hw]
    exact ⟨rfl, rfl, Or.inl rfl⟩
  | some w =>
    rw [endWorker_eq hw]
    exact ⟨rfl, rfl, Or.inl rfl⟩

omit [Timed α] in
/-- A response leaves the times as they are, but the slot being served may end. -/
theorem Response.keepsTimes {e : RunEvent} (h : Response now r e r') : r.KeepsTimes r' := by
  have hcurrent := h.current.imp_right And.left
  cases h <;> exact ⟨rfl, rfl, hcurrent⟩

omit [Timed α] in
/-- The monitor leaves the times as they are when it intervenes. -/
theorem Intervention.keepsTimes (h : Intervention now r r') : r.KeepsTimes r' := by
  have hcurrent := h.current
  cases h <;> exact ⟨rfl, rfl, Or.inl hcurrent⟩

variable {deadline : Instant}

omit [Timed α] in
/-- The times stay in order as long as they stay as they are. -/
theorem Solvent.keepsTimes (h : r.Solvent deadline) (hkeeps : r.KeepsTimes r') :
    r'.Solvent deadline where
  deadline_eq := hkeeps.deadline.trans h.deadline_eq
  carry_le := hkeeps.carry ▸ h.carry_le
  current := by
    intro served hserved
    rcases hkeeps.current with hcur | hcur
    · rw [hkeeps.carry]
      exact h.current served (hcur ▸ hserved)
    · cases hcur.symm.trans hserved

/-- The times are in order after a slot is served or passed over. -/
theorem Serving.solvent {served : Served α} (h : Serving r slot now served)
    (hr : r.Solvent deadline) (hcur : r.current = none) : served.run.Solvent deadline := by
  cases h with
  | unallotted hp n => exact hr.keepsTimes (r.keepsTimes_effects _)
  | late hp hshort => exact hr
  | skipped hp hlong workers effects =>
    refine ⟨hr.deadline_eq, Duration.saturatingAdd_le_longest _ _, fun served hserved => ?_⟩
    cases hcur.symm.trans hserved
  | served hp hlong workers effects suspended worker =>
    refine ⟨hr.deadline_eq, Nat.zero_le _, fun served hserved => ?_⟩
    cases hserved
    refine ⟨rfl, ?_⟩
    rw [add_min_remaining (le_deadline hlong), ← hr.deadline_eq]
    exact Nat.min_le_left _ _

/-- The times are in order after slots are taken. -/
theorem Takes.solvent {taken : List (Appointment α)} (h : Takes now r taken r')
    (hr : r.Solvent deadline) (hcur : r.current = none) : r'.Solvent deadline := by
  induction h with
  | nothing hn => exact hr.keepsTimes (keepsTimes_of_nextSlot hn)
  | @settled r r₁ r₂ slot hn hs =>
    have hr₁ := hr.keepsTimes (keepsTimes_of_nextSlot hn)
    have hcur₁ := (keepsTimes_of_nextSlot hn).current_of_none hcur
    have hserving := serving_serveSlot r₁ slot now
    rw [hs] at hserving
    exact hserving.solvent hr₁ hcur₁
  | @passed r r₁ r₂ r₃ slot taken hn hs _ ih =>
    have hr₁ := hr.keepsTimes (keepsTimes_of_nextSlot hn)
    have hcur₁ := (keepsTimes_of_nextSlot hn).current_of_none hcur
    have hserving := serving_serveSlot r₁ slot now
    rw [hs] at hserving
    obtain ⟨-, -, hcur₂, -⟩ := hserving.kept_of_passed
    exact ih (hserving.solvent hr₁ hcur₁) (hcur₂.trans hcur₁)

/-- The times are in order after a run goes on to the next slot, whatever was being served. -/
theorem Advances.solvent {taken : List (Appointment α)} (h : Advances now r taken r')
    (hD : r.deadline = deadline) (hcarry : r.carry ≤ Duration.longest) : r'.Solvent deadline := by
  have hleft : { r with current := none }.Solvent deadline :=
    ⟨hD, hcarry, fun served hserved => by cases hserved⟩
  cases h with
  | cancelled _ | endless _ => exact hleft
  | takes h => exact h.solvent hleft rfl

/-- The times are in order after a run goes on to the next slot. -/
theorem solvent_advance (hD : r.deadline = deadline) (hcarry : r.carry ≤ Duration.longest)
    (now : Instant) : (r.advance now).Solvent deadline := by
  obtain ⟨taken, ha⟩ := r.exists_advances now
  exact ha.solvent hD hcarry

omit [Timed α] in
/-- What is left of a slot is all that is left over when it is handed to the next one. -/
theorem Solvent.carry_add_le (h : r.Solvent deadline) (hlong : deadline ≤ Duration.longest)
    {served : CurrentSlot} (hserved : r.current = some served) (now : Instant) :
    r.carry + (served.deadline - now) ≤ Duration.longest := by
  obtain ⟨hzero, hle⟩ := h.current served hserved
  rw [hzero, Nat.zero_add]
  exact Nat.le_trans (Nat.sub_le _ _) (Nat.le_trans hle hlong)

/-- No sum is too long when a worker ends. -/
theorem Solvent.guardedTerminate_eq (h : r.Solvent deadline) (hlatest : deadline ≤ latest)
    (hlong : latest ≤ Duration.longest) (id : WorkerId) (cause : TerminationCause)
    (now : Instant) :
    r.guardedTerminate latest id cause now = some (r.terminate id cause now) := by
  -- The worker's end comes first, and leaves the times in order.
  have hended := h.keepsTimes (r.keepsTimes_endWorker id cause)
  unfold guardedTerminate terminate
  dsimp only
  cases hserved : (r.endWorker id cause).current with
  | none => rfl
  | some served =>
    dsimp only
    split
    · have hsum := hended.carry_add_le (Nat.le_trans hlatest hlong) hserved now
      rw [leaveOver?_of_le hsum]
      exact guardedAdvance_eq (r := { r.endWorker id cause with
        carry := (r.endWorker id cause).carry + (served.deadline - now) })
        (hended.deadline_eq ▸ hlatest) now
    · rfl

/-! ## Whatever a run does -/

/-- What a run does, as far as its times are concerned. -/
inductive Spends (now : Instant) (r : Run α) : Run α → Prop where
  /-- Anything else changes, and the slot being served may end. -/
  | aside {r' : Run α} (h : r.KeepsTimes r') : Spends now r r'
  /-- The run goes on to the next slot. -/
  | advance : Spends now r (r.advance now)
  /-- The rest of the slot being served is handed to the next one. -/
  | handOver {served : CurrentSlot} (hserved : r.current = some served) :
      Spends now r ({ r with carry := r.carry + (served.deadline - now) }.advance now)

/-- The states that a run may come to from a state, the ones in the midst of an event included. -/
abbrev Visits : Run α → Run α → Prop :=
  Relation.ReflTransGen fun r r' => ∃ now, Spends now r r'

/-- The times stay in order, whatever a run does. -/
theorem Solvent.spends (h : r.Solvent deadline) (hlong : deadline ≤ Duration.longest)
    (hs : Spends now r r') : r'.Solvent deadline := by
  cases hs with
  | aside hkeeps => exact h.keepsTimes hkeeps
  | advance => exact solvent_advance h.deadline_eq h.carry_le now
  | handOver hserved =>
    exact solvent_advance (r := { r with carry := r.carry + _ }) h.deadline_eq
      (h.carry_add_le hlong hserved now) now

/-- The times stay in order, however much a run does. -/
theorem Solvent.visits (h : r.Solvent deadline) (hlong : deadline ≤ Duration.longest)
    (hv : r.Visits r') : r'.Solvent deadline := by
  induction hv with
  | refl => exact h
  | tail _ hs ih =>
    obtain ⟨now, hs⟩ := hs
    exact ih.spends hlong hs

/-- What is done when a worker has ended. -/
theorem Follow.spends (h : Follow now r r') : Spends now r r' := by
  cases h with
  | report n => exact .aside (r.keepsTimes_effects _)
  | handOver hc hw => exact .handOver hc

/-- All that an event brings about is visited. -/
theorem visits_handle (hr : r.Numbered) (e : RunEvent) (now : Instant)
    (hknown : ∀ m, e = .message m → ∃ w, r.worker? m.key.1 = some w) :
    r.Visits (r.handle e now) := by
  rcases handle_follows hr e now hknown with ⟨usage, rfl, hwatch⟩ | ⟨r₁, hresponse, hnext⟩
  -- A tick is made of interventions and of what follows the end of workers.
  · refine Relation.ReflTransGen.mono (fun r r' hstep => ⟨now, ?_⟩) _ _ hwatch
    rcases hstep with hfollow | hintervention
    · exact hfollow.spends
    · exact .aside hintervention.keepsTimes
  -- Any other event has a response first, and then the same, or the next slot.
  · have hfirst : r.Visits r₁ := .single ⟨now, .aside hresponse.keepsTimes⟩
    rcases hnext with ⟨hfollows, -⟩ | ⟨-, -, heq, -⟩
    · exact hfirst.trans (Relation.ReflTransGen.mono (fun _ _ hf => ⟨now, hf.spends⟩) _ _ hfollows)
    · rw [heq]
      exact hfirst.tail ⟨now, .advance⟩

end Run

namespace Situation

section

variable {α : Type} [Timed α] {P : Discipline} {o : Opening α} {s : Situation α}

/-- All that an event brings about is visited. -/
theorem Arises.visits_handle (h : Arises P o s) {e : RunEvent} (hhears : s.Hears P e)
    (now : Instant) : s.run.Visits (s.run.handle e now) := by
  refine Run.visits_handle h.founded.numbered e now ?_
  rintro m rfl
  obtain ⟨w, hw, -⟩ := h.founded.of_sends hhears
  exact ⟨w, hw⟩

/-- The times of a run are in order in every situation that it may come to. -/
theorem Reachable.solvent (h : Reachable P o s) (hlong : o.deadline ≤ Duration.longest) :
    s.run.Solvent o.deadline := by
  induction h with
  | refl =>
    obtain ⟨hD, hcarry⟩ := o.plan_ready
    exact Run.solvent_advance (r := o.ready) hD (hcarry ▸ Nat.zero_le _) o.begun
  | tail hsteps hstep ih =>
    obtain ⟨e, now, hhears, rfl⟩ := hstep
    exact ih.visits hlong ((Reachable.arises hsteps).visits_handle hhears now)

end

variable {P : Discipline} {o : Opening Float} {s : Situation Float}

/-- No sum of times is too long in a run, whatever numbers of seconds its slots are given, if its
deadline is an instant and durations measure what is between instants. In every situation that the
run may come to, and in the midst of events, there is no unused time while a slot is being served,
and the slot ends at the deadline of the run at the latest; so the run goes on to a slot, and hands
over the rest of one, as it does with every sum guarded. It begins like this, too. -/
theorem Reachable.sums_fit {latest : Instant} (h : Reachable P o s) (hdeadline : o.deadline ≤ latest)
    (hlatest : latest ≤ Duration.longest) :
    o.ready.guardedAdvance latest o.begun = some o.situation.run ∧
      (∀ e now, s.Hears P e → s.run.Visits (s.run.handle e now)) ∧
      ∀ r, s.run.Visits r → r.deadline = o.deadline ∧ r.carry ≤ Duration.longest ∧
        (∀ served, r.current = some served → r.carry = 0 ∧ served.deadline ≤ r.deadline) ∧
        ∀ now, r.guardedAdvance latest now = some (r.advance now) ∧
          ∀ id cause, r.guardedTerminate latest id cause now = some (r.terminate id cause now) := by
  have hlong := Nat.le_trans hdeadline hlatest
  refine ⟨?_, fun e now hhears => h.arises.visits_handle hhears now, fun r hv => ?_⟩
  · exact Run.guardedAdvance_eq (o.plan_ready.1 ▸ hdeadline) o.begun
  · have hsolvent := (h.solvent hlong).visits hlong hv
    have hD := hsolvent.deadline_eq
    refine ⟨hD, hsolvent.carry_le, hD ▸ hsolvent.current, fun now => ⟨?_, fun id cause => ?_⟩⟩
    · exact Run.guardedAdvance_eq (hD ▸ hdeadline) now
    · exact hsolvent.guardedTerminate_eq hdeadline hlatest id cause now

end Situation

/-- Two solvers whose slots are infinite, undefined, negative and too long for a duration. -/
def Opening.unruly : Opening Float :=
  { Opening.duo with schedule := ⟨[], [⟨"a", 1 / 0⟩, ⟨"b", 0 / 0⟩, ⟨"a", -1⟩, ⟨"b", 1e300⟩]⟩ }

namespace Situation

/-- The process of the first solver is up. -/
def unruled : Situation Float :=
  Opening.unruly.situation.takes 0 [.message (.launched 0 0 10 none)]

/-- The process of the first solver crashes after four seconds. The slots of no seconds are passed
over, and the rest of the ten seconds goes to the last slot, which ends with the run. -/
theorem unruly_sums_fit :
    let latest := Duration.ofWholeSeconds (Nat.pow 2 63)
    Reachable (fun _ _ => True) .unruly unruled ∧ Opening.unruly.deadline ≤ latest ∧
      latest ≤ Duration.longest ∧
      ∃ r, unruled.run.guardedTerminate latest 0 (.crashed (some 1)) (Duration.ofWholeSeconds 4)
          = some r ∧ r.carry = 0 ∧ r.current = some ⟨1, Duration.ofWholeSeconds 10⟩ := by
  have hreachable : Reachable (fun _ _ => True) .unruly unruled :=
    steps_takes ⟨Sends.launched_of_any 0 0 10 none (.error "") rfl, trivial⟩
  have hdeadline : Opening.unruly.deadline ≤ Duration.ofWholeSeconds (Nat.pow 2 63) := by decide
  have hlatest : Duration.ofWholeSeconds (Nat.pow 2 63) ≤ Duration.longest := by decide
  obtain ⟨-, -, hvisited⟩ := hreachable.sums_fit hdeadline hlatest
  obtain ⟨-, -, -, hfits⟩ := hvisited unruled.run .refl
  refine ⟨hreachable, hdeadline, hlatest, _,
    (hfits (Duration.ofWholeSeconds 4)).2 0 (.crashed (some 1)), ?_, ?_⟩
  · decide +kernel
  · decide +kernel

end Situation

end SolverPortfolio
