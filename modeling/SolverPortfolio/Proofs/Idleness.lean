import SolverPortfolio.Proofs.Refilling

/-
# The shared core is not idle while there is work

A run looks for the next slot only when a slot ends. Whoever ends or loses the slot
being served must therefore have the run go on at once, and whoever is suspended must
be found again when the queue is empty. Where no slot is served, all that the shared
core could do is done, as long as there is time for a slot.

Main definitions: `Run.Attended`, `Situation.Timely`.
Main statements: `Situation.Timely.attended`, `Situation.idle_core`.
-/

namespace SolverPortfolio

/-! ## Attending to the shared core -/

namespace Run

variable {α : Type} [Timed α] {now : Instant} {r r' : Run α}

omit [Timed α] in
/-- If no slot is served, there is nothing to serve, or no time, or the run is over. -/
def Attended (r : Run α) (now : Instant) : Prop :=
  r.current = none → r.incumbent.cancelled ∨ r.remaining now < shortestSlot ∨
    r.queue = [] ∧ ∀ id ∈ r.suspended, r.isSuspended id = false

omit [Timed α] in
/-- The shared core stays attended to as long as it is left alone. -/
theorem Attended.calm (h : r.Attended now) (hc : r.Calm r') : r'.Attended now := by
  intro hcur
  rw [hc.current] at hcur
  rcases h hcur with hcancelled | hshort | ⟨hq, hnobody⟩
  · exact Or.inl (hc.cancelled hcancelled)
  · right; left
    rw [remaining, hc.deadline]
    exact hshort
  · refine Or.inr (Or.inr ⟨hc.queue.trans hq, fun id hid => ?_⟩)
    rw [hc.suspended] at hid
    have hnot := hnobody id hid
    rw [Bool.eq_false_iff] at hnot ⊢
    exact fun hsuspended => hnot (hc.isSuspended id hsuspended)

omit [Timed α] in
/-- The shared core stays attended to as time goes by. -/
theorem Attended.later {later : Instant} (h : r.Attended now) (hle : now ≤ later) :
    r.Attended later := by
  intro hcur
  rcases h hcur with hcancelled | hshort | hdone
  · exact Or.inl hcancelled
  · exact Or.inr (Or.inl (Nat.lt_of_le_of_lt (Nat.sub_le_sub_left hle _) hshort))
  · exact Or.inr (Or.inr hdone)

/-- Slots are not found only if there is no time or there is nobody to serve. -/
theorem attended_of_nextSlot (h : r.nextSlot now = (none, r')) : r'.Attended now := by
  intro _
  unfold nextSlot at h
  split at h
  · cases h
  · next hq =>
    dsimp only at h
    split at h
    · next hshort =>
      cases h
      exact Or.inr (Or.inl hshort)
    · split at h
      · next hnobody =>
        cases h
        refine Or.inr (Or.inr ⟨hq, fun id hid => ?_⟩)
        rw [sharedSlots, List.map_eq_nil_iff] at hnobody
        rw [hnobody] at hid
        cases hid
      · cases h

/-- Once slots are taken until one is settled, the shared core is attended to. -/
theorem Takes.attended {taken : List (Appointment α)} (h : Takes now r taken r') :
    r'.Attended now := by
  induction h with
  | nothing hn => exact attended_of_nextSlot hn
  | passed _ _ _ ih => exact ih
  | @settled r r₁ r₂ slot _ hs =>
    intro hcur
    have hserving := serving_serveSlot r₁ slot now
    rw [hs] at hserving
    cases hserving with
    | late hp hshort => exact Or.inr (Or.inl hshort)
    | served hp hle workers effects suspended worker => cases hcur

end Run

namespace Situation

variable {α : Type} [Timed α] {P : Discipline} {o : Opening α} {s s' : Situation α}
  {now : Instant} {n : Nat}

/-- A run that goes on to the next slot attends to the shared core. -/
theorem Arises.attended_advance (ha : Arises P o s) (hshares : Timed.SharesPositive α n)
    (hn : s.run.workers.length ≤ n) : (s.run.advance now).Attended now := by
  have htraceable : { s.run with current := none }.Traceable := ha.traceable.of_workers_eq rfl
  have hcount : s.run.suspended.length ≤ n := Nat.le_trans ha.length_suspended_le hn
  have hfuel : s.run.queue.length < s.run.queue.length + s.run.suspended.length + 2 := by omega
  obtain ⟨r, hserves⟩ := (htraceable.searchEnds hshares hcount now).ends
  have hserve := hserves _ hfuel
  unfold Run.advance
  dsimp only at hserve ⊢
  split
  · next hcancelled => exact fun _ => Or.inl hcancelled
  · obtain ⟨taken, htakes⟩ := Run.exists_takes hserve
    rw [hserve]
    exact htakes.attended

/-! ## Events -/

/-- The shared core is attended to when a worker has ended. -/
theorem Arises.attended_follow (ha : Arises P o s) (hshares : Timed.SharesPositive α n)
    (hs : s.run.Attended now) {r : Run α} (h : Run.Follow now s.run r)
    (hn : r.workers.length ≤ n) : r.Attended now := by
  have hmoves := h.moves ha.founded.numbered
  have hcount : s.run.workers.length ≤ n := Nat.le_trans (Run.Moves.length_workers_le hmoves) hn
  cases h with
  | report _ => exact hs.calm (s.run.calm_effects _)
  | @handOver slot hc hw =>
    have hplan : Run.Moves now s.run
        { s.run with carry := s.run.carry + (slot.deadline - now) } :=
      Relation.ReflTransGen.single (.plan s.run.queue _)
    exact (ha.moves hplan).attended_advance hshares hcount

/-- The shared core is attended to when workers have ended. -/
theorem Arises.attended_follows (ha : Arises P o s) (hshares : Timed.SharesPositive α n)
    (hs : s.run.Attended now) {r : Run α} (h : Run.Follows now s.run r)
    (hn : r.workers.length ≤ n) : r.Attended now := by
  induction h with
  | refl => exact hs
  | @tail r₁ r₂ hbefore hf ih =>
    have ha₁ : Arises P o { s with run := r₁ } :=
      ha.moves (Run.Follows.moves hbefore ha.founded.numbered)
    have hmoves := hf.moves ha₁.founded.numbered
    have hn₁ : r₁.workers.length ≤ n := Nat.le_trans (Run.Moves.length_workers_le hmoves) hn
    exact ha₁.attended_follow hshares (ih hn₁) hf hn

/-- The shared core is attended to when the monitor has done its work. -/
theorem Arises.attended_watch (ha : Arises P o s) (hshares : Timed.SharesPositive α n)
    (hs : s.run.Attended now) {r : Run α} (h : Run.Watch now s.run r)
    (hn : r.workers.length ≤ n) : r.Attended now := by
  induction h with
  | refl => exact hs
  | @tail r₁ r₂ hbefore hnext ih =>
    have ha₁ : Arises P o { s with run := r₁ } :=
      ha.changes (changes_of_round (Run.Watch.round hbefore ha.founded.numbered))
    rcases hnext with hf | hi
    · have hmoves := hf.moves ha₁.founded.numbered
      have hn₁ : r₁.workers.length ≤ n := Nat.le_trans (Run.Moves.length_workers_le hmoves) hn
      exact ha₁.attended_follow hshares (ih hn₁) hf hn
    · have hcalm := hi.calm ha₁.founded.numbered
      rw [hi.length_workers] at hn
      exact Run.Attended.calm (ih hn) hcalm

/-- The shared core is attended to after every event. -/
theorem Arises.attended_handle (ha : Arises P o s) (hshares : Timed.SharesPositive α n)
    (hs : s.run.Attended now) {e : RunEvent} (hh : s.Hears P e)
    (hn : (s.run.handle e now).workers.length ≤ n) : (s.run.handle e now).Attended now := by
  have hnumbered := ha.founded.numbered
  have hknown : ∀ m, e = .message m → ∃ w, s.run.worker? m.key.1 = some w := by
    rintro m rfl
    obtain ⟨w, hw, -⟩ := ha.founded.of_sends hh
    exact ⟨w, hw⟩
  rcases Run.handle_follows hnumbered e now hknown with ⟨usage, rfl, hwatch⟩ | ⟨r₁, hr, hnext⟩
  · exact ha.attended_watch hshares hs hwatch hn
  · have ha₁ : Arises P o (s.after e r₁) := ha.change (.respond now hh hr)
    rcases hnext with ⟨hf, hidle⟩ | ⟨rfl, -, heq, hgone⟩
    · exact ha₁.attended_follows hshares (hs.calm (hr.calm hnumbered hidle)) hf hn
    · have hleave : ∀ slot w, r₁.current = some slot → r₁.worker? slot.worker = some w →
          w.phase = .terminated ∨ w.phase = .suspended :=
        fun slot w hslot hw => absurd hw (hgone slot w hslot)
      rw [heq] at hn ⊢
      have hmoves := Run.moves_advance ha₁.founded.numbered now hleave
      exact ha₁.attended_advance hshares
        (Nat.le_trans (Run.Moves.length_workers_le hmoves) hn)

/-! ## Runs whose clock does not go back -/

/-- A situation that a run may come to by a time, when its events are taken up one after another
in time. -/
inductive Timely (P : Discipline) (o : Opening α) : Instant → Situation α → Prop where
  | begins : Timely P o o.begun o.situation
  | step {t now : Instant} {s : Situation α} {e : RunEvent} (h : Timely P o t s) (hle : t ≤ now)
      (hh : s.Hears P e) : Timely P o now (s.after e (s.run.handle e now))

/-- Such a situation is reachable. -/
theorem Timely.reachable {t : Instant} (h : Timely P o t s) : Reachable P o s := by
  induction h with
  | begins => exact Relation.ReflTransGen.refl
  | @step t now s e _ _ hh ih => exact ih.tail ⟨e, now, hh, rfl⟩

/-- Events that may come at the same time are taken up in time. -/
theorem Timely.takes (h : Timely P o now s) {events : List RunEvent}
    (hh : HearsAll P now events s) : Timely P o now (s.takes now events) := by
  induction events generalizing s with
  | nil => exact h
  | cons e events ih => exact ih (h.step (Nat.le_refl _) hh.1) hh.2

/-- The shared core is attended to at the begin of a run. -/
theorem attended_situation (o : Opening α) (hshares : Timed.SharesPositive α n)
    (hn : o.situation.run.workers.length ≤ n) : o.situation.run.Attended o.begun := by
  obtain ⟨ha, hcur⟩ := arises_ready (P := fun _ _ => True) o
  have hleave : ∀ slot w, o.ready.current = some slot → o.ready.worker? slot.worker = some w →
      w.phase = .terminated ∨ w.phase = .suspended :=
    fun slot w hslot _ => by cases hcur.symm.trans hslot
  have hmoves := Run.moves_advance ha.founded.numbered o.begun hleave
  exact ha.attended_advance hshares
    (Nat.le_trans (Run.Moves.length_workers_le hmoves) hn)

/-- The shared core is attended to at any time. -/
theorem Timely.attended {t : Instant} (h : Timely P o t s) (hshares : Timed.SharesPositive α n)
    (hn : s.run.workers.length ≤ n) : s.run.Attended t := by
  induction h with
  | begins => exact attended_situation o hshares hn
  | @step t now s e h hle hh ih =>
    have ha := Reachable.arises h.reachable
    have hchanges : Changes P s (s.after e (s.run.handle e now)) :=
      Step.changes ha.founded ⟨now, hh, rfl⟩
    have hcount : s.run.workers.length ≤ n :=
      Nat.le_trans (Changes.length_workers_le hchanges) hn
    exact ha.attended_handle hshares ((ih hcount).later hle) hh hn

/-- The shared core is never idle while there is work: if no slot is served in a run that goes on
and has time for a slot, the queue is empty and no worker of the shared core is live. -/
theorem idle_core {t now : Instant} (h : Timely P o t s) (hle : t ≤ now)
    (hshares : Timed.SharesPositive α s.run.workers.length)
    (hgoes : s.run.incumbent.cancelled = false) (htime : shortestSlot ≤ s.run.remaining now)
    (hcur : s.run.current = none) :
    s.run.queue = [] ∧
      ∀ id w, s.run.worker? id = some w → w.placement = .queued → w.isLive = false := by
  have ha := Reachable.arises h.reachable
  have hattended := (h.attended hshares (Nat.le_refl _)).later hle hcur
  rw [hgoes] at hattended
  rcases hattended with hcancelled | hshort | ⟨hq, hnobody⟩
  · cases hcancelled
  · exact absurd htime (Nat.not_le.mpr hshort)
  · refine ⟨hq, fun id w hw hqueued => ?_⟩
    have hrests := ha.ordered.rests id w hw hqueued fun slot hslot => by cases hcur.symm.trans hslot
    rcases hrests with hended | hsuspended
    · simp [Worker.isLive, hended]
    -- A suspended worker stands in the line, where nobody is suspended.
    · have hnot := hnobody id (ha.lined.listed id w hw hsuspended)
      have hyes := (s.run.isSuspended_iff id).mpr ⟨w, hw, hsuspended⟩
      cases hyes.symm.trans hnot

/-- The processes of both solvers end. -/
def duoExits : List RunEvent :=
  [.message (.launched 0 0 10 none), .message (.exited 0 0 true none),
    .message (.launched 1 0 11 none), .message (.exited 1 0 false (some 1))]

/-- When both solvers have ended, no slot is served, though there is time: nobody is live. -/
theorem duo_idle_core :
    ∃ s, Timely (fun _ _ => True) .duo 0 s ∧ s.run.current = none ∧
      shortestSlot ≤ s.run.remaining (Duration.ofWholeSeconds 1) ∧
      s.run.queue = [] ∧
        ∀ id w, s.run.worker? id = some w → w.placement = .queued → w.isLive = false := by
  have hhears : HearsAll (fun _ _ => True) 0 duoExits Opening.duo.situation :=
    ⟨Sends.launched_of_any 0 0 10 none (.error "") rfl, Sends.exited none [] 0 0 true none,
      Sends.launched_of_any 1 0 11 none (.error "") rfl, Sends.exited none [] 1 0 false (some 1),
      trivial⟩
  have htimely : Timely (fun _ _ => True) .duo 0 (Opening.duo.situation.takes 0 duoExits) :=
    Timely.begins.takes hhears
  have htime : shortestSlot ≤ (Opening.duo.situation.takes 0 duoExits).run.remaining
      (Duration.ofWholeSeconds 1) := by decide
  exact ⟨_, htimely, rfl, htime,
    idle_core htimely (Nat.zero_le _) (Timed.sharesPositive_rat _) rfl htime rfl⟩

end Situation

end SolverPortfolio
