import Mathlib.Algebra.Ring.Nat
import SolverPortfolio.Proofs.Handover
import SolverPortfolio.Proofs.Arising

/-
# The deadlines of slots

The time of the shared core is handed from slot to slot. What a slot leaves over goes
to the next one, and a slot that is passed over leaves all of its time over. So a slot
ends when it and all slots before it would have ended had each taken up its own time,
or at the deadline of the run, whatever became of the slots before. This holds as long
as events are taken up in time, and it is proved by an account of the slots taken.

Main definitions: `Slot.duration`, `OnTime`, `Run.Ledger`, `Moment`, `Moment.Next`.
Main statements: `Run.Takes.onTime`, `Run.Handles.ledger`,
`Situation.planned_deadline`.
-/

namespace SolverPortfolio

/-! ## The time that slots take up -/

section

variable {α : Type} [Timed α]

/-- The time that a slot takes up. One that is too long for a duration takes up the longest one. -/
def Slot.duration (slot : Slot α) : Duration :=
  if Timed.isPositive slot.seconds then (Timed.duration? slot.seconds).getD Duration.longest else 0

/-- The time that slots take up one after the other. -/
def Schedule.duration (slots : Schedule α) : Duration := (slots.map (·.duration)).sum

@[simp] theorem Schedule.duration_nil : Schedule.duration ([] : Schedule α) = 0 := rfl

@[simp] theorem Schedule.duration_cons (slot : Slot α) (slots : Schedule α) :
    Schedule.duration (slot :: slots) = slot.duration + Schedule.duration slots := rfl

@[simp] theorem Schedule.duration_append (slots more : Schedule α) :
    Schedule.duration (slots ++ more) = Schedule.duration slots + Schedule.duration more := by
  simp [Schedule.duration]

/-- The slots of a record. -/
def slotsOf (taken : List (Appointment α)) : Schedule α := taken.map (·.slot)

omit [Timed α] in
@[simp] theorem slotsOf_nil : slotsOf ([] : List (Appointment α)) = [] := rfl

omit [Timed α] in
@[simp] theorem slotsOf_cons (a : Appointment α) (taken : List (Appointment α)) :
    slotsOf (a :: taken) = a.slot :: slotsOf taken := rfl

omit [Timed α] in
@[simp] theorem slotsOf_append (taken more : List (Appointment α)) :
    slotsOf (taken ++ more) = slotsOf taken ++ slotsOf more := List.map_append

/-- Every slot that is served ends when all slots up to it have taken up their time, counted from
`due`, or at the deadline of the run. -/
def OnTime (deadline : Instant) : Instant → List (Appointment α) → Prop
  | _, [] => True
  | due, a :: rest =>
    (∀ served, a.served = some served → served.deadline = min deadline (due + a.slot.duration)) ∧
      OnTime deadline (due + a.slot.duration) rest

/-- A longer record goes on where the first part has come to. -/
theorem onTime_append {deadline due : Instant} {taken more : List (Appointment α)} :
    OnTime deadline due (taken ++ more) ↔ OnTime deadline due taken ∧
      OnTime deadline (due + Schedule.duration (slotsOf taken)) more := by
  induction taken generalizing due with
  | nil => simp [OnTime]
  | cons a taken ih =>
    simp only [List.cons_append, OnTime, ih, slotsOf_cons, Schedule.duration_cons, Nat.add_assoc,
      and_assoc]

/-- The end of a slot on the record. -/
theorem OnTime.deadline_eq {deadline due : Instant} {taken : List (Appointment α)}
    (h : OnTime deadline due taken) {i : Nat} {slot : Slot α} {served : CurrentSlot}
    (hi : taken[i]? = some ⟨slot, some served⟩) :
    served.deadline = min deadline (due + Schedule.duration ((slotsOf taken).take (i + 1))) := by
  induction taken generalizing due i with
  | nil => simp at hi
  | cons a taken ih =>
    cases i with
    | zero =>
      simp only [List.getElem?_cons_zero, Option.some.injEq] at hi
      subst hi
      simpa using h.1 served rfl
    | succ i =>
      have hrest := ih h.2 hi
      rwa [slotsOf_cons, List.take_succ_cons, Schedule.duration_cons, ← Nat.add_assoc]

/-- The end of the last slot on the record. -/
theorem OnTime.deadline_last {deadline due : Instant} {taken : List (Appointment α)}
    (h : OnTime deadline due taken) {slot : Slot α} {served : CurrentSlot}
    (hlast : taken.getLast? = some ⟨slot, some served⟩) :
    served.deadline = min deadline (due + Schedule.duration (slotsOf taken)) := by
  obtain ⟨before, rfl⟩ := List.getLast?_eq_some_iff.mp hlast
  have hend := (onTime_append.mp h).2.1 served rfl
  simpa [Nat.add_assoc] using hend

end

namespace Run

variable {α : Type} [Timed α] {now : Instant} {r r' : Run α} {slot : Slot α}

/-! ## Taking slots -/

/-- Slots leave the queue in the order in which they stand there. -/
theorem prefix_of_nextSlot {taken : Option (Slot α)} (h : r.nextSlot now = (taken, r')) :
    r.queue <+: taken.toList ++ r'.queue ∧ r'.carry = r.carry ∧ r'.deadline = r.deadline ∧
      r'.current = r.current := by
  unfold nextSlot at h
  split at h
  · next slot rest hq =>
    cases h
    exact ⟨by simp [hq], rfl, rfl, rfl⟩
  · next hq =>
    rw [hq]
    refine ⟨List.nil_prefix, ?_⟩
    dsimp only at h
    split at h
    · cases h
      exact ⟨rfl, rfl, rfl⟩
    · split at h <;> cases h <;> exact ⟨rfl, rfl, rfl⟩

/-- With its own time and what is left over, a slot ends when all slots up to it have taken up
their time. -/
theorem min_add_allotment {due : Instant} (hlong : r.deadline ≤ now + Duration.longest)
    (hdue : min r.deadline (now + r.carry) = min r.deadline due)
    (hp : Timed.isPositive slot.seconds) :
    min r.deadline (now + r.allotment slot now) = min r.deadline (due + slot.duration) := by
  have hduration : slot.duration = (Timed.duration? slot.seconds).getD Duration.longest :=
    if_pos hp
  rw [hduration, allotment, Duration.saturatingAdd, remaining]
  simp only [Duration, Instant] at *
  cases Timed.duration? slot.seconds with
  | none =>
    simp only [Option.getD_none]
    omega
  | some d =>
    simp only [Option.getD_some]
    omega

omit [Timed α] in
/-- Whoever has the time for a slot has not reached the deadline of the run. -/
theorem le_deadline (h : shortestSlot ≤ r.remaining now) : now ≤ r.deadline := by
  have hpositive : 0 < shortestSlot := by decide
  exact Nat.le_of_lt (Nat.lt_of_sub_pos (Nat.lt_of_lt_of_le hpositive h))

omit [Timed α] in
/-- A time that is cut off at the deadline of the run. -/
theorem add_min_remaining (h : now ≤ r.deadline) (d : Duration) :
    now + min d (r.remaining now) = min r.deadline (now + d) := by
  rw [remaining]
  simp only [Duration, Instant] at *
  omega

/-- A slot that is passed over leaves over all its time. -/
theorem Serving.min_add_carry {r₁ : Run α} (h : Serving r slot now (.passed r₁))
    {due : Instant} (hlong : r.deadline ≤ now + Duration.longest)
    (hdue : min r.deadline (now + r.carry) = min r.deadline due) :
    min r.deadline (now + r₁.carry) = min r.deadline (due + slot.duration) := by
  cases h with
  | unallotted hp n =>
    have hnothing : slot.duration = 0 := if_neg (by simp [hp])
    rw [hnothing]
    exact hdue
  | skipped hp hle workers effects => exact min_add_allotment hlong hdue hp

/-- What is served when a slot is settled. -/
theorem Serving.deadline_eq {r₁ : Run α} (h : Serving r slot now (.settled r₁))
    (hcur : r.current = none) {due : Instant} (hlong : r.deadline ≤ now + Duration.longest)
    (hdue : min r.deadline (now + r.carry) = min r.deadline due) :
    r₁.queue = r.queue ∧ r₁.deadline = r.deadline ∧
      ∀ served, r₁.current = some served → r₁.carry = 0 ∧ now ≤ served.deadline ∧
        served.deadline = min r.deadline (due + slot.duration) := by
  cases h with
  | late hp hshort =>
    refine ⟨rfl, rfl, fun served hserved => ?_⟩
    cases hcur.symm.trans hserved
  | served hp hle workers effects suspended worker =>
    refine ⟨rfl, rfl, fun served hserved => ?_⟩
    cases hserved
    refine ⟨rfl, Nat.le_add_right _ _, ?_⟩
    rw [← min_add_allotment hlong hdue hp]
    exact add_min_remaining (le_deadline hle) _

/-- The slots that are taken end on time, and the one that is served last is on the record. -/
theorem Takes.onTime {taken : List (Appointment α)} (h : Takes now r taken r') {due : Instant}
    (hlong : r.deadline ≤ now + Duration.longest) (hcur : r.current = none)
    (hdue : min r.deadline (now + r.carry) = min r.deadline due) :
    OnTime r.deadline due taken ∧ r'.deadline = r.deadline ∧
      r.queue <+: slotsOf taken ++ r'.queue ∧
      ∀ served, r'.current = some served → r'.carry = 0 ∧ now ≤ served.deadline ∧
        ∃ slot, taken.getLast? = some ⟨slot, some served⟩ := by
  induction h generalizing due with
  | nothing hn =>
    obtain ⟨hqueue, -, hD, hnext⟩ := prefix_of_nextSlot hn
    refine ⟨trivial, hD, hqueue, fun served hserved => ?_⟩
    cases (hnext.trans hcur).symm.trans hserved
  | @settled r r₁ r₂ slot hn hs =>
    obtain ⟨hqueue, hcarry, hD, hnext⟩ := prefix_of_nextSlot hn
    rw [← hD] at hlong hdue ⊢
    rw [← hcarry] at hdue
    have hserving := serving_serveSlot r₁ slot now
    rw [hs] at hserving
    obtain ⟨hqueue', hD', hserved⟩ := hserving.deadline_eq (hnext.trans hcur) hlong hdue
    refine ⟨⟨fun served h => (hserved served h).2.2, trivial⟩, hD', ?_, fun served h => ?_⟩
    · rw [hqueue']
      exact hqueue
    · obtain ⟨hzero, hle, -⟩ := hserved served h
      exact ⟨hzero, hle, slot, by rw [h]; rfl⟩
  | @passed r r₁ r₂ r₃ slot taken hn hs h ih =>
    obtain ⟨hqueue, hcarry, hD, hnext⟩ := prefix_of_nextSlot hn
    rw [← hD] at hlong hdue ⊢
    rw [← hcarry] at hdue
    have hserving := serving_serveSlot r₁ slot now
    rw [hs] at hserving
    obtain ⟨hqueue', -, hnext', hD'⟩ := hserving.kept_of_passed
    have hdue' := hserving.min_add_carry hlong hdue
    rw [← hD'] at hlong hdue' ⊢
    obtain ⟨hontime, hD'', hrest, hlast⟩ := ih hlong (hnext'.trans (hnext.trans hcur)) hdue'
    refine ⟨⟨fun served h => (by cases h), hontime⟩, hD'', ?_, fun served hserved => ?_⟩
    · refine hqueue.trans ?_
      rw [← hqueue']
      exact (List.prefix_cons_inj slot).mpr hrest
    · obtain ⟨hzero, hle, slot', hslot'⟩ := hlast served hserved
      exact ⟨hzero, hle, slot', by rw [List.getLast?_cons, hslot']; rfl⟩

/-! ## The account of a run -/

/-- The account of a run at a time: the slots taken and those in the queue begin with the slots
planned, the slots taken end on time, and the one that is being served is the last of them. -/
structure Ledger (plan : Schedule α) (deadline start now : Instant)
    (taken : List (Appointment α)) (r : Run α) : Prop where
  deadline_eq : r.deadline = deadline
  long : deadline ≤ now + Duration.longest
  inOrder : plan <+: slotsOf taken ++ r.queue
  onTime : OnTime deadline start taken
  current : ∀ served, r.current = some served → r.carry = 0 ∧ now ≤ served.deadline ∧
    ∃ slot, taken.getLast? = some ⟨slot, some served⟩

variable {plan : Schedule α} {deadline start : Instant} {taken more : List (Appointment α)}

/-- The time of slots is on the account when a run goes on to the next slot. -/
theorem Advances.ledger (h : Advances now r more r') (hD : r.deadline = deadline)
    (hlong : deadline ≤ now + Duration.longest) (hplan : plan <+: slotsOf taken ++ r.queue)
    (hontime : OnTime deadline start taken)
    (hdue : min deadline (now + r.carry)
      = min deadline (start + Schedule.duration (slotsOf taken))) :
    Ledger plan deadline start now (taken ++ more) r' := by
  subst hD
  cases h with
  | cancelled h | endless h =>
    rw [List.append_nil]
    exact ⟨rfl, hlong, hplan, hontime, fun served h => by cases h⟩
  | takes h =>
    obtain ⟨hmore, hD', hqueue, hlast⟩ := h.onTime hlong rfl hdue
    refine ⟨hD', hlong, ?_, onTime_append.mpr ⟨hontime, hmore⟩, fun served hserved => ?_⟩
    · rw [slotsOf_append, List.append_assoc]
      exact hplan.trans (List.prefix_append_right_inj _ |>.mpr hqueue)
    · obtain ⟨hzero, hle, slot, hslot⟩ := hlast served hserved
      exact ⟨hzero, hle, slot, by rw [List.getLast?_append, hslot]; rfl⟩

/-- The account goes on while the slot being served does. -/
theorem Ledger.later {later : Instant} (h : Ledger plan deadline start now taken r)
    (hle : now ≤ later) (hserved : ∀ served, r.current = some served → later ≤ served.deadline) :
    Ledger plan deadline start later taken r where
  deadline_eq := h.deadline_eq
  long := Nat.le_trans h.long (Nat.add_le_add_right hle _)
  inOrder := h.inOrder
  onTime := h.onTime
  current := by
    intro served hcur
    obtain ⟨hzero, -, hlast⟩ := h.current served hcur
    exact ⟨hzero, hserved served hcur, hlast⟩

/-- The slots taken first are the ones planned. -/
theorem Ledger.planned (h : Ledger plan deadline start now taken r) {i : Nat}
    {a : Appointment α} (hi : taken[i]? = some a) (hlt : i < plan.length) :
    plan[i]? = some a.slot ∧ plan.take (i + 1) = (slotsOf taken).take (i + 1) := by
  obtain ⟨rest, hrest⟩ := h.inOrder
  have hslot : (slotsOf taken)[i]? = some a.slot := by rw [slotsOf, List.getElem?_map, hi]; rfl
  obtain ⟨hlt', -⟩ := List.getElem?_eq_some_iff.mp hslot
  constructor
  · have hboth : (plan ++ rest)[i]? = some a.slot := by
      rw [hrest, List.getElem?_append_left hlt', hslot]
    rwa [List.getElem?_append_left hlt] at hboth
  · have hboth : (plan ++ rest).take (i + 1) = (slotsOf taken).take (i + 1) := by
      rw [hrest, List.take_append_of_le_length hlt']
    rwa [List.take_append_of_le_length hlt] at hboth

/-- What is left of the slot being served makes up for the time that all slots taken take up. -/
theorem Ledger.min_add_rest (h : Ledger plan deadline start now taken r) {served : CurrentSlot}
    (hcur : r.current = some served) :
    min deadline (now + (r.carry + (served.deadline - now)))
      = min deadline (start + Schedule.duration (slotsOf taken)) := by
  obtain ⟨hzero, hle, slot, hlast⟩ := h.current served hcur
  have hend := h.onTime.deadline_last hlast
  have hrest : now + (r.carry + (served.deadline - now)) = served.deadline := by
    rw [hzero, Nat.zero_add, Nat.add_sub_cancel' hle]
  rw [hrest, hend, ← Nat.min_assoc, Nat.min_self]

/-- The account goes on while workers end and their slots are handed over. -/
theorem Attends.ledger (h : Attends now r more r')
    (hr : Ledger plan deadline start now taken r) :
    Ledger plan deadline start now (taken ++ more) r' := by
  induction h with
  | refl => simpa using hr
  | aside _ hc ih =>
    exact
      { deadline_eq := hc.deadline.trans ih.deadline_eq
        long := ih.long
        inOrder := by rw [hc.queue]; exact ih.inOrder
        onTime := ih.onTime
        current := by rw [hc.current, hc.carry]; exact ih.current }
  | handOver _ hc ha ih =>
    rw [← List.append_assoc]
    exact ha.ledger ih.deadline_eq ih.long ih.inOrder ih.onTime (ih.min_add_rest hc)

/-- The account goes on with every event, if a slot runs out at its deadline. -/
theorem Handles.ledger {e : RunEvent} (h : Handles now r e more r')
    (hr : Ledger plan deadline start now taken r)
    (he : e = .slotExpired → ∀ served, r.current = some served → now = served.deadline) :
    Ledger plan deadline start now (taken ++ more) r' := by
  cases h with
  | attends _ h => exact h.ledger hr
  | @expires _ _ _ slot hc hresponse ha =>
    obtain ⟨hq, hcarry, hD⟩ := hresponse.plan_eq_of_slotExpired
    have hrest := hr.min_add_rest hc
    -- Nothing is left of the slot.
    rw [he rfl slot hc, Nat.sub_self, Nat.add_zero, ← he rfl slot hc, ← hcarry] at hrest
    refine ha.ledger (hD.trans hr.deadline_eq) hr.long ?_ hr.onTime hrest
    rw [hq]
    exact hr.inOrder

end Run

/-! ## Events in time -/

/-- A moment of a run: the situation at a time, and the slots taken up to then. -/
structure Moment (α : Type) where
  time : Instant
  situation : Situation α
  taken : List (Appointment α)

namespace Moment

variable {α : Type} [Timed α] {P : Discipline} {m m' : Moment α}

/-- An event may be taken up in time: not before the one before, not after the deadline of the slot
being served, and at this deadline if the slot runs out. -/
structure Expects (P : Discipline) (m : Moment α) (e : RunEvent) (now : Instant) : Prop where
  hears : m.situation.Hears P e
  later : m.time ≤ now
  inTime : ∀ served, m.situation.run.current = some served →
    now ≤ served.deadline ∧ (e = .slotExpired → now = served.deadline)

/-- The next event is taken up in time. -/
inductive Next (P : Discipline) (m : Moment α) : Moment α → Prop where
  | take {e : RunEvent} {now : Instant} {more : List (Appointment α)} (h : m.Expects P e now)
      (hmore : Run.Handles now m.situation.run e more (m.situation.run.handle e now)) :
      Next P m ⟨now, m.situation.after e (m.situation.run.handle e now), m.taken ++ more⟩

/-- Events are taken up in time, one after another. -/
abbrev Nexts (P : Discipline) : Moment α → Moment α → Prop := Relation.ReflTransGen (Next P)

/-- The account of the run at a moment. -/
abbrev Ledger (plan : Schedule α) (deadline start : Instant) (m : Moment α) : Prop :=
  m.situation.run.Ledger plan deadline start m.time m.taken

/-- The account goes on with every event in time. -/
theorem Next.ledger {plan : Schedule α} {deadline start : Instant} (h : Next P m m')
    (hm : m.Ledger plan deadline start) : m'.Ledger plan deadline start := by
  obtain ⟨hexpects, hmore⟩ := h
  have hlater := Run.Ledger.later hm hexpects.later fun served h => (hexpects.inTime served h).1
  exact hmore.ledger hlater fun he served h => (hexpects.inTime served h).2 he

/-- The account goes on as long as events are taken up in time. -/
theorem Nexts.ledger {plan : Schedule α} {deadline start : Instant} (h : Nexts P m m')
    (hm : m.Ledger plan deadline start) : m'.Ledger plan deadline start := by
  induction h with
  | refl => exact hm
  | tail _ hnext ih => exact hnext.ledger ih

/-- Events in time are steps. -/
theorem Nexts.steps (h : Nexts P m m') : Situation.Steps P m.situation m'.situation := by
  induction h with
  | refl => exact Relation.ReflTransGen.refl
  | tail _ hnext ih =>
    obtain ⟨hexpects, -⟩ := hnext
    exact ih.tail ⟨_, _, hexpects.hears, rfl⟩

/-- Every event in time can be put on record. -/
theorem exists_next (hs : m.situation.Founded) {e : RunEvent} {now : Instant}
    (h : m.Expects P e now) :
    ∃ m', Next P m m' ∧ m'.time = now ∧
      m'.situation = m.situation.after e (m.situation.run.handle e now) := by
  have hknown : ∀ message, e = .message message →
      ∃ w, m.situation.run.worker? message.key.1 = some w := by
    rintro message rfl
    obtain ⟨w, hw, -⟩ := hs.of_sends h.hears
    exact ⟨w, hw⟩
  obtain ⟨more, hmore⟩ := Run.exists_handles hs.numbered e now hknown
  exact ⟨_, .take h hmore, rfl, rfl⟩

end Moment

/-! ## The slots planned for the shared core -/

namespace Opening

variable {α : Type}

/-- The deadline of a run. -/
def deadline (o : Opening α) : Instant := o.setUp + o.settings.timeout

/-- Adding the workers with a core of their own leaves no time over, and the deadline as it is. -/
theorem plan_ready (o : Opening α) : o.ready.deadline = o.deadline ∧ o.ready.carry = 0 := by
  refine List.foldlRecOn o.schedule.dedicated _
    (motive := fun r : Run α => r.deadline = o.deadline ∧ r.carry = 0) ⟨rfl, rfl⟩ ?_
  intro r hr name _
  obtain ⟨w, effects, -, heq⟩ := r.exists_newcomer name .dedicated o.begun
  rw [heq]
  exact hr

variable [Timed α]

/-- A moment at which the run has begun, and nothing else has happened. -/
structure Begins (o : Opening α) (m : Moment α) : Prop where
  time : m.time = o.begun
  situation : m.situation = o.situation
  taken : Run.Advances o.begun o.ready m.taken m.situation.run

/-- There is such a moment. -/
theorem exists_begins (o : Opening α) : ∃ m, o.Begins m := by
  obtain ⟨taken, ha⟩ := Run.exists_advances o.ready o.begun
  exact ⟨⟨o.begun, o.situation, taken⟩, rfl, rfl, ha⟩

/-- The account of a run that has begun. -/
theorem Begins.ledger {o : Opening α} {m : Moment α} (h : o.Begins m) (hset : o.setUp ≤ o.begun)
    (hlong : o.settings.timeout ≤ Duration.longest) :
    m.Ledger o.schedule.shared o.deadline o.begun := by
  obtain ⟨hD, hcarry⟩ := o.plan_ready
  have hledger : Run.Ledger o.schedule.shared o.deadline o.begun o.begun ([] ++ m.taken)
      m.situation.run :=
    h.taken.ledger hD (Nat.add_le_add hset hlong) (List.prefix_refl _) trivial
      (by rw [hcarry]; rfl)
  rw [Moment.Ledger, h.time]
  exact hledger

end Opening

namespace Situation

variable {α : Type} [Timed α] {P : Discipline} {o : Opening α}

/-- Time of the shared core is neither lost nor invented. As long as events are taken up in time,
each planned slot that is served ends when all planned slots up to it have taken up their time, or
at the deadline of the run. The record of slots on which this is read goes on with every event, and
the slot being served is the last one on it. -/
theorem planned_deadline (hset : o.setUp ≤ o.begun)
    (hlong : o.settings.timeout ≤ Duration.longest) :
    (∃ m, o.Begins m) ∧ ∀ m₀ m : Moment α, o.Begins m₀ → Moment.Nexts P m₀ m →
      (∀ i slot served, m.taken[i]? = some ⟨slot, some served⟩ → i < o.schedule.shared.length →
        o.schedule.shared[i]? = some slot ∧
          served.deadline =
            min o.deadline (o.begun + Schedule.duration (o.schedule.shared.take (i + 1)))) ∧
      (∀ served, m.situation.run.current = some served →
        ∃ slot, m.taken.getLast? = some ⟨slot, some served⟩) ∧
      ∀ e now, m.Expects P e now → ∃ m', Moment.Next P m m' ∧ m'.time = now ∧
        m'.situation = m.situation.after e (m.situation.run.handle e now) := by
  refine ⟨o.exists_begins, fun m₀ m hbegins hnexts => ?_⟩
  have hledger := hnexts.ledger (hbegins.ledger hset hlong)
  refine ⟨fun i slot served hi hlt => ?_, fun served hcur => ?_, fun e now hexpects => ?_⟩
  · obtain ⟨hslot, htake⟩ := hledger.planned hi hlt
    rw [htake]
    exact ⟨hslot, hledger.onTime.deadline_eq hi⟩
  · exact (hledger.current served hcur).2.2
  · have hreachable := hnexts.steps
    rw [hbegins.situation] at hreachable
    exact Moment.exists_next (Reachable.arises hreachable).founded hexpects

end Situation

/-! ## The two solvers -/

/-- The two solvers have begun: the first one has its slot of one second. -/
def Opening.duoBegun : Moment Rat :=
  ⟨0, Opening.duo.situation, [⟨⟨"a", 1⟩, some ⟨0, Duration.ofWholeSeconds 1⟩⟩]⟩

/-- The first slot is taken when the run begins. -/
theorem Opening.begins_duo : Opening.duo.Begins duoBegun where
  time := rfl
  situation := rfl
  taken := by
    have hnext : Run.nextSlot { Opening.duo.ready with current := none } 0
        = (some ⟨"a", 1⟩, { Opening.duo.ready with current := none, queue := [⟨"b", 5⟩] }) := rfl
    have htakes : Run.Takes 0 { Opening.duo.ready with current := none }
        [⟨⟨"a", 1⟩, Opening.duo.situation.run.current⟩] Opening.duo.situation.run :=
      .settled hnext rfl
    exact .takes htakes

namespace Situation

/-- The process of the first solver is up after 200 ms, and ends after 400 ms. The rest of its
second goes to the second solver, so that the slots end after one and six seconds. -/
theorem duo_planned_deadline :
    Opening.duo.Begins Opening.duoBegun ∧
      Duration.ofWholeSeconds 1 = min (Duration.ofWholeSeconds 10)
        (0 + Schedule.duration (Opening.duo.schedule.shared.take 1)) ∧
      ∃ m, Moment.Nexts (fun _ _ => True) Opening.duoBegun m ∧
        m.situation.run.current = some ⟨1, Duration.ofWholeSeconds 6⟩ ∧
        ∃ slot, m.taken.getLast? = some ⟨slot, some ⟨1, Duration.ofWholeSeconds 6⟩⟩ := by
  have hplanned := (planned_deadline (P := fun _ _ => True) (o := .duo) (by decide)
    (by decide)).2 Opening.duoBegun
  obtain ⟨hdeadline, -, hnext⟩ := hplanned _ Opening.begins_duo .refl
  refine ⟨Opening.begins_duo, (hdeadline 0 _ _ rfl (by decide)).2, ?_⟩
  have hlaunched : Opening.duoBegun.Expects (fun _ _ => True)
      (.message (.launched 0 0 10 none)) (Duration.ofMillis 200) := by
    refine ⟨Sends.launched_of_any 0 0 10 none (.error "") rfl, by decide, fun served h => ?_⟩
    cases h
    exact ⟨by decide, by simp⟩
  obtain ⟨m₁, hm₁, ht₁, hs₁⟩ := hnext _ _ hlaunched
  obtain ⟨-, -, hnext⟩ := hplanned m₁ Opening.begins_duo (.single hm₁)
  have hexited : m₁.Expects (fun _ _ => True)
      (.message (.exited 0 0 true none)) (Duration.ofMillis 400) := by
    obtain ⟨time, situation, taken⟩ := m₁
    dsimp only at ht₁ hs₁
    subst ht₁ hs₁
    have hle : Duration.ofMillis 200 ≤ Duration.ofMillis 400 := by decide
    refine ⟨Sends.exited none [] 0 0 true none, hle, fun served h => ?_⟩
    cases h
    exact ⟨by decide, by simp⟩
  obtain ⟨m₂, hm₂, -, hs₂⟩ := hnext _ _ hexited
  obtain ⟨-, hlast, -⟩ := hplanned m₂ Opening.begins_duo (.tail (.single hm₁) hm₂)
  have hcurrent : m₂.situation.run.current = some ⟨1, Duration.ofWholeSeconds 6⟩ := by
    rw [hs₂, hs₁]
    rfl
  exact ⟨m₂, .tail (.single hm₁) hm₂, hcurrent, hlast _ hcurrent⟩

end Situation

end SolverPortfolio
