import SolverPortfolio.Proofs.Deadlines
import SolverPortfolio.Proofs.Idleness
import SolverPortfolio.Proofs.Reading

/-
# Sharing the time that is left

When the queue is empty, the time left is shared among the suspended workers, in the
order in which they were suspended. The time that the slot before has left over is a
part of the time left, but it is given to the first of them on top of its share. So
the shares are equal only if nothing was left over; otherwise the last workers get
less, or nothing.

Main definitions: `Run.expire`, `Run.Turns`.
Main statements: `Timed.duration?_share`, `Situation.Arises.turns_advance`,
`Situation.Arises.turns_expire`, `Situation.shares_of_time_left`.
-/

namespace SolverPortfolio

open Number

/-! ## Exact shares -/

/-- An exact share is a fraction of seconds. -/
theorem Timed.share_rat (d : Duration) (n : Nat) :
    (Timed.share d n : Rat) = mkRat d (Duration.perSecond * n) := by
  change mkRat d Duration.perSecond / mkRat n 1 = _
  rw [Rat.mkRat_eq_divInt, Rat.mkRat_eq_divInt, Rat.divInt_div_divInt, Rat.mkRat_eq_divInt]
  push_cast
  rw [mul_one]

/-- A fraction of seconds lasts as many nanoseconds as are nearest to it. -/
theorem Timed.duration?_mkRat {num den : Nat} (hden : 0 < den)
    (hlong : halfToEven (num * Duration.perSecond) den ≤ Duration.longest) :
    Timed.duration? (mkRat num den) = some (halfToEven (num * Duration.perSecond) den) := by
  generalize hx : mkRat num den = x
  have hnonneg : 0 ≤ x := by
    rw [← hx]
    exact Rat.mkRat_nonneg (Int.natCast_nonneg num) den
  have hnum : (x.num.toNat : Int) = x.num := Int.toNat_of_nonneg (Rat.num_nonneg.mpr hnonneg)
  -- The fraction in lowest terms is rounded like the fraction itself.
  have hcross : x.num.toNat * den = num * x.den := by
    have hself : mkRat num den = mkRat x.num x.den := by rw [hx, Rat.mkRat_self]
    have hint := (Rat.mkRat_eq_iff hden.ne' x.den_nz).mp hself
    rw [← hnum] at hint
    exact_mod_cast hint.symm
  have hround : halfToEven (x.num.toNat * Duration.perSecond) x.den
      = halfToEven (num * Duration.perSecond) den := by
    refine halfToEven_congr x.den_pos hden ?_
    rw [Nat.mul_right_comm, hcross, Nat.mul_right_comm]
  change (if x < 0 then none else Duration.ofRatio? x.num.toNat x.den) = _
  rw [if_neg (not_lt.mpr hnonneg), Duration.ofRatio?, hround]
  exact if_pos hlong

/-- The share of a duration in nanoseconds. -/
theorem Timed.duration?_share {d : Duration} {n : Nat} (hn : 0 < n) (hd : d ≤ Duration.longest) :
    Timed.duration? (Timed.share d n : Rat) = some (halfToEven d n) := by
  have hsecond : 0 < Duration.perSecond := by decide
  have hround : halfToEven (d * Duration.perSecond) (Duration.perSecond * n) = halfToEven d n := by
    rw [Nat.mul_comm Duration.perSecond n]
    exact halfToEven_mul hsecond d n
  rw [Timed.share_rat, Timed.duration?_mkRat (Nat.mul_pos hsecond hn), hround]
  rw [hround]
  exact Nat.le_trans (halfToEven_le hn) hd

/-- A slot for an exact share takes up the share. -/
theorem Slot.duration_share {d : Duration} {n : Nat} (hn : 0 < n) (hle : shortestSlot ≤ d)
    (hd : d ≤ Duration.longest) (solver : String) :
    (⟨solver, Timed.share d n⟩ : Slot Rat).duration = halfToEven d n := by
  have hp : Timed.isPositive (Timed.share d n : Rat) :=
    Timed.sharesPositive_rat n d n hle hn (Nat.le_refl n)
  simp only [Slot.duration, hp, if_true, Timed.duration?_share hn hd, Option.getD_some]

/-! ## Waiting for a turn -/

namespace Run

variable {α : Type} [Timed α] {r r' : Run α} {now : Instant} {slot : CurrentSlot}

/-- The slot being served runs out at its deadline. -/
def expire (r : Run α) : Run α :=
  match r.current with
  | some slot => r.handle .slotExpired slot.deadline
  | none => r

/-- Where no slot is served, none runs out. -/
theorem expire_of_idle (h : r.current = none) : r.expire = r := by
  unfold expire
  rw [h]

omit [Timed α] in
/-- The worker `id` is served up to `due` or the deadline of the run, while the suspended workers
`ids` wait for slots of one length, and nothing is left over. -/
structure Turns (deadline due : Instant) (seconds : α) (id : WorkerId) (ids : List WorkerId)
    (r : Run α) : Prop where
  current : r.current = some ⟨id, min deadline due⟩
  carry : r.carry = 0
  goes : r.incumbent.cancelled = false
  deadline_eq : r.deadline = deadline
  long : deadline ≤ due + Duration.longest
  queue : r.queue = ids.map fun other => ⟨r.nameOf other, seconds⟩
  waits : ∀ other ∈ ids, r.isSuspended other
  nodup : (id :: ids).Nodup

omit [Timed α] in
/-- A worker that stays as it is keeps its name, and waits as before. -/
theorem nameOf_congr {id : WorkerId} (h : r'.worker? id = r.worker? id) :
    r'.nameOf id = r.nameOf id ∧ r'.isSuspended id = r.isSuspended id := by
  rw [nameOf, nameOf, isSuspended, isSuspended, h]
  exact ⟨rfl, rfl⟩

omit [Timed α] in
/-- The end of a slot concerns the worker of this slot only. -/
theorem Response.eq_of_slotExpired (h : Response now r .slotExpired r')
    (hc : r.current = some slot) : r'.incumbent = r.incumbent ∧
      ∀ id ≠ slot.worker, r'.worker? id = r.worker? id := by
  cases h with
  | idle _ => exact ⟨rfl, fun id _ => rfl⟩
  | suspended n hc' hs hw hp he | expired n hc' hs hw he =>
    cases hc.symm.trans hc'
    rw [hs]
    exact ⟨rfl, fun id hid => List.getElem?_modify_ne _ _ hid.symm⟩

/-- When the slot being served runs out, the next one to take is that of the first who waits. -/
theorem Turns.of_slotExpired {deadline due : Instant} {seconds : α} {served id : WorkerId}
    {ids : List WorkerId} (h : r.Turns deadline due seconds served (id :: ids))
    (hr : Response now r .slotExpired r') :
    r'.incumbent.cancelled = false ∧ r'.carry = 0 ∧ r'.deadline = deadline ∧
      (∀ other ∈ id :: ids, r'.isSuspended other) ∧
      { r' with current := none }.nextSlot now = (some ⟨r'.nameOf id, seconds⟩, { r' with
        current := none
        queue := ids.map fun other => ⟨r'.nameOf other, seconds⟩ }) := by
  obtain ⟨hq, hcarry, hD⟩ := hr.plan_eq_of_slotExpired
  obtain ⟨hincumbent, hothers⟩ := hr.eq_of_slotExpired h.current
  have hkeep {other : WorkerId} (hother : other ∈ id :: ids) :
      r'.nameOf other = r.nameOf other ∧ r'.isSuspended other = r.isSuspended other :=
    nameOf_congr (hothers other (ne_of_mem_of_not_mem hother (List.nodup_cons.mp h.nodup).1))
  have hqueue : r'.queue = (id :: ids).map fun other => ⟨r'.nameOf other, seconds⟩ := by
    rw [hq, h.queue]
    exact List.map_congr_left fun other hother => by rw [(hkeep hother).1]
  refine ⟨?_, hcarry.trans h.carry, hD.trans h.deadline_eq, fun other hother => ?_, ?_⟩
  · rw [hincumbent]
    exact h.goes
  · exact (hkeep hother).2.trans (h.waits other hother)
  · unfold nextSlot
    simp only [hqueue, List.map_cons]

end Run

namespace Situation

section

variable {α : Type} [Timed α] {P : Discipline} {o : Opening α} {s : Situation α} {now : Instant}
  {seconds : α} {id : WorkerId} {ids line : List WorkerId}

/-- The run goes on to a suspended worker, while others wait for slots of the same length. -/
theorem Arises.turns_advance (ha : Arises P o s) (hgoes : s.run.incumbent.cancelled = false)
    (hlong : s.run.deadline ≤ now + Duration.longest) (hp : Timed.isPositive seconds)
    (hle : shortestSlot ≤ s.run.remaining now)
    (hwaits : ∀ other ∈ id :: ids, s.run.isSuspended other) (hnodup : (id :: ids).Nodup)
    (hnext : { s.run with current := none }.nextSlot now = (some ⟨s.run.nameOf id, seconds⟩,
      { s.run with
        current := none
        suspended := line
        queue := ids.map fun other => ⟨s.run.nameOf other, seconds⟩ })) :
    ∃ w, s.run.worker? id = some w ∧ w.phase = .suspended ∧
      (s.run.advance now).worker? id = some w.resume ∧
      (s.run.advance now).suspended = line.filter (· ≠ id) ∧
      (s.run.advance now).queue = ids.map (fun other => ⟨s.run.nameOf other, seconds⟩) ∧
      (s.run.advance now).Turns s.run.deadline
        (now + s.run.carry + (⟨s.run.nameOf id, seconds⟩ : Slot α).duration) seconds id ids := by
  have hid : s.run.isSuspended id := hwaits id List.mem_cons_self
  obtain ⟨w, hw, rfl, hphase, hlast⟩ := ha.exists_suspended hid
  let slot : Slot α := ⟨s.run.nameOf w.id, seconds⟩
  let r₁ : Run α := { s.run with
    current := none
    suspended := line
    queue := ids.map fun other => ⟨s.run.nameOf other, seconds⟩ }
  have hserve : r₁.serveSlot slot now = .settled _ :=
    Run.serveSlot_of_suspended (r := r₁) hp hle hlast hphase
  obtain ⟨n, hn⟩ := Run.resumeWorker_eq { r₁ with carry := 0 } w
  rw [hn] at hserve
  have hdeadline : now + min (r₁.allotment slot now) (r₁.remaining now)
      = min s.run.deadline (now + s.run.carry + slot.duration) := by
    rw [← Run.min_add_allotment (r := r₁) hlong rfl hp]
    exact Run.add_min_remaining (Run.le_deadline hle) _
  rw [hdeadline] at hserve
  have hadvance := Run.advance_of_settled hgoes hnext hserve
  have hself : (s.run.advance now).worker? w.id = some w.resume := by
    rw [hadvance]
    change (s.run.workers.modify w.id (·.resume))[w.id]? = _
    rw [List.getElem?_modify_eq, show s.run.workers[w.id]? = some w from hw]
    rfl
  have hothers {other : WorkerId} (hother : other ∈ ids) :
      (s.run.advance now).worker? other = s.run.worker? other := by
    rw [hadvance]
    exact List.getElem?_modify_ne _ _
      (ne_of_mem_of_not_mem hother (List.nodup_cons.mp hnodup).1).symm
  have hqueue : (s.run.advance now).queue = ids.map fun other => ⟨s.run.nameOf other, seconds⟩ := by
    rw [hadvance]
  refine ⟨w, hw, hphase, hself, by rw [hadvance], hqueue, ?_⟩
  constructor
  case current | carry | deadline_eq => rw [hadvance]
  case goes =>
    rw [hadvance]
    exact hgoes
  case long =>
    simp only [Duration, Instant] at *
    omega
  case queue =>
    rw [hqueue]
    exact List.map_congr_left fun other hother => by rw [(Run.nameOf_congr (hothers hother)).1]
  case waits =>
    intro other hother
    rw [(Run.nameOf_congr (hothers hother)).2]
    exact hwaits other (List.mem_cons_of_mem _ hother)
  case nodup => exact hnodup

/-- When a slot runs out, the next one who waits has a turn, unless there is no time left for a
slot. -/
theorem Arises.turns_expire (ha : Arises P o s) {deadline due : Instant} {served : WorkerId}
    (h : s.run.Turns deadline due seconds served (id :: ids)) (hp : Timed.isPositive seconds)
    {share : Duration} (hshare : ∀ name, (⟨name, seconds⟩ : Slot α).duration = share) :
    Arises P o { s with run := s.run.expire } ∧
      (due + shortestSlot ≤ deadline →
        s.run.expire.Turns deadline (due + share) seconds id ids) ∧
      (deadline < due + shortestSlot → s.run.expire.current = none) := by
  have hexpire : s.run.expire = s.run.expireSlot (min deadline due) := by
    unfold Run.expire
    rw [h.current]
    rfl
  obtain ⟨r₁, hr, ⟨hc, -⟩ | ⟨-, heq, hgone⟩⟩ :=
    Run.response_slotExpired ha.founded.numbered (min deadline due)
  · cases h.current.symm.trans hc
  have hhears : s.Hears P .slotExpired := trivial
  have ha₁ : Arises P o { s with run := r₁ } := ha.change (.respond _ hhears hr)
  have hover : ∀ slot w, r₁.current = some slot → r₁.worker? slot.worker = some w →
      w.phase = .terminated ∨ w.phase = .suspended :=
    fun slot w hslot hw => absurd hw (hgone slot w hslot)
  obtain ⟨hgoes, hcarry, hD, hwaits, hnext⟩ := h.of_slotExpired hr
  rw [hexpire, heq]
  refine ⟨ha₁.moves (Run.moves_advance ha₁.founded.numbered _ hover), fun hle => ?_, fun hlt => ?_⟩
  · rw [Nat.min_eq_right (Nat.le_of_add_right_le hle)] at hnext ⊢
    have htime : shortestSlot ≤ r₁.remaining due := by
      rw [Run.remaining, hD]
      exact Nat.le_sub_of_add_le' hle
    have hlong : r₁.deadline ≤ due + Duration.longest := by
      rw [hD]
      exact h.long
    obtain ⟨w, -, -, -, -, -, hturns⟩ := ha₁.turns_advance hgoes hlong hp htime hwaits
      (List.nodup_cons.mp h.nodup).2 hnext
    rwa [hD, hcarry, Nat.add_zero, hshare] at hturns
  · have htime : r₁.remaining (min deadline due) < shortestSlot := by
      have hshortest : 0 < shortestSlot := by decide
      rw [Run.remaining, hD]
      simp only [Duration, Instant] at *
      omega
    rw [Run.advance_of_settled hgoes hnext (Run.serveSlot_of_late hp htime)]

/-- While slots run out one after another, those who wait have their turns one after another, each
for a share, up to the deadline of the run. -/
theorem Arises.current_expire (ha : Arises P o s) {deadline due : Instant} {served : WorkerId}
    (h : s.run.Turns deadline due seconds served ids) (hp : Timed.isPositive seconds)
    {share : Duration} (hshare : ∀ name, (⟨name, seconds⟩ : Slot α).duration = share) {i : Nat}
    (hi : ids[i]? = some id) :
    (Run.expire^[i + 1] s.run).current =
      if due + i * share + shortestSlot ≤ deadline then
        some ⟨id, min deadline (due + (i + 1) * share)⟩
      else none := by
  -- The induction is on the line: each slot that runs out is followed by that of its first worker.
  induction ids generalizing s due served i with
  | nil => simp at hi
  | cons next rest ih =>
    obtain ⟨ha', hturn, hlate⟩ := ha.turns_expire h hp hshare
    rw [Function.iterate_succ_apply]
    cases i with
    | zero =>
      rw [List.getElem?_cons_zero, Option.some.injEq] at hi
      subst hi
      rw [Nat.zero_mul, Nat.add_zero, Nat.one_mul, Function.iterate_zero_apply]
      split
      · next hle => exact (hturn hle).current
      · next hlt => exact hlate (Nat.not_le.mp hlt)
    | succ i =>
      have hlater (n : Nat) : due + share + n * share = due + (n + 1) * share := by
        rw [Nat.succ_mul, Nat.add_assoc, Nat.add_comm share]
      by_cases hle : due + shortestSlot ≤ deadline
      · rw [ih ha' (hturn hle) hi, hlater, hlater]
      -- Once it is too late for a slot, nothing is served any more.
      · have hidle := hlate (Nat.not_le.mp hle)
        rw [Function.iterate_fixed (Run.expire_of_idle hidle), hidle, if_neg]
        simp only [Duration, Instant] at *
        omega

end

variable {P : Discipline} {o : Opening Rat} {s : Situation Rat} {now : Instant}

/-- When the queue is empty, the time left is shared among the suspended workers, and what the slot
before has left over is given to the first of them on top of its share. While slots run out one
after another, each of the others is served for a share as well, in the order in which they were
suspended, but only up to the deadline of the run, and not when there is no time left for a slot.
So the shares are equal if nothing was left over, and otherwise the last ones get less. -/
theorem shares_of_time_left (ha : Arises P o s)
    (hover : ∀ slot w, s.run.current = some slot → s.run.worker? slot.worker = some w →
      w.phase = .terminated ∨ w.phase = .suspended)
    (hgoes : s.run.incumbent.cancelled = false) (hq : s.run.queue = [])
    (hle : shortestSlot ≤ s.run.remaining now) (hlong : s.run.remaining now ≤ Duration.longest)
    {first : WorkerId} {rest : List WorkerId}
    (hline : s.run.suspended.filter s.run.isSuspended = first :: rest) {share : Duration}
    (hshare : share = halfToEven (s.run.remaining now) (rest.length + 1)) :
    (∃ w, s.run.worker? first = some w ∧ w.phase = .suspended ∧
      (s.run.advance now).worker? first = some w.resume) ∧
    (s.run.advance now).current
      = some ⟨first, min s.run.deadline (now + s.run.carry + share)⟩ ∧
    (s.run.advance now).suspended = rest ∧
    (s.run.advance now).queue = rest.map (fun id =>
      ⟨s.run.nameOf id, Timed.share (s.run.remaining now) (rest.length + 1)⟩) ∧
    ∀ i id, rest[i]? = some id → (Run.expire^[i + 1] (s.run.advance now)).current =
      if now + s.run.carry + (i + 1) * share + shortestSlot ≤ s.run.deadline then
        some ⟨id, min s.run.deadline (now + s.run.carry + (i + 2) * share)⟩
      else none := by
  have hamong : 0 < rest.length + 1 := Nat.succ_pos _
  have hp : Timed.isPositive (Timed.share (s.run.remaining now) (rest.length + 1) : Rat) :=
    Timed.sharesPositive_rat _ _ _ hle hamong (Nat.le_refl _)
  have hduration (name : String) :
      (⟨name, Timed.share (s.run.remaining now) (rest.length + 1)⟩ : Slot Rat).duration = share :=
    (Slot.duration_share hamong hle hlong name).trans hshare.symm
  have hnodup : (first :: rest).Nodup := hline ▸ ha.lined.nodup.filter s.run.isSuspended
  have hwaits : ∀ id ∈ first :: rest, s.run.isSuspended id := by
    intro id hid
    rw [← hline] at hid
    exact (List.mem_filter.mp hid).2
  have hnext := Run.nextSlot_of_refill (r := { s.run with current := none }) hq hle hline
  obtain ⟨w, hw, hphase, hresumed, hsuspended, hqueue, hturns⟩ := ha.turns_advance hgoes
    (Nat.sub_le_iff_le_add'.mp hlong) hp hle hwaits hnodup hnext
  rw [hduration] at hturns
  have ha' : Arises P o { s with run := s.run.advance now } :=
    ha.moves (Run.moves_advance ha.founded.numbered now hover)
  refine ⟨⟨w, hw, hphase, hresumed⟩, hturns.current, ?_, hqueue, fun i id hid => ?_⟩
  · have hothers : ∀ id ∈ rest, decide (id ≠ first) = true := fun id hid =>
      decide_eq_true (ne_of_mem_of_not_mem hid (List.nodup_cons.mp hnodup).1)
    rw [hsuspended, List.filter_cons_of_neg (by simp), List.filter_eq_self.mpr hothers]
  · have hlater (n : Nat) : now + s.run.carry + share + n * share
        = now + s.run.carry + (n + 1) * share := by
      rw [Nat.succ_mul, Nat.add_assoc, Nat.add_comm share]
    rw [ha'.current_expire hturns hp hduration hid, hlater, hlater]

end Situation

/-! ## Three solvers -/

/-- Three solvers that take turns on the shared core. -/
def Opening.trio : Opening Rat :=
  { Opening.duo with
    table := ⟨[.plain "a", .plain "b", .plain "c"]⟩
    schedule := ⟨[], [⟨"a", 1⟩, ⟨"b", 1⟩, ⟨"c", 3⟩]⟩ }

namespace Situation

/-- The first solver prints a solution. -/
def trioFirst : Situation Rat :=
  Opening.trio.situation.takes 0
    [.message (.launched 0 0 10 none), .message (.output 0 0 (.bound 9)),
      .message (.output 0 0 (.solution ⟨"x = 9;\n", some 9⟩))]

/-- It is suspended, and the second solver prints a solution. -/
def trioSecond : Situation Rat :=
  trioFirst.takes (Duration.ofWholeSeconds 1)
    [.slotExpired, .message (.launched 1 0 11 none), .message (.output 1 0 (.bound 8)),
      .message (.output 1 0 (.solution ⟨"x = 8;\n", some 8⟩))]

/-- It is suspended as well, and the process of the third solver is up. -/
def trioThird : Situation Rat :=
  trioSecond.takes (Duration.ofWholeSeconds 2) [.slotExpired, .message (.launched 2 0 12 none)]

/-- The process of the third solver ends. -/
def trioExit : RunEvent := .message (.exited 2 0 true none)

/-- The run of the three solvers comes to this point. -/
theorem reachable_trioThird : Reachable (Parsed "_objective") .trio trioThird := by
  have hfirst : Reachable (Parsed "_objective") .trio trioFirst := by
    refine steps_takes ⟨?_, ?_, ?_, trivial⟩
    · exact Sends.launched_of_any 0 0 10 none (.error "") rfl
    · exact Sends.output 0 0 ⟨["x = 9;".toList, "_objective = 9;".toList], rfl⟩
    · exact Sends.output 0 0
        ⟨["x = 9;".toList, "_objective = 9;".toList, "----------".toList], rfl⟩
  have hsecond : Steps (Parsed "_objective") trioFirst trioSecond := by
    refine steps_takes ⟨trivial, ?_, ?_, ?_, trivial⟩
    · exact Sends.launched_of_any 1 0 11 none (.error "") rfl
    · exact Sends.output 1 0 ⟨["x = 8;".toList, "_objective = 8;".toList], rfl⟩
    · exact Sends.output 1 0
        ⟨["x = 8;".toList, "_objective = 8;".toList, "----------".toList], rfl⟩
  have hthird : Steps (Parsed "_objective") trioSecond trioThird :=
    steps_takes ⟨trivial, Sends.launched_of_any 2 0 12 none (.error "") rfl, trivial⟩
  exact (hfirst.trans hsecond).trans hthird

/-- The process of the third solver may end. -/
theorem hears_trioExit : trioThird.Hears (Parsed "_objective") trioExit :=
  Sends.exited none [] 2 0 true none

/-- The third solver ends with its process. -/
def trioEnded : Situation Rat :=
  trioThird.after trioExit
    { trioThird.run with
      running := trioThird.run.runningWithout (2, 0)
      workers := trioThird.run.workers.modify 2 (·.terminate .finished)
      effects := .release 12 :: .notice (.info "solver 'c' finished") :: trioThird.run.effects }

/-- Its slot has left over three seconds. -/
def trioOver : Situation Rat :=
  { trioEnded with run := { trioEnded.run with queue := [], carry := Duration.ofWholeSeconds 3 } }

/-- The run comes to this point when the process of the third solver ends. -/
theorem arises_trioOver : Arises (Parsed "_objective") .trio trioOver := by
  have hr : Run.Response (Duration.ofWholeSeconds 2) trioThird.run trioExit trioEnded.run :=
    .exited (w := (Worker.new 2 "c" .queued false).startConverting.launched
      (Duration.ofWholeSeconds 2) 12 none) (.info "solver 'c' finished") rfl (Or.inl rfl)
  have hended : Arises (Parsed "_objective") .trio trioEnded :=
    (Reachable.arises reachable_trioThird).change (.respond _ hears_trioExit hr)
  exact hended.change (.move (Duration.ofWholeSeconds 2) (.plan [] (Duration.ofWholeSeconds 3)))

/-- The three seconds left over are a part of the eight seconds left. The first solver has them on
top of its share of four, and the second one has one second only. -/
theorem trio_shares_of_time_left :
    Arises (Parsed "_objective") .trio trioOver ∧
      trioOver.run.remaining (Duration.ofWholeSeconds 2) = Duration.ofWholeSeconds 8 ∧
      (trioOver.run.advance (Duration.ofWholeSeconds 2)).current
        = some ⟨0, Duration.ofWholeSeconds 9⟩ ∧
      (trioOver.run.advance (Duration.ofWholeSeconds 2)).expire.current
        = some ⟨1, Duration.ofWholeSeconds 10⟩ := by
  have hover : ∀ slot w, trioOver.run.current = some slot →
      trioOver.run.worker? slot.worker = some w → w.phase = .terminated ∨ w.phase = .suspended := by
    intro slot w hslot hw
    cases hslot
    cases hw
    exact Or.inl rfl
  have hle : shortestSlot ≤ trioOver.run.remaining (Duration.ofWholeSeconds 2) := by decide
  have hlong : trioOver.run.remaining (Duration.ofWholeSeconds 2) ≤ Duration.longest := by decide
  have hline : trioOver.run.suspended.filter trioOver.run.isSuspended = [0, 1] := rfl
  obtain ⟨-, hfirst, -, -, hothers⟩ :=
    shares_of_time_left arises_trioOver hover rfl rfl hle hlong hline rfl
  have hsecond := hothers 0 1 rfl
  rw [Nat.zero_add, Function.iterate_one] at hsecond
  rw [hfirst, hsecond]
  exact ⟨arises_trioOver, rfl, rfl, by decide⟩

/-- When the third solver ends at once, eight seconds are left for two suspended solvers. The first
one is served for seven of them, and the second one for one. -/
theorem exists_unequal_shares :
    ∃ s s' : Situation Rat, Reachable (Parsed "_objective") .trio s ∧
      s.Hears (Parsed "_objective") trioExit ∧
      s' = s.after trioExit (s.run.handle trioExit (Duration.ofWholeSeconds 2)) ∧
      s.run.queue = [] ∧ s.run.suspended.filter s.run.isSuspended = [0, 1] ∧
      s.run.remaining (Duration.ofWholeSeconds 2) = Duration.ofWholeSeconds 8 ∧
      s'.run.current = some ⟨0, Duration.ofWholeSeconds 9⟩ ∧
      s'.run.expire.current = some ⟨1, Duration.ofWholeSeconds 10⟩ ∧
      s'.run.deadline = Duration.ofWholeSeconds 10 :=
  ⟨trioThird, _, reachable_trioThird, hears_trioExit, rfl, rfl, rfl, rfl, by decide +kernel,
    by decide +kernel, by decide +kernel⟩

end Situation

end SolverPortfolio
