import SolverPortfolio.Proofs.RoundedOperations
import SolverPortfolio.Proofs.Suspension
import Mathlib.Algebra.Order.Field.Rat

/-
# Looking for a slot

A run takes slots until one is settled. An empty queue is refilled with a slot for each suspended
worker, but that takes nobody from the list of them: if all these slots were passed over, the queue
would be refilled again, and so on for ever. The first of them is settled, though. Its name leads
back to the suspended worker, because only the worker added last for a solver may be live on the
shared core, and its share of the time left is positive, however it is rounded.

Main definitions: `Timed.SharesPositive`, `Run.Traceable`, `Run.Passes`, `Run.Progress`,
`Run.SearchEnds`.
Main statements: `Timed.sharesPositive_float`, `Run.Traceable.searchEnds`,
`Situation.Reachable.searchEnds_advance`.
-/

namespace SolverPortfolio

/-! ## Positive shares -/

/-- A share of a time worth starting a solver for is a time to run for, among up to `n` solvers. -/
def Timed.SharesPositive (α : Type) [Timed α] (n : Nat) : Prop :=
  ∀ (d : Duration) (among : Nat), shortestSlot ≤ d → 0 < among → among ≤ n →
    Timed.isPositive (Timed.share d among : α)

/-- Exact shares are positive. -/
theorem Timed.sharesPositive_rat (n : Nat) : Timed.SharesPositive Rat n := by
  intro d among hd hpositive _
  have hd' : 0 < d := Nat.lt_of_lt_of_le (by decide) hd
  have hseconds : 0 < mkRat d Duration.perSecond :=
    Rat.mkRat_pos (Int.natCast_pos.mpr hd') (by decide)
  have hamong : 0 < mkRat among 1 := Rat.mkRat_pos (Int.natCast_pos.mpr hpositive) (by decide)
  exact decide_eq_true (div_pos hseconds hamong)

section

open Number

/-- The nanoseconds of a part of a second, as seconds: a time worth starting a solver for is at
least `2 ^ (-7)` of them. -/
theorem Duration.exists_denotes_part {rest : ℕ} (hrest : rest < perSecond) :
    ∃ part, Denotes false part (parts (Number.ofRatio rest 1 / Number.ofRatio perSecond 1)) ∧
      part < 2 ^ 1024 ∧ (shortestSlot ≤ rest → 2 ^ (-7 : ℤ) ≤ part) := by
  obtain ⟨second, hsecond, hsecondge, hsecondle⟩ :=
    exists_denotes_between (n := perSecond) (i := 29) (j := 30) (by decide) (by decide)
  have hpos : 0 < second := lt_of_lt_of_le (by norm_num) hsecondge
  have hsecondlt := lt_two_pow_1024 hsecondle (by norm_num)
  obtain ⟨r, hr, hr'⟩ := exists_denotes_ofNat rest
  have hrle : r ≤ 2 ^ 30 := by
    refine hr.le_of_le (isDouble_two_pow 30) ?_
    have hle : rest ≤ 2 ^ 30 := hrest.le.trans (by decide)
    exact_mod_cast hle
  obtain ⟨part, hpart, hpart'⟩ :=
    exists_isNearest_div hr' hsecond (lt_two_pow_1024 hrle (by norm_num)) hsecondlt hpos
  refine ⟨part, hpart', ?_, fun hlong => ?_⟩
  · refine lt_two_pow_1024 (n := 1) (hpart.le_of_le (isDouble_two_pow 1) ?_) (by norm_num)
    rw [div_le_iff₀ hpos]
    linarith
  · have hrge : 2 ^ 23 ≤ r := by
      refine hr.ge_of_ge (isDouble_two_pow 23) ?_
      have hle : 2 ^ 23 ≤ rest := le_trans (by decide) hlong
      exact_mod_cast hle
    refine hpart.ge_of_ge (isDouble_two_zpow (by norm_num)) ?_
    rw [le_div_iff₀ hpos]
    calc (2 : ℚ) ^ (-7 : ℤ) * second ≤ 2 ^ (-7 : ℤ) * 2 ^ 30 :=
          mul_le_mul_of_nonneg_left hsecondle (by positivity)
      _ = 2 ^ 23 := by norm_num
      _ ≤ r := hrge

/-- A time worth starting a solver for is at least `2 ^ (-7)` seconds as a double, too, if it is
not too long for one. -/
theorem Duration.toSeconds_cases {d : Duration} (hd : shortestSlot ≤ d) :
    toSeconds d = 1 / 0 ∨
      ∃ a, Denotes false a (parts (toSeconds d)) ∧ 2 ^ (-7 : ℤ) ≤ a ∧ a < 2 ^ 1024 := by
  obtain ⟨whole, hwhole, hwhole'⟩ := exists_denotes_ofNat (d / perSecond)
  obtain ⟨part, hpart, hpartlt, hpartge⟩ :=
    exists_denotes_part (Nat.mod_lt d (by decide : 0 < perSecond))
  rcases lt_or_ge whole (2 ^ 1024) with hlt | hge
  · obtain ⟨a, ha, ha'⟩ := exists_isNearest_add hwhole' hpart hlt hpartlt
    rcases lt_or_ge a (2 ^ 1024) with halt | hage
    · refine Or.inr ⟨a, ha', ha.ge_of_ge (isDouble_two_zpow (by norm_num)) ?_, halt⟩
      -- A time shorter than a second is nothing but a part of one.
      rcases Nat.lt_or_ge d perSecond with hshort | hlong
      · have hmod : d % perSecond = d := Nat.mod_eq_of_lt hshort
        rw [hmod] at hpartge
        exact (hpartge hd).trans (le_add_of_nonneg_left hwhole'.nonneg)
      · have hpos : 1 ≤ d / perSecond := Nat.div_pos hlong (by decide)
        have hwholege : 1 ≤ whole :=
          hwhole.ge_of_ge (isDouble_two_pow 0) (by exact_mod_cast hpos)
        calc (2 : ℚ) ^ (-7 : ℤ) ≤ 1 := by norm_num
          _ ≤ whole := hwholege
          _ ≤ whole + part := le_add_of_nonneg_right hpart.nonneg
    · exact Or.inl (eq_infinity_of_denotes ha' hage)
  · left
    rw [toSeconds, eq_infinity_of_denotes hwhole' hge]
    exact infinity_add hpart hpartlt

/-- Rounded shares are positive, too. -/
theorem Timed.sharesPositive_float {n : ℕ} (hn : n ≤ 2 ^ 64) : Timed.SharesPositive Float n := by
  intro d among hd hpositive hamong
  obtain ⟨k, hk, hkge, hkle⟩ := exists_denotes_between (i := 0) hpositive (hamong.trans hn)
  have hklt := lt_two_pow_1024 hkle (by norm_num)
  have hkpos : 0 < k := lt_of_lt_of_le (by norm_num) hkge
  have hshare : 0 < Duration.toSeconds d / Number.ofRatio among 1 := by
    rcases Duration.toSeconds_cases hd with htop | ⟨a, ha, hle, hlt⟩
    · rw [htop, infinity_div hk hklt hkpos]
      exact infinity_pos
    · obtain ⟨q, hq, hq'⟩ := exists_isNearest_div ha hk hlt hklt hkpos
      refine pos_of_denotes hq' (lt_of_lt_of_le (b := 2 ^ (-71 : ℤ)) (by norm_num) ?_)
      refine hq.ge_of_ge (isDouble_two_zpow (by norm_num)) ?_
      rw [le_div_iff₀ hkpos]
      calc (2 : ℚ) ^ (-71 : ℤ) * k ≤ 2 ^ (-71 : ℤ) * 2 ^ 64 :=
            mul_le_mul_of_nonneg_left hkle (by positivity)
        _ = 2 ^ (-7 : ℤ) := by norm_num
        _ ≤ a := hle
  exact decide_eq_true hshare

end

namespace Run

variable {α : Type} [Timed α] {now : Instant} {r r' r₁ : Run α} {slot : Slot α} {n : Nat}

/-! ## Taking a slot -/

/-- A refilled queue has equal slots for the suspended workers, in the order of the line. -/
theorem nextSlot_of_refill {first : WorkerId} {rest : List WorkerId} (hq : r.queue = [])
    (hle : shortestSlot ≤ r.remaining now)
    (hline : r.suspended.filter r.isSuspended = first :: rest) :
    r.nextSlot now
      = (some ⟨r.nameOf first, Timed.share (r.remaining now) (rest.length + 1)⟩, { r with
          suspended := first :: rest
          queue := rest.map fun id =>
            ⟨r.nameOf id, Timed.share (r.remaining now) (rest.length + 1)⟩ }) := by
  have hlong : ¬ r.deadline - now < shortestSlot := Nat.not_lt.mpr hle
  unfold nextSlot
  simp only [hq, hline, remaining, if_neg hlong]
  rfl

/-- A slot is found in the queue, or the queue is refilled. -/
theorem nextSlot_cases (h : r.nextSlot now = (some slot, r')) :
    (r.queue = slot :: r'.queue ∧ r' = { r with queue := r'.queue }) ∨
      r.queue = [] ∧ shortestSlot ≤ r.remaining now ∧
        ∃ first rest, r.suspended.filter r.isSuspended = first :: rest := by
  unfold nextSlot at h
  split at h
  · next slot' rest hq =>
    cases h
    exact Or.inl ⟨hq, rfl⟩
  · next hq =>
    refine Or.inr ⟨hq, ?_⟩
    dsimp only at h
    split at h
    · cases h
    · next hlong =>
      refine ⟨Nat.not_lt.mp hlong, ?_⟩
      cases hline : r.suspended.filter r.isSuspended with
      | nil =>
        simp only [hline] at h
        cases h
      | cons first rest => exact ⟨first, rest, rfl⟩

omit [Timed α] in
/-- A slot that is passed over though a worker was added for it has added one that has ended. -/
theorem workers_of_serveNewWorker {allotted : Duration} {deadline : Instant}
    (h : r.serveNewWorker slot allotted deadline now = .passed r') :
    ∃ w, r'.workers = r.workers ++ [w] ∧ w.isLive = false ∧ w.name = slot.solver := by
  obtain ⟨w, effects, hn, heq⟩ := r.exists_newcomer slot.solver .queued now
  have hlive : (r.addAndLaunch slot.solver .queued now).isLive r.workers.length = w.isLive := by
    simp only [isLive, worker?, heq, List.getElem?_concat_length]
  simp only [serveNewWorker, hlive] at h
  cases hw : w.isLive with
  | true =>
    rw [hw] at h
    cases h
  | false =>
    simp only [hw, Bool.false_eq_true, if_false, heq, Served.passed.injEq] at h
    subst h
    exact ⟨w, rfl, hw, hn.name_eq.1⟩

/-- A slot that is passed over adds no worker, or one that ends at once, for a solver that had no
live one on the shared core. -/
theorem workers_of_passed (h : r.serveSlot slot now = .passed r') :
    r'.workers = r.workers ∨ ∃ w, r'.workers = r.workers ++ [w] ∧ w.isLive = false ∧
      w.name = slot.solver ∧ ∀ v, r.lastQueued? slot.solver = some v → v.isLive = false := by
  unfold serveSlot at h
  split at h
  · dsimp only at h
    split at h
    · cases h
    · split at h
      · next hlast =>
        obtain ⟨w, hw, hdead, hname⟩ := workers_of_serveNewWorker h
        exact Or.inr ⟨w, hw, hdead, hname, fun v hv => nomatch hlast.symm.trans hv⟩
      · next u hlast =>
        split at h
        · cases h
        · next hended =>
          split at h
          · obtain ⟨w, hw, hdead, hname⟩ := workers_of_serveNewWorker h
            refine Or.inr ⟨w, hw, hdead, hname, fun v hv => ?_⟩
            cases hlast.symm.trans hv
            exact Bool.eq_false_iff.mpr hended
          · cases h
            exact Or.inl rfl
  · cases h
    exact Or.inl rfl

/-! ## Suspended workers are found -/

omit [Timed α] in
/-- The names of the suspended workers lead back to them. -/
def Traceable (r : Run α) : Prop :=
  ∀ id, r.isSuspended id →
    ∃ w, r.worker? id = some w ∧ w.id = id ∧ w.phase = .suspended ∧ r.lastQueued? w.name = some w

omit [Timed α] in
/-- Suspended workers are found by their names as long as the workers stay as they are. -/
theorem Traceable.of_workers_eq (h : r.Traceable) (heq : r'.workers = r.workers) :
    r'.Traceable := by
  simpa only [Traceable, isSuspended, worker?, lastQueued?, heq] using h

/-- Suspended workers are found by their names after a slot is passed over. -/
theorem Traceable.passed (h : r.Traceable) (hs : r.serveSlot slot now = .passed r') :
    r'.Traceable := by
  rcases workers_of_passed hs with heq | ⟨w, heq, hdead, hname, hnone⟩
  · exact h.of_workers_eq heq
  · intro id hid
    obtain ⟨v, hv, hphase⟩ := (r'.isSuspended_iff id).mp hid
    have hv' := hv
    rw [worker?, heq] at hv'
    rcases getElem?_concat_cases hv' with hold | ⟨-, rfl⟩
    · obtain ⟨u, hu, hu', -, hlast⟩ := h id ((r.isSuspended_iff id).mpr ⟨v, hold, hphase⟩)
      cases Option.some.inj (hu.symm.trans hold)
      refine ⟨v, hv, hu', hphase, ?_⟩
      -- The worker that was added has another name, because the suspended worker is live.
      have hother : w.name ≠ v.name := by
        intro hsame
        have hlive : v.isLive := Worker.isLive_iff.mpr (by rw [hphase]; decide)
        have hended := hnone v (by rwa [← hname, hsame])
        rw [hlive] at hended
        cases hended
      have hnew : [w].filter (fun u => u.placement = .queued ∧ u.name = v.name) = [] := by
        simp [hother]
      rw [lastQueued?, heq, List.filter_append, hnew, List.append_nil]
      exact hlast
    · rw [Worker.isLive_iff.mpr (by rw [hphase]; decide)] at hdead
      cases hdead

/-! ## Turns -/

/-- What a turn that takes a slot does about the search for one that is settled. -/
inductive Progress (r : Run α) (now : Instant) (slot : Slot α) (r₁ : Run α) : Prop where
  /-- The slot is the first one of the queue, which gets shorter. -/
  | shorter (hq : r.queue = slot :: r₁.queue) (hr : r₁ = { r with queue := r₁.queue })
      (hserved : (r₁.serveSlot slot now).run.queue = r₁.queue)
  /-- The queue was empty. It is refilled, and the slot is settled with the first suspended worker,
  which is live, is the one that the name of the slot leads to, and has a positive share. -/
  | refilled {w : Worker} {rest : List WorkerId} {r₂ : Run α} {deadline : Instant}
      (hq : r.queue = []) (hline : r.suspended.filter r.isSuspended = w.id :: rest)
      (hrest : r₁.queue.map (·.solver) = rest.map r.nameOf) (hw : r₁.worker? w.id = some w)
      (hlive : w.isLive) (hname : slot.solver = w.name)
      (hlast : r₁.lastQueued? slot.solver = some w) (hp : Timed.isPositive slot.seconds)
      (hsettled : r₁.serveSlot slot now = .settled r₂)
      (hcur : r₂.current = some ⟨w.id, deadline⟩)

/-- A slot that is served or passed over leaves the queue as it is. -/
theorem queue_serveSlot (r : Run α) (slot : Slot α) (now : Instant) :
    (r.serveSlot slot now).run.queue = r.queue := by
  have hserving := serving_serveSlot r slot now
  generalize r.serveSlot slot now = served at hserving
  cases hserving <;> rfl

/-- Each turn makes progress if the suspended workers are found. -/
theorem Traceable.progress (h : r.Traceable) (hshares : Timed.SharesPositive α n)
    (hn : r.suspended.length ≤ n) (hnext : r.nextSlot now = (some slot, r₁)) :
    r.Progress now slot r₁ := by
  rcases nextSlot_cases hnext with ⟨hq, hr⟩ | ⟨hq, hle, first, rest, hline⟩
  · exact .shorter hq hr (queue_serveSlot r₁ slot now)
  · have hmem : first ∈ r.suspended.filter r.isSuspended := hline ▸ List.mem_cons_self
    obtain ⟨w, hw, rfl, hphase, hlast⟩ := h first (List.mem_filter.mp hmem).2
    have hamong : rest.length + 1 ≤ n := by
      have hlength := List.length_filter_le r.isSuspended r.suspended
      rw [hline] at hlength
      exact hlength.trans hn
    have hp : Timed.isPositive (Timed.share (r.remaining now) (rest.length + 1) : α) :=
      hshares _ _ hle (Nat.succ_pos _) hamong
    have hname : r.nameOf w.id = w.name := by
      rw [nameOf, hw]
      rfl
    rw [nextSlot_of_refill hq hle hline, hname, Prod.mk.injEq, Option.some.injEq] at hnext
    obtain ⟨rfl, hr⟩ := hnext
    -- What is read of the workers and of the time is the same before and after the refill.
    have hw' : r₁.worker? w.id = some w := hr ▸ hw
    have hlast' : r₁.lastQueued? w.name = some w := hr ▸ hlast
    have hle' : shortestSlot ≤ r₁.remaining now := hr ▸ hle
    have hrest : r₁.queue.map (·.solver) = rest.map r.nameOf := by
      rw [← hr]
      exact List.map_map
    exact .refilled hq hline hrest hw' (Worker.isLive_iff.mpr (by rw [hphase]; decide)) rfl
      hlast' hp (serveSlot_of_suspended hp hle' hlast' hphase) rfl

/-- A run goes through turns whose slots are passed over. -/
inductive Passes (now : Instant) (r : Run α) : List (Slot α) → Run α → Prop where
  | refl : Passes now r [] r
  | tail {passed : List (Slot α)} {r₁ r₂ r₃ : Run α} {slot : Slot α} (h : Passes now r passed r₁)
      (hn : r₁.nextSlot now = (some slot, r₂)) (hs : r₂.serveSlot slot now = .passed r₃) :
      Passes now r (passed ++ [slot]) r₃

/-- A slot that is passed over makes the queue shorter. -/
theorem Progress.of_passed {r₂ : Run α} (h : r.Progress now slot r₁)
    (hs : r₁.serveSlot slot now = .passed r₂) :
    r.queue = slot :: r₂.queue ∧ r₂.suspended = r.suspended ∧ (r.Traceable → r₂.Traceable) := by
  cases h with
  | shorter hq hr hserved =>
    have hserving := serving_serveSlot r₁ slot now
    rw [hs] at hserving
    obtain ⟨hqueue, hsuspended, -, -⟩ := hserving.kept_of_passed
    have hworkers : r₁.workers = r.workers := by rw [hr]
    have hline : r₁.suspended = r.suspended := by rw [hr]
    exact ⟨hqueue ▸ hq, hsuspended.trans hline, fun h => (h.of_workers_eq hworkers).passed hs⟩
  | refilled _ _ _ _ _ _ _ _ hsettled => cases hsettled.symm.trans hs

/-- All the slots that are passed over have been in the queue, and suspended workers are still
found by their names. -/
theorem Traceable.passes (h : r.Traceable) (hshares : Timed.SharesPositive α n)
    (hn : r.suspended.length ≤ n) {passed : List (Slot α)} (hpasses : Passes now r passed r') :
    r.queue = passed ++ r'.queue ∧ r'.suspended = r.suspended ∧ r'.Traceable := by
  induction hpasses with
  | refl => exact ⟨rfl, rfl, h⟩
  | tail _ hnext hs ih =>
    obtain ⟨hqueue, hsuspended, htraceable⟩ := ih
    obtain ⟨hshorter, hkept, hstill⟩ :=
      (htraceable.progress hshares (hsuspended ▸ hn) hnext).of_passed hs
    refine ⟨?_, hkept.trans hsuspended, hstill htraceable⟩
    rw [hqueue, hshorter, List.append_assoc, List.singleton_append]

/-- The search for a slot ends, and refills the queue once at most. -/
structure SearchEnds (r : Run α) (now : Instant) : Prop where
  /-- Another turn than the slots of the queue is all that is needed. -/
  ends : ∃ r', ∀ fuel, r.queue.length < fuel → serve? fuel r now = some r'
  /-- As long as slots are passed over, they are those of the queue, and each turn makes
  progress. -/
  progress : ∀ passed r₁, Passes now r passed r₁ → r.queue = passed ++ r₁.queue ∧
    ∀ slot r₂, r₁.nextSlot now = (some slot, r₂) → r₁.Progress now slot r₂
  /-- The slots that are taken are slots of the queue, or all of them and one of a refill. -/
  once : ∀ taken r', Takes now r taken r' → taken.map (·.slot) <+: r.queue ∨
    ∃ share, taken.map (·.slot) = r.queue ++ [share]

/-- The search comes to an end after one turn more than there are slots in the queue. -/
theorem Traceable.exists_serve? (h : r.Traceable) (hshares : Timed.SharesPositive α n)
    (hn : r.suspended.length ≤ n) :
    ∃ r', ∀ fuel, r.queue.length < fuel → serve? fuel r now = some r' := by
  -- The induction is on the queue: a turn shortens it, or is the last one.
  generalize hqueue : r.queue = queue
  induction queue generalizing r with
  | nil =>
    obtain ⟨r', hserve⟩ : ∃ r', ∀ fuel, serve? (fuel + 1) r now = some r' := by
      rcases hnext : r.nextSlot now with ⟨_ | slot, r₁⟩
      · exact ⟨r₁, fun fuel => by rw [serve?, hnext]⟩
      · cases h.progress hshares hn hnext with
        | shorter hq => cases hqueue.symm.trans hq
        | @refilled _ _ r₂ _ _ _ _ _ _ _ _ _ hsettled _ =>
          exact ⟨r₂, fun fuel => by simp only [serve?, hnext, hsettled]⟩
    exact ⟨r', fun fuel hfuel => Nat.succ_pred_eq_of_pos hfuel ▸ hserve (fuel - 1)⟩
  | cons slot rest ih =>
    obtain ⟨r', hserve⟩ :
        ∃ r', ∀ fuel, rest.length < fuel → serve? (fuel + 1) r now = some r' := by
      have hnext : r.nextSlot now = (some slot, { r with queue := rest }) := by
        simp only [nextSlot, hqueue]
      cases hs : { r with queue := rest }.serveSlot slot now with
      | settled r₂ => exact ⟨r₂, fun fuel _ => by simp only [serve?, hnext, hs]⟩
      | passed r₂ =>
        obtain ⟨hshorter, hkept, hstill⟩ := (h.progress hshares hn hnext).of_passed hs
        have hrest : r₂.queue = rest := (List.cons.inj (hqueue.symm.trans hshorter)).2.symm
        obtain ⟨r', hserve⟩ := ih (hstill h) (hkept ▸ hn) hrest
        exact ⟨r', fun fuel hfuel => by simpa only [serve?, hnext, hs] using hserve fuel hfuel⟩
    refine ⟨r', fun fuel hfuel => ?_⟩
    obtain ⟨fuel, rfl⟩ := Nat.exists_eq_succ_of_ne_zero (Nat.ne_zero_of_lt hfuel)
    exact hserve fuel (Nat.lt_of_succ_lt_succ hfuel)

/-- The slots that are taken are slots of the queue, or all of them and one of a refill. -/
theorem Traceable.takes (h : r.Traceable) (hshares : Timed.SharesPositive α n)
    (hn : r.suspended.length ≤ n) {taken : List (Appointment α)} (htakes : Takes now r taken r') :
    taken.map (·.slot) <+: r.queue ∨ ∃ share, taken.map (·.slot) = r.queue ++ [share] := by
  induction htakes with
  | nothing _ => exact Or.inl (List.nil_prefix)
  | @settled r r₁ r₂ slot hnext hs =>
    cases h.progress hshares hn hnext with
    | shorter hq =>
      rw [hq]
      exact Or.inl ⟨r₁.queue, rfl⟩
    | refilled hq =>
      rw [hq]
      exact Or.inr ⟨slot, rfl⟩
  | @passed r r₁ r₂ r₃ slot taken hnext hs _ ih =>
    obtain ⟨hq, hkept, hstill⟩ := (h.progress hshares hn hnext).of_passed hs
    rw [hq]
    rcases ih (hstill h) (hkept ▸ hn) with hprefix | ⟨share, hshare⟩
    · exact Or.inl (List.cons_prefix_cons.mpr ⟨rfl, hprefix⟩)
    · exact Or.inr ⟨share, congrArg (slot :: ·) hshare⟩

/-- The search for a slot ends if the suspended workers are found by their names. -/
theorem Traceable.searchEnds (h : r.Traceable) (hshares : Timed.SharesPositive α n)
    (hn : r.suspended.length ≤ n) (now : Instant) : r.SearchEnds now where
  ends := h.exists_serve? hshares hn
  progress passed r₁ hpasses := by
    obtain ⟨hqueue, hsuspended, htraceable⟩ := h.passes hshares hn hpasses
    exact ⟨hqueue, fun slot r₂ => htraceable.progress hshares (hsuspended ▸ hn)⟩
  once _ _ := h.takes hshares hn

end Run

namespace Situation

/-- Suspended workers are found by their names in all that arises. -/
theorem Arises.traceable {α : Type} {P : Discipline} {o : Opening α} {s : Situation α}
    (h : Arises P o s) : s.run.Traceable := by
  intro id hid
  obtain ⟨w, hw, hwid, hphase, hlast⟩ := h.exists_suspended hid
  rw [Run.nameOf, hw] at hlast
  exact ⟨w, hw, hwid, hphase, hlast⟩

variable {P : Discipline} {o : Opening Float} {s : Situation Float}

/-- At any time in a run, and whatever the queue and the list of suspended workers are, the run
finds the next slot in a bounded number of turns: each of them shortens the queue, until the queue
is refilled once and the first suspended worker goes on. The list is no longer than 64 bits can
count, so that no share is rounded to zero. -/
theorem Reachable.searchEnds_advance (h : Reachable P o s) (queue : Schedule Float)
    {suspended : List WorkerId} (hn : suspended.length < 2 ^ 64) (now : Instant) :
    { s.run with queue, suspended, current := none }.SearchEnds now ∧
      (s.run.incumbent.cancelled = false →
        Run.serve? (queue.length + 1) { s.run with queue, suspended, current := none } now
          = some ({ s.run with queue, suspended }.advance now)) := by
  have htraceable : { s.run with queue, suspended, current := none }.Traceable :=
    h.arises.traceable.of_workers_eq rfl
  have hends := htraceable.searchEnds (Timed.sharesPositive_float hn.le) (Nat.le_refl _) now
  refine ⟨hends, fun hgoes => ?_⟩
  obtain ⟨r', hserve⟩ := hends.ends
  have hadvance : { s.run with queue, suspended }.advance now = r' := by
    have hfuel : queue.length < queue.length + suspended.length + 2 := by omega
    simp only [Run.advance, hgoes, Bool.false_eq_true, if_false]
    rw [hserve _ hfuel]
    rfl
  rw [hadvance]
  exact hserve _ (Nat.lt_succ_self _)

end Situation

/-- Two solvers take turns on the shared core. -/
def Opening.relay : Opening Float :=
  { Opening.duo with schedule := ⟨[], [⟨"a", 1⟩, ⟨"b", 5⟩]⟩ }

namespace Situation

/-- The first solver prints a solution, and is suspended when its slot runs out. -/
def relayed : Situation Float :=
  (Opening.relay.situation.takes 0 [.message (.launched 0 0 10 none),
    .message (.output 0 0 (.solution ⟨"x = 9;\n", some 9⟩))]).takes
      (Duration.ofWholeSeconds 1) [.slotExpired]

/-- If the slot of the second solver were over by then, the first one would go on. -/
theorem relayed_searchEnds :
    Reachable (fun _ _ => True) .relay relayed ∧ relayed.run.suspended.length < 2 ^ 64 ∧
      ∃ deadline, (Run.advance { relayed.run with queue := ([] : Schedule Float) }
        (Duration.ofWholeSeconds 1)).current = some ⟨0, deadline⟩ := by
  have hreachable : Reachable (fun _ _ => True) .relay relayed := by
    have hfirst : Reachable (fun _ _ => True) .relay (Opening.relay.situation.takes 0
        [.message (.launched 0 0 10 none),
          .message (.output 0 0 (.solution ⟨"x = 9;\n", some 9⟩))]) := by
      refine steps_takes ⟨?_, ?_, trivial⟩
      · exact Sends.launched_of_any 0 0 10 none (.error "") rfl
      · exact Sends.output 0 0 trivial
    exact hfirst.trans (steps_takes ⟨trivial, trivial⟩)
  have hlength : relayed.run.suspended.length < 2 ^ 64 := by decide +kernel
  obtain ⟨hends, hadvance⟩ :=
    Reachable.searchEnds_advance hreachable [] hlength (Duration.ofWholeSeconds 1)
  have hlong : shortestSlot ≤ relayed.run.remaining (Duration.ofWholeSeconds 1) := by
    decide +kernel
  have hline : relayed.run.suspended.filter relayed.run.isSuspended = [0] := by decide +kernel
  have hnext := Run.nextSlot_of_refill
    (r := { relayed.run with queue := ([] : Schedule Float), current := none }) rfl hlong hline
  refine ⟨hreachable, hlength, ?_⟩
  cases (hends.progress [] _ .refl).2 _ _ hnext with
  | shorter hq => cases hq
  | @refilled w rest r₂ deadline _ hline' _ _ _ _ _ _ hsettled hcur =>
    have hserve : Run.serve? 1 { relayed.run with queue := ([] : Schedule Float), current := none }
        (Duration.ofWholeSeconds 1) = some r₂ := by
      simp only [Run.serve?, hnext, hsettled]
    have hgoes : relayed.run.incumbent.cancelled = false := by decide +kernel
    obtain rfl : _ = r₂ := Option.some.inj ((hadvance hgoes).symm.trans hserve)
    have hfirst : 0 = w.id := (List.cons.inj (hline.symm.trans hline')).1
    exact ⟨deadline, hfirst ▸ hcur⟩

end Situation

end SolverPortfolio
