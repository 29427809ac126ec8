import SolverPortfolio.Proofs.DoubleSums
import SolverPortfolio.Proofs.Merging
import SolverPortfolio.Proofs.Staffing

/-
# Accepted schedules

A static schedule is compared with the timeout twice: when it is read, slot by slot, and when a
schedule is predicted, after neighbouring slots of one solver have been joined. Joining adds the
seconds in another order, and doubles added in another order may round to a larger total. So a
schedule can be accepted and then be found too long. It cannot if only its first slots are joined,
since these are added first in any case, or if all seconds are multiples of one power of two with
few enough digits, since then nothing is rounded.

Main definitions: `Schedule.JoinsAtStart`, `Schedule.IsMeasured`.
Main statements: `Schedule.JoinsAtStart.totalSeconds_coalesce`,
`Schedule.IsMeasured.totalSeconds_coalesce`, `Predictor.accepted_again`.
-/

namespace SolverPortfolio

open SolverPortfolio.Number

namespace Schedule

/-! ## Totals from the left -/

/-- Some seconds and those of the slots that follow, added from left to right. -/
def runningTotal (seconds : Float) (s : Schedule Float) : Float :=
  s.foldl (fun total slot => total + slot.seconds) seconds

@[simp] theorem runningTotal_nil (seconds : Float) : runningTotal seconds [] = seconds := rfl

@[simp] theorem runningTotal_cons (seconds : Float) (slot : Slot Float) (s : Schedule Float) :
    runningTotal seconds (slot :: s) = runningTotal (seconds + slot.seconds) s := rfl

/-- A schedule is added to the seconds of its first slot. -/
theorem totalSeconds_cons (slot : Slot Float) (s : Schedule Float) :
    totalSeconds (slot :: s) = runningTotal slot.seconds s := by
  calc totalSeconds (slot :: s) = (s.map (·.seconds)).foldl (· + ·) (-0.0 + slot.seconds) := rfl
    _ = runningTotal slot.seconds s := by rw [negZero_add, List.foldl_map, runningTotal]

/-! ## Slots joined at the start -/

/-- Only slots at the start have the solver of the slot before. -/
def JoinsAtStart (s : Schedule Float) : Prop :=
  ∃ first rest, s = first ++ rest ∧ (∃ solver, ∀ slot ∈ first, slot.solver = solver) ∧
    rest.IsChain fun a b => a.solver ≠ b.solver

/-- Slots of one solver are joined to one slot, before what follows them. -/
theorem coalesceFrom_append_of_same {x : String} {first : Schedule Float}
    (hfirst : ∀ slot ∈ first, slot.solver = x) (p : Float) (rest : Schedule Float) :
    coalesceFrom ⟨x, p⟩ (first ++ rest) = coalesceFrom ⟨x, runningTotal p first⟩ rest := by
  induction first generalizing p with
  | nil => rfl
  | cons slot first ih =>
    obtain ⟨rfl, hrest⟩ := List.forall_mem_cons.mp hfirst
    rw [List.cons_append, coalesceFrom_same, ih hrest, runningTotal_cons]

/-- A schedule without neighbours of one solver stays as it is. -/
theorem coalesceFrom_of_isChain {slot : Slot Float} {s : Schedule Float}
    (h : (slot :: s).IsChain fun a b => a.solver ≠ b.solver) :
    coalesceFrom slot s = slot :: s := by
  induction s generalizing slot with
  | nil => rfl
  | cons next rest ih =>
    rw [List.isChain_cons_cons] at h
    rw [coalesceFrom, if_neg h.1, ih h.2]

/-- A pending slot is joined to at most the first one of a schedule without neighbours of one
solver, which is added to it in any case. -/
theorem totalSeconds_coalesceFrom_of_isChain (x : String) (p : Float) {s : Schedule Float}
    (h : s.IsChain fun a b => a.solver ≠ b.solver) :
    totalSeconds (coalesceFrom ⟨x, p⟩ s) = runningTotal p s := by
  cases s with
  | nil => exact totalSeconds_cons _ _
  | cons slot rest =>
    rw [coalesceFrom]
    split
    · next heq =>
      have hchain : ((⟨x, p + slot.seconds⟩ : Slot Float) :: rest).IsChain
          fun a b => a.solver ≠ b.solver := by
        rw [List.isChain_cons] at h ⊢
        exact ⟨fun next hnext => heq ▸ h.1 next hnext, h.2⟩
      rw [coalesceFrom_of_isChain hchain, totalSeconds_cons, runningTotal_cons]
    · rw [coalesceFrom_of_isChain h, totalSeconds_cons]

/-- Joining the first slots leaves the total as it is. -/
theorem JoinsAtStart.totalSeconds_coalesce {s : Schedule Float} (h : JoinsAtStart s) :
    totalSeconds (coalesce s) = totalSeconds s := by
  obtain ⟨first, rest, rfl, ⟨x, hfirst⟩, hrest⟩ := h
  cases first with
  | nil =>
    cases rest with
    | nil => rfl
    | cons slot rest => rw [List.nil_append, coalesce, coalesceFrom_of_isChain hrest]
  | cons slot first =>
    obtain ⟨rfl, hfirst⟩ := List.forall_mem_cons.mp hfirst
    rw [List.cons_append, coalesce, coalesceFrom_append_of_same hfirst,
      totalSeconds_coalesceFrom_of_isChain _ _ hrest, totalSeconds_cons, runningTotal,
      runningTotal, runningTotal, List.foldl_append]

/-! ## Measured schedules -/

/-- A slot lasts `n` times `2 ^ e` seconds. -/
def Lasts (e : ℤ) (slot : Slot Float) (n : ℕ) : Prop :=
  Denotes false (n * 2 ^ e) (parts slot.seconds)

/-- All slots are multiples of one power of two, and so few in all that no sum of them has more
than 53 digits. -/
def IsMeasured (s : Schedule Float) : Prop :=
  ∃ (e : ℤ) (counts : List ℕ), -1074 ≤ e ∧ e ≤ 970 ∧ List.Forall₂ (Lasts e) s counts ∧
    counts.sum ≤ 2 ^ 53

/-- So few multiples are a double. -/
theorem isDouble_of_le {n : ℕ} {e : ℤ} (hn : n ≤ 2 ^ 53) (he : -1074 ≤ e) :
    IsDouble (n * 2 ^ e) := by
  rcases hn.lt_or_eq with hlt | rfl
  · exact ⟨n, e, by rw [Nat.abs_cast]; exact_mod_cast hlt, he, by rw [Int.cast_natCast]⟩
  · refine ⟨1, e + 53, by decide, by omega, ?_⟩
    rw [zpow_add₀ two_ne_zero]
    push_cast
    ring

/-- So few multiples are far below the largest double. -/
theorem multiple_lt {n : ℕ} {e : ℤ} (hn : n ≤ 2 ^ 53) (he : e ≤ 970) :
    (n : ℚ) * 2 ^ e < 2 ^ 1024 := by
  calc (n : ℚ) * 2 ^ e ≤ 2 ^ 53 * 2 ^ (970 : ℤ) :=
        mul_le_mul (by exact_mod_cast hn) (zpow_le_zpow_right₀ one_le_two he) (by positivity)
          (by positivity)
    _ = 2 ^ (1023 : ℤ) := by rw [← zpow_natCast, ← zpow_add₀ two_ne_zero]; rfl
    _ < 2 ^ (1024 : ℤ) := zpow_lt_zpow_right₀ one_lt_two (by decide)
    _ = 2 ^ 1024 := zpow_ofNat 2 1024

/-- Joining two slots adds the multiples. -/
theorem Lasts.add {e : ℤ} {x y : String} {p q : Float} {m n : ℕ} (hm : Lasts e ⟨x, p⟩ m)
    (hn : Lasts e ⟨y, q⟩ n) (hle : m + n ≤ 2 ^ 53) (he : -1074 ≤ e) (hetop : e ≤ 970) :
    Lasts e ⟨x, p + q⟩ (m + n) := by
  have hsum : ((m + n : ℕ) : ℚ) * 2 ^ e = m * 2 ^ e + n * 2 ^ e := by
    push_cast
    ring
  have hleft : (0 : ℚ) ≤ m * 2 ^ e := by positivity
  have hright : (0 : ℚ) ≤ n * 2 ^ e := by positivity
  have hdouble := isDouble_of_le hle he
  have hlt := multiple_lt hle hetop
  rw [hsum] at hdouble hlt
  unfold Lasts at hm hn ⊢
  rw [hsum]
  exact denotes_add hm hn hleft hright hdouble hlt

section

variable {e : ℤ} (he : -1074 ≤ e) (hetop : e ≤ 970)

include he hetop

/-- Seconds that are not rounded add up to all multiples. -/
theorem lasts_runningTotal {x : String} {p : Float} {m : ℕ} {s : Schedule Float}
    {counts : List ℕ} (hp : Lasts e ⟨x, p⟩ m) (hs : List.Forall₂ (Lasts e) s counts)
    (hle : m + counts.sum ≤ 2 ^ 53) :
    Lasts e ⟨x, runningTotal p s⟩ (m + counts.sum) := by
  induction hs generalizing p m with
  | nil => exact hp
  | @cons slot n rest counts hslot _ ih =>
    rw [List.sum_cons] at hle ⊢
    rw [runningTotal_cons, ← Nat.add_assoc]
    exact ih (hp.add hslot (by omega) he hetop) (by omega)

/-- Joining slots adds their multiples, and loses none. -/
theorem lasts_coalesceFrom {pending : Slot Float} {m : ℕ} {s : Schedule Float}
    {counts : List ℕ} (hp : Lasts e pending m) (hs : List.Forall₂ (Lasts e) s counts)
    (hle : m + counts.sum ≤ 2 ^ 53) : ∃ joined : List ℕ,
      List.Forall₂ (Lasts e) (coalesceFrom pending s) joined ∧
        joined.sum = m + counts.sum := by
  induction hs generalizing pending m with
  | nil => exact ⟨[m], .cons hp .nil, rfl⟩
  | @cons slot n rest counts hslot _ ih =>
    rw [List.sum_cons] at hle ⊢
    rw [coalesceFrom]
    split
    · obtain ⟨joined, hjoined, hsum⟩ := ih (hp.add hslot (by omega) he hetop) (by omega)
      exact ⟨joined, hjoined, by omega⟩
    · obtain ⟨joined, hjoined, hsum⟩ := ih hslot (by omega)
      exact ⟨m :: joined, .cons hp hjoined, by rw [List.sum_cons, hsum]⟩

/-- Schedules that are not rounded last equally long if they have as many multiples. -/
theorem totalSeconds_eq_of_lasts {s t : Schedule Float} {m n : List ℕ}
    (hs : List.Forall₂ (Lasts e) s m) (ht : List.Forall₂ (Lasts e) t n) (hne : s ≠ [])
    (hnet : t ≠ []) (hsum : n.sum = m.sum) (hle : m.sum ≤ 2 ^ 53) :
    totalSeconds t = totalSeconds s := by
  cases hs with
  | nil => exact absurd rfl hne
  | @cons slot k s m hslot hs =>
    cases ht with
    | nil => exact absurd rfl hnet
    | @cons slot' l t n hslot' ht =>
      rw [List.sum_cons, List.sum_cons] at hsum
      rw [List.sum_cons] at hle
      have hleft := lasts_runningTotal he hetop hslot hs hle
      have hright := lasts_runningTotal he hetop hslot' ht (hsum ▸ hle)
      rw [hsum] at hright
      rw [totalSeconds_cons, totalSeconds_cons]
      exact eq_of_denotes (multiple_lt hle hetop) hright hleft

end

/-- Joining slots that are not rounded leaves the total as it is. -/
theorem IsMeasured.totalSeconds_coalesce {s : Schedule Float} (h : IsMeasured s) :
    totalSeconds (coalesce s) = totalSeconds s := by
  obtain ⟨e, counts, he, hetop, hs, hle⟩ := h
  cases hs with
  | nil => rfl
  | @cons slot n rest counts hslot hrest =>
    have hle' := hle
    rw [List.sum_cons] at hle'
    obtain ⟨joined, hjoined, hsum⟩ := lasts_coalesceFrom he hetop hslot hrest hle'
    rw [coalesce]
    refine totalSeconds_eq_of_lasts he hetop (.cons hslot hrest) hjoined (List.cons_ne_nil _ _) ?_
      (by rw [hsum, List.sum_cons]) hle
    intro hnil
    have hhead := head?_coalesceFrom slot rest
    rw [hnil] at hhead
    cases hhead

end Schedule

/-! ## What is accepted -/

namespace Predictor

/-- A fixed schedule is found too long just if it lasts longer than the timeout, whatever the
instance is like. -/
theorem tooLong_iff {p : Predictor} {features : Features} {goal : Goal} :
    (∃ used limit, p.predict features goal = .error (.fixedTooLong used limit)) ↔
      p.timeout < Schedule.totalSeconds p.fixed := by
  rw [← sub_lt_zero_iff]
  unfold predict
  constructor
  · rintro ⟨used, limit, h⟩
    simp only at h
    split at h
    · next hlt => exact hlt
    · -- The other failures are of the features, and of the knowledge base.
      split at h
      · cases h
      · split at h
        · cases h
        · cases h
  · intro hlt
    exact ⟨_, _, if_pos hlt⟩

/-- A static schedule that was accepted is found too long just if its joined slots last longer than
the timeout. The slots that were read do not, and if no more than the first ones of them are
joined, or if their seconds are added without rounding, then the joined ones do not either. -/
theorem accepted_again {p : Predictor} {text : List Char} {table : SolverTable}
    (hload : StaticSchedule.load text table p.timeout = .ok p.fixed) :
    (∀ features goal,
      (∃ used limit, p.predict features goal = .error (.fixedTooLong used limit)) ↔
        p.timeout < Schedule.totalSeconds p.fixed) ∧
    ∃ parsed, StaticSchedule.parse text = .ok parsed ∧ p.fixed = Schedule.merge parsed [] ∧
      ¬ p.timeout < Schedule.totalSeconds parsed ∧
      (Schedule.JoinsAtStart parsed ∨ Schedule.IsMeasured parsed →
        ∀ features goal used limit,
          p.predict features goal ≠ .error (.fixedTooLong used limit)) := by
  obtain ⟨parsed, hparse, -, hlt, hfixed⟩ := StaticSchedule.load_eq_ok_iff.mp hload
  refine ⟨fun _ _ => tooLong_iff, parsed, hparse, hfixed.symm, hlt, ?_⟩
  intro hexact features goal used limit herror
  have htotal : Schedule.totalSeconds p.fixed = Schedule.totalSeconds parsed := by
    rw [← hfixed, Schedule.merge, List.append_nil]
    rcases hexact with hexact | hexact
    · exact hexact.totalSeconds_coalesce
    · exact hexact.totalSeconds_coalesce
  have htoo := tooLong_iff.mp ⟨used, limit, herror⟩
  rw [htotal] at htoo
  exact hlt htoo

/-- The two solvers are scheduled within ten seconds, behind a fixed schedule. -/
def duoBehind (fixed : Schedule Float) : Predictor := { duo with fixed }

/-- Two seconds and one more are joined to three before the others are added, in any case. -/
theorem never_too_long_joined :
    StaticSchedule.load "a,2\na,1\nb,7".toList Opening.duo.table 10 =
        .ok [⟨"a", 2 + 1⟩, ⟨"b", 7⟩] ∧
      ∀ features goal used limit, (duoBehind [⟨"a", 2 + 1⟩, ⟨"b", 7⟩]).predict features goal ≠
        .error (.fixedTooLong used limit) := by
  have hload : StaticSchedule.load "a,2\na,1\nb,7".toList Opening.duo.table 10 =
      .ok [⟨"a", 2 + 1⟩, ⟨"b", 7⟩] := rfl
  have hparse : StaticSchedule.parse "a,2\na,1\nb,7".toList =
      .ok [⟨"a", 2⟩, ⟨"a", 1⟩, ⟨"b", 7⟩] := rfl
  obtain ⟨-, parsed, hparsed, -, -, hnever⟩ :=
    accepted_again (p := duoBehind [⟨"a", 2 + 1⟩, ⟨"b", 7⟩]) hload
  obtain rfl := Except.ok.inj (hparse.symm.trans hparsed)
  refine ⟨hload, hnever (.inl ⟨[⟨"a", 2⟩, ⟨"a", 1⟩], [⟨"b", 7⟩], rfl, ⟨"a", ?_⟩, ?_⟩)⟩
  · simp
  · simp

/-- The first total of a schedule is ten, which is accepted. Its last slots are joined first, so the
second total is larger. -/
theorem accepted_then_too_long :
    StaticSchedule.load "a,0.3\nb,0.8\nb,8.9".toList Opening.duo.table 10 =
        .ok [⟨"a", 0.3⟩, ⟨"b", 0.8 + 8.9⟩] ∧
      ∀ features goal, ∃ used limit,
        (duoBehind [⟨"a", 0.3⟩, ⟨"b", 0.8 + 8.9⟩]).predict features goal =
          .error (.fixedTooLong used limit) := by
  refine ⟨rfl, fun features goal => tooLong_iff.mpr ?_⟩
  decide +kernel

end Predictor

end SolverPortfolio
