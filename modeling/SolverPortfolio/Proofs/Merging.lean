import Mathlib.Data.List.Destutter
import SolverPortfolio.Proofs.Spreading

/-
# Merged schedules

A merged schedule is in normal form: its solvers are those of both parts in their order, without
repetitions next to each other, and every solver keeps its time. Joining neighbours in a part
before that part is merged changes nothing, on either side of the seam. So merging is associative,
and a schedule that has been merged stays as it is.

Main statements: `Schedule.solvers_coalesce`, `Schedule.coalesce_coalesce_append`,
`Schedule.coalesce_append_coalesce`, `Schedule.merge_normal`.
-/

namespace SolverPortfolio.Schedule

/-! ## The solvers of a joined schedule -/

section

variable {α : Type} [Add α]

/-- Of the slots that follow, those are kept whose solver differs from the one before. -/
theorem solvers_coalesceFrom (pending : Slot α) (s : Schedule α) :
    (coalesceFrom pending s).map (·.solver) =
      (s.map (·.solver)).destutter' (· ≠ ·) pending.solver := by
  induction s generalizing pending with
  | nil => rfl
  | cons slot rest ih =>
    unfold coalesceFrom
    rw [List.map_cons]
    split
    · next heq => rw [ih, List.destutter'_cons_neg _ (not_not.mpr heq)]
    · next hne => rw [List.map_cons, ih, List.destutter'_cons_pos _ hne]

/-- Joining leaves the solvers without repetitions next to each other. -/
theorem solvers_coalesce (s : Schedule α) :
    (coalesce s).map (·.solver) = (s.map (·.solver)).destutter (· ≠ ·) := by
  cases s with
  | nil => rfl
  | cons slot rest => exact solvers_coalesceFrom slot rest

/-- No solver has two slots next to each other. -/
theorem isChain_coalesce (s : Schedule α) :
    (coalesce s).IsChain fun a b => a.solver ≠ b.solver := by
  have hchain := List.isChain_destutter (· ≠ ·) (s.map (·.solver))
  rwa [← solvers_coalesce, List.isChain_map] at hchain

/-! ## Joining twice -/

/-- A slot is joined to one of its own solver. -/
theorem coalesceFrom_same (x : String) (p q : α) (s : Schedule α) :
    coalesceFrom ⟨x, p⟩ (⟨x, q⟩ :: s) = coalesceFrom ⟨x, p + q⟩ s := if_pos rfl

/-- A slot is finished in front of another solver. -/
theorem coalesceFrom_of_ne {x y : String} (h : x ≠ y) (p q : α) (s : Schedule α) :
    coalesceFrom ⟨x, p⟩ (⟨y, q⟩ :: s) = ⟨x, p⟩ :: coalesceFrom ⟨y, q⟩ s := if_neg h

/-- The slot not yet finished comes first, with what is joined to it. -/
theorem exists_coalesceFrom_eq_cons (x : String) (p : α) (s : Schedule α) :
    ∃ q rest, coalesceFrom ⟨x, p⟩ s = ⟨x, q⟩ :: rest := by
  have hhead := head?_coalesceFrom ⟨x, p⟩ s
  cases heq : coalesceFrom ⟨x, p⟩ s with
  | nil =>
    rw [heq] at hhead
    cases hhead
  | cons first rest =>
    rw [heq] at hhead
    cases hhead
    exact ⟨first.seconds, rest, rfl⟩

/-- What is joined already may be followed by more slots. -/
theorem coalesce_coalesceFrom_append (pending : Slot α) (s t : Schedule α) :
    coalesce (coalesceFrom pending s ++ t) = coalesceFrom pending (s ++ t) := by
  induction s generalizing pending with
  | nil => rfl
  | cons slot rest ih =>
    obtain ⟨x, p⟩ := pending
    obtain ⟨y, q⟩ := slot
    rw [List.cons_append]
    by_cases hslot : x = y
    · subst hslot
      rw [coalesceFrom_same, coalesceFrom_same, ih]
    · -- The joined rest begins with `y` again, so the slot of `x` is finished here, too.
      obtain ⟨q', others, hrest⟩ := exists_coalesceFrom_eq_cons y q rest
      have hjoined := ih ⟨y, q⟩
      rw [hrest, List.cons_append, coalesce] at hjoined
      rw [coalesceFrom_of_ne hslot, coalesceFrom_of_ne hslot, hrest, List.cons_append,
        List.cons_append, coalesce, coalesceFrom_of_ne hslot, hjoined]

/-- Joining the first part beforehand changes nothing. -/
theorem coalesce_coalesce_append (s t : Schedule α) :
    coalesce (coalesce s ++ t) = coalesce (s ++ t) := by
  cases s with
  | nil => rfl
  | cons slot rest => exact coalesce_coalesceFrom_append slot rest t

/-- What has been joined stays as it is. -/
theorem coalesce_coalesce (s : Schedule α) : coalesce (coalesce s) = coalesce s := by
  have hjoined := coalesce_coalesce_append s []
  rwa [List.append_nil, List.append_nil] at hjoined

end

section

variable {α : Type} [AddSemigroup α]

/-- A slot not yet finished may be followed by slots that are joined already: the times of one
solver are added in another order. -/
theorem coalesceFrom_coalesceFrom (pending slot : Slot α) (s : Schedule α) :
    coalesceFrom pending (coalesceFrom slot s) = coalesceFrom pending (slot :: s) := by
  induction s generalizing pending slot with
  | nil => rfl
  | cons next rest ih =>
    obtain ⟨x, p⟩ := pending
    obtain ⟨y, q⟩ := slot
    obtain ⟨z, r⟩ := next
    by_cases hnext : y = z
    · subst hnext
      rw [coalesceFrom_same, ih]
      by_cases hslot : x = y
      · subst hslot
        rw [coalesceFrom_same, coalesceFrom_same, coalesceFrom_same, add_assoc]
      · rw [coalesceFrom_of_ne hslot, coalesceFrom_of_ne hslot, coalesceFrom_same]
    · rw [coalesceFrom_of_ne hnext]
      by_cases hslot : x = y
      · subst hslot
        rw [coalesceFrom_same, coalesceFrom_same, ih]
      · rw [coalesceFrom_of_ne hslot, coalesceFrom_of_ne hslot, ih, coalesceFrom_of_ne hnext]

/-- A slot not yet finished may be followed by slots that are joined from there on. -/
theorem coalesceFrom_append_coalesce (pending : Slot α) (s t : Schedule α) :
    coalesceFrom pending (s ++ coalesce t) = coalesceFrom pending (s ++ t) := by
  induction s generalizing pending with
  | nil =>
    cases t with
    | nil => rfl
    | cons slot rest => exact coalesceFrom_coalesceFrom pending slot rest
  | cons slot rest ih =>
    rw [List.cons_append, List.cons_append, coalesceFrom, coalesceFrom, ih, ih]

/-- Joining the second part beforehand changes nothing. -/
theorem coalesce_append_coalesce (s t : Schedule α) :
    coalesce (s ++ coalesce t) = coalesce (s ++ t) := by
  cases s with
  | nil => exact coalesce_coalesce t
  | cons slot rest => exact coalesceFrom_append_coalesce slot rest t

/-- Three schedules are merged in one way only. -/
theorem merge_merge (a b c : Schedule α) : merge (merge a b) c = merge a (merge b c) := by
  rw [merge, merge, coalesce_coalesce_append, merge, merge, coalesce_append_coalesce,
    List.append_assoc]

end

/-! ## Normal forms -/

/-- Merged schedules of exact times are in normal form. No solver has two slots next to each other;
the solvers are those of both schedules in their order, without such repetitions; every solver has
the time that it has in both. Merging a merged schedule with nothing leaves it as it is, and three
schedules may be merged from either side. -/
theorem merge_normal (a b c : Schedule Rat) :
    (merge a b).IsChain (fun x y => x.solver ≠ y.solver) ∧
    (merge a b).map (·.solver) = ((a ++ b).map (·.solver)).destutter (· ≠ ·) ∧
    (∀ solver, (merge a b).secondsOf (· = solver) =
      a.secondsOf (· = solver) + b.secondsOf (· = solver)) ∧
    merge (merge a b) [] = merge a b ∧
    merge (merge a b) c = merge a (merge b c) := by
  refine ⟨isChain_coalesce _, solvers_coalesce _, fun solver => secondsOf_merge, ?_,
    merge_merge a b c⟩
  calc merge (merge a b) [] = coalesce (coalesce (a ++ b)) := by
        rw [merge, List.append_nil, merge]
    _ = merge a b := coalesce_coalesce _

end SolverPortfolio.Schedule
