import Mathlib.Data.Nat.PSub
import SolverPortfolio.Proofs.Ranking

/-
# Subsets by their ranks

Finding a subset from its rank takes numbers from one another and looks up elements, and a
program that runs on words may do neither blindly. The same search with every subtraction
and every access guarded never fails: the counts that are taken away were compared before,
and the places found lie in the list, also where counts were cut off. So a rank below the
count leads to the elements at the places of one subset, which stands as many places from
the end of the lexicographic order as the rank stands from the count.

Main definitions: `searchDown?`, `elementsAt?`, `guardedUnrank`, `ListsSubsets`.
Main statements: `guardedUnrank_eq`, `listsSubsets_reverse`, `unrank_lexicographic`.
-/

namespace SolverPortfolio.Combination

/-! ## Guarded search -/

/-- The largest number up to `v` of which at most `x` subsets have `b` elements; none if the search
would have to go below zero. -/
def searchDown? (b x : Nat) : Nat → Option Nat
  | 0 => if choose 0 b ≤ x then some 0 else none
  | v + 1 => if choose (v + 1) b ≤ x then some (v + 1) else searchDown? b x v

/-- The elements of a subset, one in each round, with `b` elements still to come from the last `a`,
and `x` subsets of these later in the order; none if a number is to be taken from a smaller one, or
an element is not there. -/
def elementsAt? {α : Type} (xs : List α) : Nat → Nat → Nat → Nat → Option (List α)
  | 0, _, _, _ => some []
  | rounds + 1, a, b, x => do
    let v ← searchDown? b x (← a.psub 1)
    let rest ← x.psub (choose v b)
    let fewer ← b.psub 1
    let place ← (← xs.length.psub 1).psub v
    let first ← xs[place]?
    return first :: (← elementsAt? xs rounds v fewer rest)

/-- The subset of rank `h`, as `unrank` finds it, with a guard before every step that a word or a
list could refuse; none if a guard gives way. -/
def guardedUnrank {α : Type} (h k : Nat) (xs : List α) : Option (Except RankOutOfRange (List α)) :=
  let count := choose xs.length k
  if count ≤ h then some (.error ⟨h, count⟩)
  else do
    let x ← (← count.psub 1).psub h
    return .ok (← elementsAt? xs k xs.length k x)

/-- No elements cannot be chosen from nothing. -/
theorem choose_zero_succ (b : Nat) : choose 0 (b + 1) = 0 :=
  if_pos (Nat.succ_pos b)

/-- The search does not go below zero, and finds what `largestBelow` finds. -/
theorem searchDown?_eq (b x v : Nat) :
    searchDown? (b + 1) x v = some (largestBelow (b + 1) x (v + 1)) := by
  induction v with
  | zero =>
    have hzero : choose 0 (b + 1) ≤ x := by
      rw [choose_zero_succ]
      exact Nat.zero_le x
    rw [searchDown?, largestBelow, if_pos hzero, if_pos hzero]
  | succ v ih =>
    rw [searchDown?, largestBelow, ih]
    split <;> rfl

/-- The count that the search ends at can be taken away. -/
theorem choose_largestBelow_le (b x a : Nat) :
    choose (largestBelow (b + 1) x a) (b + 1) ≤ x := by
  induction a with
  | zero =>
    rw [largestBelow, choose_zero_succ]
    exact Nat.zero_le x
  | succ a ih =>
    rw [largestBelow]
    split
    · next hle => exact hle
    · exact ih

/-- Where a subset is left to be found, its first element has fewer elements behind it, and among
the subsets of these the place that is left is one for the other elements. -/
theorem largestBelow_lt {a b x : Nat} (hx : x < a.choose (b + 1)) (hexact : Exact a (b + 1) x) :
    largestBelow (b + 1) x a < a ∧
      x - choose (largestBelow (b + 1) x a) (b + 1) < (largestBelow (b + 1) x a).choose b := by
  -- Any list of that length will do.
  have hlength : (List.replicate a ()).length = a := List.length_replicate
  rw [← hlength] at hx hexact
  obtain ⟨front, first, back, hsplit, hlargest, hcount, hrest, -⟩ :=
    exists_largestBelow hx hexact
  rw [hlength] at hlargest
  rw [hlargest, hcount]
  refine ⟨?_, hrest⟩
  have hsum := congrArg List.length hsplit
  rw [hlength, List.length_append, List.length_cons] at hsum
  omega

/-- No guard gives way while the elements of a subset are taken. -/
theorem elementsAt?_eq {α : Type} {xs : List α} {a b x : Nat} (ha : a ≤ xs.length)
    (hx : x < a.choose b) (hexact : Exact a b x) :
    elementsAt? xs b a b x = some ((positions xs.length b a x).filterMap fun p => xs[p]?) := by
  induction b generalizing a x with
  | zero => rfl
  | succ b ih =>
    obtain ⟨hv, hrest⟩ := largestBelow_lt hx hexact
    have hle := choose_largestBelow_le b x a
    have hsearch := searchDown?_eq b x (a - 1)
    rw [Nat.sub_add_cancel (Nat.one_le_of_lt hv)] at hsearch
    rw [positions]
    generalize largestBelow (b + 1) x a = v at hv hrest hle hsearch ⊢
    have hlast : a.psub 1 = some (a - 1) := Nat.psub_eq_sub (by omega)
    have hcount : x.psub (choose v (b + 1)) = some (x - choose v (b + 1)) := Nat.psub_eq_sub hle
    have hfewer : (b + 1).psub 1 = some b := Nat.psub_eq_sub (Nat.succ_pos b)
    have hend : xs.length.psub 1 = some (xs.length - 1) := Nat.psub_eq_sub (by omega)
    have hplace : (xs.length - 1).psub v = some (xs.length - 1 - v) := Nat.psub_eq_sub (by omega)
    have hfirst : xs[xs.length - 1 - v]? = some xs[xs.length - 1 - v] :=
      List.getElem?_eq_getElem (by omega)
    have htail := ih (by omega) hrest (hexact.next hv (Nat.sub_le _ _))
    rw [List.filterMap_cons_some hfirst, elementsAt?]
    simp only [hlast, hsearch, hcount, hfewer, hend, hplace, hfirst, htail, Option.bind_eq_bind,
      Option.bind_some]
    rfl

/-- No guard gives way, whatever the rank. -/
theorem guardedUnrank_eq {α : Type} (h k : Nat) (xs : List α) :
    guardedUnrank h k xs = some (unrank h k xs) := by
  unfold guardedUnrank unrank
  dsimp only
  split
  · rfl
  · next hlt =>
    have hx : choose xs.length k - 1 - h < choose xs.length k := by omega
    have hlast : (choose xs.length k).psub 1 = some (choose xs.length k - 1) :=
      Nat.psub_eq_sub (by omega)
    have hdual : (choose xs.length k - 1).psub h = some (choose xs.length k - 1 - h) :=
      Nat.psub_eq_sub (by omega)
    have helements := elementsAt?_eq (Nat.le_refl xs.length)
      (Nat.lt_of_lt_of_le hx (choose_le _ _)) (exact_of_lt hx)
    simp only [hlast, hdual, helements, Option.bind_eq_bind, Option.bind_some]
    rfl

/-! ## Subsets in lexicographic order -/

/-- All sets of `k` of `n` places, each written in increasing order, come once each and in
lexicographic order. -/
structure ListsSubsets (k : Nat) {n : Nat} (all : List (List (Fin n))) : Prop where
  sorted : all.Pairwise (· < ·)
  mem_iff : ∀ ps, ps ∈ all ↔ ps.Pairwise (· < ·) ∧ ps.length = k

/-- The sublists of all places, read from the end, are the sets of places in order. -/
theorem listsSubsets_reverse (n k : Nat) :
    ListsSubsets k ((List.finRange n).sublistsLen k).reverse where
  sorted := List.pairwise_reverse.mpr (pairwise_lex_sublistsLen k (List.pairwise_lt_finRange n))
  mem_iff ps := by rw [List.mem_reverse, List.mem_sublistsLen, sublist_finRange_iff]

/-- The sublists of a list are its elements at the sublists of its places. -/
theorem sublistsLen_eq_map_get {α : Type} (k : Nat) (xs : List α) :
    xs.sublistsLen k = ((List.finRange xs.length).sublistsLen k).map (List.map xs.get) := by
  rw [← sublistsLen_map, List.map_get_finRange]

/-- The subset of a rank stands as far from the end of the order as the rank from the count. -/
theorem exists_places_unrank {α : Type} {h k : Nat} {xs : List α} (hh : h < choose xs.length k) :
    ∃ ps, ((List.finRange xs.length).sublistsLen k).reverse[
          xs.length.choose k - choose xs.length k + h]? = some ps ∧
      unrank h k xs = .ok (ps.map xs.get) := by
  have hcount := choose_le xs.length k
  have hlength : ((List.finRange xs.length).sublistsLen k).length = xs.length.choose k := by
    rw [List.length_sublistsLen, List.length_finRange]
  have hplace : choose xs.length k - 1 - h <
      ((List.finRange xs.length).sublistsLen k).length := by omega
  have hget := List.getElem?_eq_getElem hplace
  refine ⟨((List.finRange xs.length).sublistsLen k)[choose xs.length k - 1 - h], ?_, ?_⟩
  · rw [List.getElem?_reverse (by omega), hlength, ← hget]
    congr 1
    omega
  · have hunrank := toOption_unrank h k xs
    rw [if_pos hh, sublistsLen_eq_map_get, List.getElem?_map, hget] at hunrank
    cases hcase : unrank h k xs with
    | error e =>
      rw [hcase] at hunrank
      cases hunrank
    | ok s =>
      rw [hcase] at hunrank
      exact congrArg Except.ok (Option.some.inj hunrank)

/-- The sets of `k` places of a list have a lexicographic order. A rank below the count leads,
without a step that could fail, to the elements at the places of the set that stands as far from the
end of the order as the rank from the count; any other rank is out of range. So if a word can count
the sets, all of them are listed in their order. -/
theorem unrank_lexicographic {α : Type} (k : Nat) {xs : List α} (hword : xs.length ≤ maxCount) :
    let total := xs.length.choose k
    let count := min total maxCount
    ∃ all : List (List (Fin xs.length)), ListsSubsets k all ∧ all.length = total ∧
      (∀ h, guardedUnrank h k xs = some (unrank h k xs)) ∧
      (∀ h < count, ∃ ps, all[total - count + h]? = some ps ∧
        unrank h k xs = .ok (ps.map xs.get)) ∧
      (∀ h, count ≤ h → unrank h k xs = .error ⟨h, count⟩) ∧
      (total < 2 ^ 64 → subsets k xs = all.map fun ps => ps.map xs.get) := by
  have hcount := choose_eq_min (k := k) hword
  refine ⟨((List.finRange xs.length).sublistsLen k).reverse, listsSubsets_reverse _ k, ?_,
    fun h => guardedUnrank_eq h k xs, fun h hh => ?_, fun h hh => ?_, fun htotal => ?_⟩
  · rw [List.length_reverse, List.length_sublistsLen, List.length_finRange]
  · rw [← hcount] at hh ⊢
    exact exists_places_unrank hh
  · rw [← hcount] at hh ⊢
    exact if_pos hh
  · have hle : xs.length.choose k ≤ maxCount := Nat.le_pred_of_lt htotal
    rw [subsets_of_choose_le hle, List.map_reverse, sublistsLen_eq_map_get]

/-- Of seventy elements, more subsets have thirty-five than a word counts; the first rank leads to
one of them. -/
theorem seventy_lexicographic :
    (List.range 70).length ≤ maxCount ∧ 2 ^ 64 ≤ (List.range 70).length.choose 35 ∧
      ∃ all : List (List (Fin (List.range 70).length)), ListsSubsets 35 all ∧
        ∃ ps, all[(List.range 70).length.choose 35 - maxCount]? = some ps ∧
          unrank 0 35 (List.range 70) = .ok (ps.map (List.range 70).get) := by
  have hword : (List.range 70).length ≤ maxCount := by decide +kernel
  have hmany : 2 ^ 64 ≤ (List.range 70).length.choose 35 := by
    rw [List.length_range, Nat.choose_eq_descFactorial_div_factorial]
    decide +kernel
  have hcount : min ((List.range 70).length.choose 35) maxCount = maxCount :=
    Nat.min_eq_right (Nat.le_trans (Nat.sub_le _ _) hmany)
  obtain ⟨all, hall, -, -, hunrank, -, -⟩ := unrank_lexicographic 35 hword
  rw [hcount] at hunrank
  exact ⟨hword, hmany, all, hall, hunrank 0 (by decide +kernel)⟩

end SolverPortfolio.Combination
