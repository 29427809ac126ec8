import Mathlib.Data.List.FinRange
import Mathlib.Data.List.Shortlex
import Mathlib.Data.List.Sort
import Mathlib.Data.List.Sublists
import Mathlib.Data.Nat.Choose.Basic
import SolverPortfolio.Combination

/-
# Ranks and subsets

`choose` counts subsets up to the largest 64-bit word, and `unrank` finds a subset from
its rank by these counts alone. Where a count was cut off it is never reached by a rank,
so that every rank below the count leads to the subset it stands for: `subsets` lists the
subsets of one size in lexicographic order, and all of them unless there are more than a
64-bit word can count; then it leaves out the first ones.

Main statements: `choose_eq`, `toOption_unrank`, `subsets_eq`, `pairwise_placeSets`.
-/

namespace SolverPortfolio.Combination

/-! ## Counting -/

/-- One step of the walk multiplies and divides without a rest. -/
theorem step_choose (delta i : Nat) :
    (delta + i).choose i * (delta + (i + 1)) / (i + 1) = (delta + (i + 1)).choose (i + 1) := by
  have h := Nat.add_one_mul_choose_eq (delta + i) i
  rw [Nat.mul_comm, Nat.add_assoc] at h
  rw [h, Nat.mul_div_cancel _ (Nat.succ_pos i)]

/-- The numbers along the walk only grow. -/
theorem choose_le_choose_add (delta i todo : Nat) :
    (delta + i).choose i ≤ (delta + (i + todo)).choose (i + todo) := by
  rw [← Nat.choose_symm_add, ← Nat.choose_symm_add (a := delta)]
  exact Nat.choose_le_choose delta (by omega)

/-- The walk from a count that fits 64 bits ends at the count asked for, or at the largest one. -/
theorem climb_of_le {delta todo i : Nat} (h : (delta + i).choose i ≤ maxCount) :
    climb delta todo i ((delta + i).choose i) =
      min ((delta + (i + todo)).choose (i + todo)) maxCount := by
  induction todo generalizing i with
  | zero => exact (Nat.min_eq_left h).symm
  | succ todo ih =>
    have hgrow := choose_le_choose_add delta (i + 1) todo
    rw [Nat.add_right_comm i 1 todo, Nat.add_assoc i todo 1] at hgrow
    simp only [climb, step_choose]
    split
    · next hlarge => rw [Nat.min_eq_right (hlarge.le.trans hgrow)]
    · next hsmall =>
      rw [ih (Nat.not_lt.mp hsmall), Nat.add_right_comm i 1 todo, Nat.add_assoc i todo 1]

/-- A walk of at least one step does not go beyond the largest count, wherever it begins. -/
theorem climb_succ (delta todo i : Nat) :
    climb delta (todo + 1) i ((delta + i).choose i) =
      min ((delta + (i + (todo + 1))).choose (i + (todo + 1))) maxCount := by
  have hgrow := choose_le_choose_add delta (i + 1) todo
  rw [Nat.add_right_comm i 1 todo, Nat.add_assoc i todo 1] at hgrow
  simp only [climb, step_choose]
  split
  · next hlarge => rw [Nat.min_eq_right (hlarge.le.trans hgrow)]
  · next hsmall =>
    rw [climb_of_le (Nat.not_lt.mp hsmall), Nat.add_right_comm i 1 todo, Nat.add_assoc i todo 1]

/-- The count is the binomial coefficient; beyond the first two columns from either side it is at
most the largest 64-bit word. -/
theorem choose_eq (n k : Nat) : choose n k =
    if min k (n - k) ≤ 1 then n.choose k else min (n.choose k) maxCount := by
  unfold choose
  split
  · next hlt => rw [if_pos (by omega), Nat.choose_eq_zero_of_lt hlt]
  · next hle =>
    split
    · next hends =>
      rw [if_pos (by omega)]
      rcases hends with rfl | rfl
      · exact (Nat.choose_zero_right n).symm
      · exact (Nat.choose_self n).symm
    · next hinner =>
      obtain ⟨todo, htodo⟩ : ∃ todo, min k (n - k) = todo + 1 :=
        Nat.exists_eq_add_one.mpr (by omega)
      have hdelta : n - (todo + 1) + (1 + todo) = n := by omega
      have hsymm : n.choose (1 + todo) = n.choose k := by
        rcases (by omega : 1 + todo = k ∨ 1 + todo = n - k) with h | h
        · rw [h]
        · rw [h, Nat.choose_symm (by omega)]
      have hstart : n - (todo + 1) + 1 = (n - (todo + 1) + 1).choose 1 :=
        (Nat.choose_one_right _).symm
      simp only [htodo, Nat.add_sub_cancel]
      rw [hstart]
      cases todo with
      | zero => rw [if_pos (Nat.le_refl 1), ← hsymm, climb, hdelta]
      | succ todo => rw [if_neg (by omega), climb_succ, hdelta, hsymm]

/-- The count is never larger than the binomial coefficient. -/
theorem choose_le (n k : Nat) : choose n k ≤ n.choose k := by
  rw [choose_eq]
  split
  · exact Nat.le_refl _
  · exact Nat.min_le_left _ _

/-- A binomial coefficient that fits 64 bits is counted exactly. -/
theorem choose_of_le {n k : Nat} (h : n.choose k ≤ maxCount) : choose n k = n.choose k := by
  rw [choose_eq]
  split
  · rfl
  · exact Nat.min_eq_left h

/-- Of as many elements as a word can count, the subsets are counted up to the largest word. -/
theorem choose_eq_min {n k : Nat} (hn : n ≤ maxCount) :
    choose n k = min (n.choose k) maxCount := by
  rw [choose_eq]
  split
  · next hfew =>
    refine (Nat.min_eq_left ?_).symm
    have hone : 1 ≤ maxCount := by decide
    rcases (by omega : n < k ∨ k = 0 ∨ n = k ∨ k = 1 ∨ 1 ≤ n ∧ k = n - 1) with
      hlt | rfl | rfl | rfl | ⟨hpos, rfl⟩
    · rw [Nat.choose_eq_zero_of_lt hlt]
      exact Nat.zero_le _
    · rwa [Nat.choose_zero_right]
    · rwa [Nat.choose_self]
    · rwa [Nat.choose_one_right]
    · rwa [Nat.choose_symm hpos, Nat.choose_one_right]
  · rfl

/-! ## Ranks -/

/-- Below the rank `x`, the counts of `b`-element subsets of fewer than `a` elements are exact. -/
def Exact (a b x : Nat) : Prop := x < maxCount ∨ b ≤ 1 ∨ a ≤ b + 1

/-- A count up to an exact rank is the binomial coefficient. -/
theorem Exact.choose_eq {a b x v : Nat} (h : Exact a b x) (hv : v < a) (hx : choose v b ≤ x) :
    choose v b = v.choose b := by
  rw [Combination.choose_eq] at hx ⊢
  split at hx
  · next hfew => rw [if_pos hfew]
  · next hmany =>
    have hcut : x < maxCount := h.resolve_right (by omega)
    rw [if_neg hmany]
    exact (min_choice _ _).resolve_right fun hmax => by omega

/-- Fewer elements have exact counts, too. -/
theorem Exact.shorter {a a' b x : Nat} (h : Exact a b x) (ha : a' ≤ a) : Exact a' b x := by
  unfold Exact at h ⊢
  omega

/-- Once an element is taken, the counts for the others are exact. -/
theorem Exact.next {a a' b x x' : Nat} (h : Exact a (b + 1) x) (ha : a' < a) (hx : x' ≤ x) :
    Exact a' b x' := by
  unfold Exact at h ⊢
  omega

/-- Every rank below a count is exact. -/
theorem exact_of_lt {n k x : Nat} (hx : x < choose n k) : Exact n k x := by
  rw [choose_eq] at hx
  unfold Exact
  split at hx
  · next hfew => omega
  · exact Or.inl (Nat.lt_of_lt_of_le hx (Nat.min_le_right _ _))

/-- The search for the first element of a subset. Of all subsets in the reverse of the
lexicographic order, the one at place `x` begins with the element that has `largestBelow` others
behind it, and goes on with the subset of these at the place that is left. -/
theorem exists_largestBelow {α : Type} {b x : Nat} {xs : List α}
    (hx : x < xs.length.choose (b + 1)) (hexact : Exact xs.length (b + 1) x) :
    ∃ front first back, xs = front ++ first :: back ∧
      largestBelow (b + 1) x xs.length = back.length ∧
      choose back.length (b + 1) = back.length.choose (b + 1) ∧
      x - back.length.choose (b + 1) < back.length.choose b ∧
      (xs.sublistsLen (b + 1))[x]? =
        ((back.sublistsLen b)[x - back.length.choose (b + 1)]?).map (first :: ·) := by
  -- The induction is on the elements; those passed over have too many subsets behind them.
  induction xs with
  | nil => exact absurd hx (Nat.not_lt_zero x)
  | cons y ys ih =>
    rw [List.length_cons, Nat.choose_succ_succ'] at hx
    rw [List.length_cons, largestBelow]
    split
    · next hle =>
      have hcount := hexact.choose_eq (Nat.lt_succ_self _) hle
      rw [hcount] at hle
      refine ⟨[], y, ys, rfl, rfl, hcount, by omega, ?_⟩
      rw [List.sublistsLen_succ_cons, List.getElem?_append_right, List.length_sublistsLen,
        List.getElem?_map]
      rw [List.length_sublistsLen]
      exact hle
    · next hgt =>
      have hlt : x < ys.length.choose (b + 1) :=
        Nat.lt_of_lt_of_le (Nat.not_le.mp hgt) (choose_le _ _)
      obtain ⟨front, first, back, rfl, hlargest, hcount, hrest, hget⟩ :=
        ih hlt (hexact.shorter (Nat.le_succ _))
      refine ⟨y :: front, first, back, rfl, hlargest, hcount, hrest, ?_⟩
      rw [List.sublistsLen_succ_cons, List.getElem?_append_left, hget]
      rw [List.length_sublistsLen]
      exact hlt

/-- The elements at the positions found are those of the subset at place `x`, in the reverse of the
lexicographic order, among the subsets of the elements behind `pre`. -/
theorem filterMap_positions {α : Type} {b x : Nat} (pre : List α) {xs : List α}
    (hx : x < xs.length.choose b) (hexact : Exact xs.length b x) :
    some ((positions (pre ++ xs).length b xs.length x).filterMap fun p => (pre ++ xs)[p]?) =
      (xs.sublistsLen b)[x]? := by
  induction b generalizing x pre xs with
  | zero =>
    have hzero : x = 0 := by
      rw [Nat.choose_zero_right] at hx
      omega
    rw [hzero, List.sublistsLen_zero]
    rfl
  | succ b ih =>
    obtain ⟨front, first, back, rfl, hlargest, hcount, hrest, hget⟩ :=
      exists_largestBelow hx hexact
    have hpre : pre ++ (front ++ first :: back) = (pre ++ front ++ [first]) ++ back := by simp
    have hplace : (pre ++ (front ++ first :: back)).length - 1 - back.length
        = (pre ++ front).length := by
      simp only [List.length_append, List.length_cons]
      omega
    have hfirst : (pre ++ (front ++ first :: back))[(pre ++ front).length]? = some first := by
      rw [← List.append_assoc, List.getElem?_append_right (Nat.le_refl _), Nat.sub_self]
      rfl
    rw [positions]
    simp only [hlargest, hplace, hcount]
    rw [List.filterMap_cons_some hfirst, hget, hpre, ← ih _ hrest]
    · rfl
    · exact hexact.next (by simp only [List.length_append, List.length_cons]; omega)
        (Nat.sub_le _ _)

/-- The subset of a rank is the one at the opposite place in the reverse of the lexicographic
order, and there is none from the count on. -/
theorem toOption_unrank {α : Type} (h k : Nat) (xs : List α) :
    (unrank h k xs).toOption =
      if h < choose xs.length k then (xs.sublistsLen k)[choose xs.length k - 1 - h]? else none := by
  unfold unrank
  dsimp only
  split
  · next hle => rw [if_neg (Nat.not_lt.mpr hle)]; rfl
  · next hlt =>
    have hx : choose xs.length k - 1 - h < choose xs.length k := by omega
    have hsubset := filterMap_positions [] (Nat.lt_of_lt_of_le hx (choose_le _ _)) (exact_of_lt hx)
    rw [if_pos (Nat.not_le.mp hlt), ← hsubset, List.nil_append]
    rfl

/-- The entries of a list from place `c - 1` down to the first one. -/
theorem filterMap_range_getElem? {α : Type} {l : List α} {c : Nat} (h : c ≤ l.length) :
    (List.range c).filterMap (fun i => l[c - 1 - i]?) = (l.take c).reverse := by
  induction c with
  | zero => rfl
  | succ c ih =>
    have hget : l[c + 1 - 1 - 0]? = some l[c] := List.getElem?_eq_getElem h
    have hplace (i : Nat) : c + 1 - 1 - (i + 1) = c - 1 - i := by omega
    rw [List.range_succ_eq_map,
      List.filterMap_cons_some (f := fun i => l[c + 1 - 1 - i]?) hget, List.filterMap_map,
      List.take_succ_eq_append_getElem h, List.reverse_append, ← ih (Nat.le_of_succ_le h)]
    simp only [Function.comp_def, Nat.succ_eq_add_one, hplace]
    rfl

/-- The subsets of one size are listed in lexicographic order; if there are more than a word can
count, only the last ones. -/
theorem subsets_eq {α : Type} (k : Nat) (xs : List α) :
    subsets k xs = ((xs.sublistsLen k).take (choose xs.length k)).reverse := by
  have hle : choose xs.length k ≤ (xs.sublistsLen k).length := by
    rw [List.length_sublistsLen]
    exact choose_le _ _
  rw [← filterMap_range_getElem? hle]
  refine List.filterMap_congr fun h hh => ?_
  rw [toOption_unrank, if_pos (List.mem_range.mp hh)]

/-- All subsets are sublists of the size asked for. -/
theorem sublist_of_mem_subsets {α : Type} {k : Nat} {xs s : List α} (h : s ∈ subsets k xs) :
    s.Sublist xs ∧ s.length = k := by
  rw [subsets_eq, List.mem_reverse] at h
  exact List.mem_sublistsLen.mp (List.mem_of_mem_take h)

/-- If a word can count the subsets, all of them are listed. -/
theorem subsets_of_choose_le {α : Type} {k : Nat} {xs : List α}
    (h : xs.length.choose k ≤ maxCount) : subsets k xs = (xs.sublistsLen k).reverse := by
  rw [subsets_eq, choose_of_le h, ← List.length_sublistsLen, List.take_length]

/-! ## The order of subsets -/

/-- Sublists of an increasing list are in the reverse of the lexicographic order. -/
theorem pairwise_lex_sublistsLen {α : Type} {r : α → α → Prop} (k : Nat) {xs : List α}
    (h : xs.Pairwise r) : (xs.sublistsLen k).Pairwise fun s t => List.Lex r t s := by
  induction xs generalizing k with
  | nil => cases k <;> simp
  | cons x xs ih =>
    obtain ⟨hx, hxs⟩ := List.pairwise_cons.mp h
    cases k with
    | zero => simp
    | succ k =>
      rw [List.sublistsLen_succ_cons, List.pairwise_append, List.pairwise_map]
      refine ⟨ih (k + 1) hxs, (ih k hxs).imp fun hlex => .cons hlex, ?_⟩
      -- What begins with the least element comes before all that does not.
      intro s hs t ht
      obtain ⟨t, -, rfl⟩ := List.mem_map.mp ht
      obtain ⟨hsub, hlength⟩ := List.mem_sublistsLen.mp hs
      cases s with
      | nil => cases hlength
      | cons y s => exact .rel (hx y (hsub.subset List.mem_cons_self))

/-- Sublists are taken by their places. -/
theorem sublistsLen_map {α β : Type} (f : α → β) (k : Nat) (xs : List α) :
    (xs.map f).sublistsLen k = (xs.sublistsLen k).map (List.map f) := by
  induction xs generalizing k with
  | nil => cases k <;> rfl
  | cons x xs ih =>
    cases k with
    | zero => simp
    | succ k =>
      rw [List.map_cons, List.sublistsLen_succ_cons, List.sublistsLen_succ_cons, ih, ih,
        List.map_append, List.map_map, List.map_map]
      rfl

/-- Subsets are taken by their places. -/
theorem subsets_map {α β : Type} (f : α → β) (k : Nat) (xs : List α) :
    subsets k (xs.map f) = (subsets k xs).map (List.map f) := by
  rw [subsets_eq, subsets_eq, sublistsLen_map, List.length_map, ← List.map_take,
    List.map_reverse]

/-- The sets of places in a list of length `m`, from a least size on: small ones first, and those of
one size in lexicographic order. -/
def placeSets (least m : Nat) : List (List (Fin m)) :=
  (List.range' least (m + 1 - least)).flatMap fun k => ((List.finRange m).sublistsLen k).reverse

/-- Sets of places are written in increasing order. -/
theorem sublist_finRange_iff {m : Nat} {ps : List (Fin m)} :
    ps.Sublist (List.finRange m) ↔ ps.Pairwise (· < ·) := by
  constructor
  · intro h
    exact (List.pairwise_lt_finRange m).sublist h
  · intro h
    have hsub : ps.Subperm (List.finRange m) :=
      List.subperm_of_subset (h.imp ne_of_lt) fun p _ => List.mem_finRange p
    exact List.sublist_of_subperm_of_pairwise hsub h (List.pairwise_lt_finRange m)

/-- The sets of places are the increasing lists of the sizes asked for. -/
theorem mem_placeSets {least m : Nat} {ps : List (Fin m)} :
    ps ∈ placeSets least m ↔ ps.Pairwise (· < ·) ∧ least ≤ ps.length := by
  simp only [placeSets, List.mem_flatMap, List.mem_range'_1, List.mem_reverse,
    List.mem_sublistsLen, sublist_finRange_iff]
  constructor
  · rintro ⟨k, ⟨hleast, -⟩, hps, rfl⟩
    exact ⟨hps, hleast⟩
  · rintro ⟨hps, hleast⟩
    have hlength := (sublist_finRange_iff.mpr hps).length_le
    rw [List.length_finRange] at hlength
    exact ⟨ps.length, ⟨hleast, by omega⟩, hps, rfl⟩

/-- The sets of places come in the order of their sizes and, for one size, in lexicographic
order. -/
theorem pairwise_placeSets (least m : Nat) :
    (placeSets least m).Pairwise (List.Shortlex (· < ·)) := by
  have hsizes : (List.range' least (m + 1 - least)).Pairwise (· < ·) := List.pairwise_lt_range'
  refine List.pairwise_flatMap.mpr ⟨fun k _ => ?_, ?_⟩
  · refine List.pairwise_reverse.mpr ?_
    refine (pairwise_lex_sublistsLen k (List.pairwise_lt_finRange m)).imp_of_mem ?_
    intro s t hs ht hlex
    have hlength : t.length = s.length := by
      rw [(List.mem_sublistsLen.mp hs).2, (List.mem_sublistsLen.mp ht).2]
    exact .of_lex hlength hlex
  · refine hsizes.imp fun {k k'} hlt s hs t ht => .of_length_lt ?_
    rw [(List.mem_sublistsLen.mp (List.mem_reverse.mp hs)).2,
      (List.mem_sublistsLen.mp (List.mem_reverse.mp ht)).2]
    exact hlt

end SolverPortfolio.Combination
