import Mathlib.Algebra.Order.Field.Basic
import Mathlib.Data.List.GetD
import Mathlib.Tactic.GCongr
import SolverPortfolio.Proofs.IndexTable
import SolverPortfolio.Proofs.UndefinedNumbers

/-
# Scaled vectors

A scaled vector has one component for each index whose bounds are known and differ, in the order of
indexes. The component is a function of the one raw component at that index. It is affine between
the bounds, and constant outside of them.

All this holds for rationals to which an undefined number is added. An undefined component of the
raw vector counts as the default; if then still an undefined number takes part, as the default or
as a bound, the scaled component is undefined. Every other one lies in the range.

Main definitions: `Limits.kept`, `Limits.component`, `Limits.Normalizes`.
Main statements: `Limits.scaleFrom_map_range'`, `Limits.component_number`, `Limits.normalizes`.
-/

namespace SolverPortfolio.Limits

/-! ## Which components are kept -/

section

variable {α : Type} [Quantity α] {i : ℕ} {b : Bounds α} {l : List (ℕ × Option (Bounds α))}

/-- The entries of a table whose bounds are known and differ. -/
def kept : List (ℕ × Option (Bounds α)) → List (ℕ × Bounds α)
  | [] => []
  | (_, none) :: rest => kept rest
  | (i, some b) :: rest => if b.1 == b.2 then kept rest else (i, b) :: kept rest

/-- An entry is kept if its bounds are known and differ. -/
theorem mem_kept_iff : (i, b) ∈ kept l ↔ (i, some b) ∈ l ∧ (b.1 == b.2) = false := by
  induction l with
  | nil => simp [kept]
  | cons e rest ih =>
    obtain ⟨j, _ | c⟩ := e
    · simpa [kept] using ih
    · unfold kept
      split
      · next heq =>
        rw [ih, List.mem_cons]
        refine and_congr_left fun hne => ⟨.inr, ?_⟩
        rintro (hsame | hmem)
        · cases hsame
          exact absurd heq (Bool.eq_false_iff.mp hne)
        · exact hmem
      · next hne =>
        rw [List.mem_cons, List.mem_cons, ih, or_and_right]
        refine or_congr ⟨?_, ?_⟩ Iff.rfl
        · intro hsame
          cases hsame
          exact ⟨rfl, Bool.eq_false_iff.mpr hne⟩
        · rintro ⟨hsame, -⟩
          cases hsame
          rfl

/-- The kept indexes increase. -/
theorem Increasing.kept (h : Increasing l) : (kept l).Pairwise fun e f => e.1 < f.1 := by
  induction l with
  | nil => exact List.Pairwise.nil
  | cons e rest ih =>
    obtain ⟨hfirst, hrest⟩ := List.pairwise_cons.mp h
    obtain ⟨j, _ | c⟩ := e
    · exact ih hrest
    · unfold Limits.kept
      split
      · exact ih hrest
      · exact List.pairwise_cons.mpr ⟨fun f hf => hfirst _ (mem_kept_iff.mp hf).1, ih hrest⟩

end

/-! ## One component for each of them -/

section

variable {α : Type} {i : ℕ} {l : List (ℕ × Option (Bounds α))}

/-- Behind the first index of a table the table goes on without it. -/
theorem lookup_cons_of_lt {e : ℕ × Option (Bounds α)} (h : e.1 < i) :
    (e :: l).lookup i = l.lookup i := by
  rw [List.lookup_cons, beq_false_of_ne (Nat.ne_of_gt h)]

/-- An index that is smaller than all of a table is not in it. -/
theorem lookup_eq_none_of_lt (h : ∀ e ∈ l, i < e.1) : l.lookup i = none :=
  List.lookup_eq_none_iff.mpr fun e he => bne_iff_ne.mpr (Nat.ne_of_lt (h e he))

/-- Scaling takes the kept entries one by one, each with the component at its own index. The table
`l` is what is left of the limits from the index `k` on. -/
theorem scaleFrom_map_range' [Quantity α] {limits : Limits α} (s : Scaling α)
    (value : ℕ → Option α) {k n : ℕ} (hl : Increasing l)
    (hlookup : ∀ i, k ≤ i → limits.bounds.lookup i = l.lookup i)
    (hrange : ∀ e ∈ l, k ≤ e.1 ∧ e.1 < k + n) :
    limits.scaleFrom s k ((List.range' k n).map value) =
      (kept l).map fun e => scale s e.2 (value e.1) := by
  induction n generalizing k l with
  | zero =>
    have hnil : l = [] := List.eq_nil_iff_forall_not_mem.mpr fun e he => by
      have hbetween := hrange e he
      omega
    subst hnil
    rfl
  | succ n ih =>
    rw [List.range'_succ, List.map_cons, scaleFrom, boundsAt?, hlookup k le_rfl]
    by_cases hk : ∃ b rest, l = (k, b) :: rest
    · obtain ⟨b, rest, rfl⟩ := hk
      obtain ⟨hfirst, hrest⟩ := List.pairwise_cons.mp hl
      have htail : limits.scaleFrom s (k + 1) ((List.range' (k + 1) n).map value) =
          (kept rest).map fun e => scale s e.2 (value e.1) := by
        refine ih hrest (fun i hi => ?_) fun e he => ?_
        · rw [hlookup i (by omega), lookup_cons_of_lt hi]
        · have hbetween := hrange e (List.mem_cons_of_mem _ he)
          have hlt : k < e.1 := hfirst e he
          omega
      rw [List.lookup_cons_self, htail]
      cases b with
      | none => rfl
      | some b => by_cases heq : (b.1 == b.2) = true <;> simp [kept, heq]
    · -- The index has no entry, so all entries are behind it.
      have hbehind : ∀ e ∈ l, k < e.1 := by
        intro e he
        cases l with
        | nil => cases he
        | cons f rest =>
          have hf : f.1 ≠ k := fun heq => hk ⟨f.2, rest, by rw [← heq]⟩
          have hkf : k ≤ f.1 := (hrange f List.mem_cons_self).1
          rcases List.mem_cons.mp he with rfl | hrest
          · omega
          · have hfe := (List.pairwise_cons.mp hl).1 e hrest
            omega
      rw [lookup_eq_none_of_lt hbehind]
      refine ih hl (fun i hi => hlookup i (by omega)) fun e he => ?_
      have hbetween := hrange e he
      have hlt := hbehind e he
      omega

/-- A vector that has a component for each index is scaled entry by entry. -/
theorem normalize_eq_ok [Quantity α] {limits : Limits α} (s : Scaling α)
    (h : Increasing limits.bounds) (hbelow : ∀ i ∈ limits.indexes, i + 1 < wordCount)
    {raw : List (Option α)} (hraw : ∀ i ∈ limits.indexes, i < raw.length) :
    limits.normalize s raw =
      .ok ((kept limits.bounds).map fun e => scale s e.2 (raw.getD e.1 none)) := by
  have hsize : limits.size ≤ raw.length := (isLeast_size h hbelow).2 hraw
  have hvalues : raw = (List.range' 0 raw.length).map fun i => raw.getD i none := by
    refine List.ext_getElem (by simp) fun i hi _ => ?_
    simp [hi]
  rw [normalize, if_neg (Nat.not_lt.mpr hsize)]
  conv_lhs => rw [hvalues]
  rw [scaleFrom_map_range' s _ h (fun _ _ => rfl) fun e he => ⟨e.1.zero_le, ?_⟩]
  rw [Nat.zero_add]
  exact hraw e.1 (List.mem_map_of_mem he)

end

/-! ## Exact components -/

open Exact

section

variable {low high least greatest p q : Rat} {default x y : Exact} {s : Scaling Exact}
  {b : Bounds Exact}

/-- What a component of a raw vector is scaled to. -/
def component (s : Scaling Exact) (b : Bounds Exact) (x : Exact) : Exact := scale s b x.known?

/-- The affine map that takes the bounds to the ends of the range. -/
def stretch (low high least greatest p : Rat) : Rat :=
  low + (high - low) * (p - least) / (greatest - least)

/-- It takes the least value to the lower end. -/
@[simp] theorem stretch_least : stretch low high least greatest least = low := by
  simp [stretch]

/-- It takes the greatest value to the upper end. -/
theorem stretch_greatest (h : least < greatest) :
    stretch low high least greatest greatest = high := by
  have hne : greatest - least ≠ 0 := (sub_pos.mpr h).ne'
  rw [stretch, mul_div_cancel_right₀ _ hne, add_sub_cancel]

/-- It keeps the order. -/
theorem stretch_mono (hle : low ≤ high) (hlt : least < greatest) :
    Monotone (stretch low high least greatest) := by
  intro p q hpq
  have hrange : 0 ≤ high - low := sub_nonneg.mpr hle
  have hwidth : 0 ≤ greatest - least := (sub_pos.mpr hlt).le
  unfold stretch
  gcongr

/-- A number is stretched and then moved into the range. -/
theorem component_number (hle : low ≤ high) (hne : least ≠ greatest)
    (hx : filled default x = number p) :
    component ⟨number low, number high, default⟩ (number least, number greatest) x =
      number (max low (min (stretch low high least greatest p) high)) := by
  have hwidth : greatest - least ≠ 0 := sub_ne_zero.mpr hne.symm
  show Quantity.clamp (number low) (number high) (number low + (number high - number low) *
    (filled default x - number least) / (number greatest - number least)) = _
  rw [hx, number_sub, number_sub, number_sub, number_mul, number_div _ hwidth, number_add,
    clamp_number, Quantity.clamp_rat hle]
  rfl

/-- The bounds are numbers, and so is the component or the default in its place. -/
def IsDefined (s : Scaling Exact) (b : Bounds Exact) (x : Exact) : Prop :=
  b.1.IsNumber ∧ b.2.IsNumber ∧ (filled s.default x).IsNumber

/-- If an undefined number takes part, the result is undefined. -/
theorem component_eq_undefined (h : ¬ IsDefined s b x) : component s b x = undefined := by
  have hscaled :
      ¬ (s.low + (s.high - s.low) * (filled s.default x - b.1) / (b.2 - b.1)).IsNumber := by
    intro hnumber
    obtain ⟨hproduct, hwidth⟩ := (isNumber_add.mp hnumber).2.of_div
    obtain ⟨hx, hleast⟩ := isNumber_sub.mp (isNumber_mul.mp hproduct).2
    exact h ⟨hleast, (isNumber_sub.mp hwidth).1, hx⟩
  show Quantity.clamp s.low s.high
    (s.low + (s.high - s.low) * (filled s.default x - b.1) / (b.2 - b.1)) = undefined
  rw [eq_undefined_iff.mpr hscaled, clamp_undefined]

/-- An undefined component counts as the default. -/
theorem component_filled : component s b (filled s.default x) = component s b x := by
  show Quantity.clamp s.low s.high (s.low + (s.high - s.low) *
    (filled s.default (filled s.default x) - b.1) / (b.2 - b.1)) = _
  rw [filled_filled]
  rfl

/-- A component that is defined is a number of the range. -/
theorem component_mem_range (hle : low ≤ high) (hne : least ≠ greatest)
    (hx : (filled default x).IsNumber) :
    number low ≤
        component ⟨number low, number high, default⟩ (number least, number greatest) x ∧
      component ⟨number low, number high, default⟩ (number least, number greatest) x ≤
        number high := by
  obtain ⟨p, hp⟩ := hx
  rw [component_number hle hne hp, number_le_number, number_le_number]
  exact ⟨le_max_left _ _, max_le hle (min_le_right _ _)⟩

/-- Between bounds in order a larger raw component is scaled to no smaller one. -/
theorem component_le_component (hle : low ≤ high) (hlt : least < greatest) (hpq : p ≤ q) :
    component ⟨number low, number high, default⟩ (number least, number greatest) (number p) ≤
      component ⟨number low, number high, default⟩ (number least, number greatest) (number q) := by
  rw [component_number hle hlt.ne rfl, component_number hle hlt.ne rfl, number_le_number]
  exact max_le_max le_rfl (min_le_min (stretch_mono hle hlt hpq) le_rfl)

/-- At the least value and below the component is the lower end. -/
theorem component_eq_low (hle : low ≤ high) (hlt : least < greatest)
    (hx : filled default x = number p) (hp : p ≤ least) :
    component ⟨number low, number high, default⟩ (number least, number greatest) x =
      number low := by
  have hstretch : stretch low high least greatest p ≤ low :=
    (stretch_mono hle hlt hp).trans_eq stretch_least
  rw [component_number hle hlt.ne hx, max_eq_left ((min_le_left _ _).trans hstretch)]

/-- At the greatest value and above the component is the upper end. -/
theorem component_eq_high (hle : low ≤ high) (hlt : least < greatest)
    (hx : filled default x = number p) (hp : greatest ≤ p) :
    component ⟨number low, number high, default⟩ (number least, number greatest) x =
      number high := by
  have hstretch : high ≤ stretch low high least greatest p :=
    (stretch_greatest hlt).symm.trans_le (stretch_mono hle hlt hp)
  rw [component_number hle hlt.ne hx, min_eq_right hstretch, max_eq_right hle]

/-- A component may be moved into its bounds before it is scaled. -/
theorem component_clamp (hle : low ≤ high) (hlt : least < greatest) :
    component ⟨number low, number high, default⟩ (number least, number greatest)
        (Quantity.clamp (number least) (number greatest) (filled default x)) =
      component ⟨number low, number high, default⟩ (number least, number greatest) x := by
  cases hx : filled default x with
  | undefined =>
    rw [clamp_undefined, ← hx]
    exact component_filled (s := ⟨number low, number high, default⟩)
  | number p =>
    rw [clamp_number, Quantity.clamp_rat hlt.le]
    by_cases hbelow : p ≤ least
    · rw [component_eq_low hle hlt hx hbelow, component_eq_low hle hlt rfl]
      exact max_le le_rfl ((min_le_left _ _).trans hbelow)
    · by_cases habove : greatest ≤ p
      · rw [component_eq_high hle hlt hx habove, component_eq_high hle hlt rfl]
        rw [min_eq_right habove]
        exact le_max_right _ _
      · rw [min_eq_left (not_le.mp habove).le, max_eq_right (not_le.mp hbelow).le,
          component_number hle hlt.ne rfl, component_number hle hlt.ne hx]

end

/-! ## Scaled vectors -/

section

variable {limits : Limits Exact} {s : Scaling Exact} {b : Bounds Exact}

/-- A range in order has numbers as its ends. -/
theorem exists_numbers_of_range (hs : s.low ≤ s.high) :
    ∃ low high default, low ≤ high ∧ s = ⟨number low, number high, default⟩ := by
  obtain ⟨low, high, hlow, hhigh, hle⟩ := exists_of_le hs
  refine ⟨low, high, s.default, hle, ?_⟩
  rw [← hlow, ← hhigh]

/-- Bounds in order are numbers. -/
theorem exists_numbers_of_bounds (hb : b.1 < b.2) :
    ∃ least greatest, least < greatest ∧ b = (number least, number greatest) := by
  obtain ⟨least, greatest, hleast, hgreatest, hlt⟩ := exists_of_lt hb
  exact ⟨least, greatest, hlt, Prod.ext hleast hgreatest⟩

/-- An entry is kept if its bounds are known and not one number twice. -/
theorem mem_kept_exact_iff {i : ℕ} :
    (i, b) ∈ kept limits.bounds ↔
      (i, some b) ∈ limits.bounds ∧ ∀ p, b ≠ (number p, number p) := by
  rw [mem_kept_iff, Bool.eq_false_iff]
  refine and_congr_right fun _ => not_iff_comm.mp ?_
  rw [not_forall]
  simp only [ne_eq, not_not]
  refine Iff.trans ?_ beq_iff.symm
  exact exists_congr fun p => Prod.ext_iff

/-- What limits do to every raw vector. -/
structure Normalizes (limits : Limits Exact) (s : Scaling Exact) : Prop where
  /-- Just the vectors are refused that are too short for some index. -/
  refused_iff : ∀ raw : List Exact, (∃ e, limits.normalize s (raw.map known?) = .error e) ↔
    ∃ i ∈ limits.indexes, raw.length ≤ i
  /-- Of any other vector each kept entry scales the component at its own index. -/
  components : ∀ raw : List Exact, (∀ i ∈ limits.indexes, i < raw.length) →
    limits.normalize s (raw.map known?) =
      .ok ((kept limits.bounds).map fun e => component s e.2 (raw.getD e.1 undefined))
  /-- The entries are kept in the order of indexes. -/
  ordered : (kept limits.bounds).Pairwise fun e f => e.1 < f.1
  /-- An entry is kept if its bounds are known and not one number twice. -/
  mem_kept : ∀ i b, (i, b) ∈ kept limits.bounds ↔
    (i, some b) ∈ limits.bounds ∧ ∀ p, b ≠ (number p, number p)
  /-- An undefined component counts as the default. -/
  unknown : ∀ b, component s b undefined = component s b s.default
  /-- What is defined lies in the range. -/
  within : ∀ e ∈ kept limits.bounds, ∀ x, IsDefined s e.2 x →
    s.low ≤ component s e.2 x ∧ component s e.2 x ≤ s.high
  /-- Everything else is undefined. -/
  elsewhere : ∀ b x, ¬ IsDefined s b x → component s b x = undefined
  /-- Between bounds in order scaling keeps the order. -/
  monotone : ∀ b, b.1 < b.2 → ∀ x y, x ≤ y → component s b x ≤ component s b y
  /-- At the least value and below it gives the lower end. -/
  eq_low : ∀ b, b.1 < b.2 → ∀ x, filled s.default x ≤ b.1 → component s b x = s.low
  /-- At the greatest value and above it gives the upper end. -/
  eq_high : ∀ b, b.1 < b.2 → ∀ x, b.2 ≤ filled s.default x → component s b x = s.high
  /-- If all kept bounds are in order, vectors count as they are after moving each component into
  its bounds. -/
  clamped : (∀ e ∈ kept limits.bounds, e.2.1 < e.2.2) → ∀ raw raw' : List Exact,
    raw.length = raw'.length →
    (∀ e ∈ kept limits.bounds,
      Quantity.clamp e.2.1 e.2.2 (filled s.default (raw.getD e.1 undefined)) =
        Quantity.clamp e.2.1 e.2.2 (filled s.default (raw'.getD e.1 undefined))) →
    limits.normalize s (raw.map known?) = limits.normalize s (raw'.map known?)

/-- A vector of exact numbers is scaled component by component. -/
theorem normalize_known (h : Increasing limits.bounds)
    (hbelow : ∀ i ∈ limits.indexes, i + 1 < wordCount) {raw : List Exact}
    (hraw : ∀ i ∈ limits.indexes, i < raw.length) :
    limits.normalize s (raw.map known?) =
      .ok ((kept limits.bounds).map fun e => component s e.2 (raw.getD e.1 undefined)) := by
  have hlength (i : ℕ) (hi : i ∈ limits.indexes) : i < (raw.map known?).length := by
    rw [List.length_map]
    exact hraw i hi
  rw [normalize_eq_ok s h hbelow hlength]
  refine congrArg Except.ok (List.map_congr_left fun e _ => ?_)
  exact congrArg (scale s e.2) (List.getD_map raw undefined known?)

/-- Vectors of one length count as they are after moving each component into its bounds. -/
theorem normalize_congr_clamped (h : Increasing limits.bounds)
    (hbelow : ∀ i ∈ limits.indexes, i + 1 < wordCount) (hs : s.low ≤ s.high)
    (hbounds : ∀ e ∈ kept limits.bounds, e.2.1 < e.2.2) {raw raw' : List Exact}
    (hlength : raw.length = raw'.length)
    (hsame : ∀ e ∈ kept limits.bounds,
      Quantity.clamp e.2.1 e.2.2 (filled s.default (raw.getD e.1 undefined)) =
        Quantity.clamp e.2.1 e.2.2 (filled s.default (raw'.getD e.1 undefined))) :
    limits.normalize s (raw.map known?) = limits.normalize s (raw'.map known?) := by
  by_cases hraw : ∀ i ∈ limits.indexes, i < raw.length
  · rw [normalize_known h hbelow hraw, normalize_known h hbelow (hlength ▸ hraw)]
    refine congrArg Except.ok (List.map_congr_left fun e he => ?_)
    obtain ⟨low, high, default, hle, rfl⟩ := exists_numbers_of_range hs
    obtain ⟨least, greatest, hlt, hb⟩ := exists_numbers_of_bounds (hbounds e he)
    have hclamp := hsame e he
    rw [hb] at hclamp ⊢
    rw [← component_clamp hle hlt, hclamp, component_clamp hle hlt]
  · -- Both are too short, and by the same number of components.
    push Not at hraw
    have hsize : raw.length < limits.size := (lt_size_iff (isLeast_size h hbelow)).mpr hraw
    rw [normalize, normalize, List.length_map, List.length_map, ← hlength, if_pos hsize,
      if_pos hsize]

/-- Limits scale every vector component by component, as long as no index is the last number of a
word and the ends of the range are in order. The tables of all limits that are made of a list or
read from a text increase (`increasing_ofList`, `increasing_ofDictionary`). -/
theorem normalizes (h : Increasing limits.bounds)
    (hbelow : ∀ i ∈ limits.indexes, i + 1 < wordCount) (hs : s.low ≤ s.high) :
    limits.Normalizes s := by
  obtain ⟨low, high, default, hle, rfl⟩ := exists_numbers_of_range hs
  refine
    { refused_iff := fun raw => ?refused
      components := fun raw hraw => normalize_known h hbelow hraw
      ordered := h.kept
      mem_kept := fun i b => mem_kept_exact_iff
      unknown := fun b => component_filled (x := undefined) |>.symm
      within := fun e he x hx => ?within
      elsewhere := fun b x hx => component_eq_undefined hx
      monotone := fun b hb x y hxy => ?monotone
      eq_low := fun b hb x hx => ?eqLow
      eq_high := fun b hb x hx => ?eqHigh
      clamped := fun hbounds raw raw' => normalize_congr_clamped h hbelow hs hbounds }
  case refused => rw [exists_normalize_error_iff (isLeast_size h hbelow), List.length_map]
  case within =>
    obtain ⟨⟨least, hleast⟩, ⟨greatest, hgreatest⟩, hnumber⟩ := hx
    have hb : e.2 = (number least, number greatest) := Prod.ext hleast hgreatest
    have hne : least ≠ greatest := by
      rintro rfl
      exact (mem_kept_exact_iff.mp he).2 least hb
    rw [hb]
    exact component_mem_range hle hne hnumber
  case monotone =>
    obtain ⟨least, greatest, hlt, rfl⟩ := exists_numbers_of_bounds hb
    obtain ⟨p, q, rfl, rfl, hpq⟩ := exists_of_le hxy
    exact component_le_component hle hlt hpq
  case eqLow =>
    obtain ⟨least, greatest, hlt, rfl⟩ := exists_numbers_of_bounds hb
    obtain ⟨p, q, hp, hq, hpq⟩ := exists_of_le hx
    cases hq
    exact component_eq_low hle hlt hp hpq
  case eqHigh =>
    obtain ⟨least, greatest, hlt, rfl⟩ := exists_numbers_of_bounds hb
    obtain ⟨q, p, hq, hp, hqp⟩ := exists_of_le hx
    cases hq
    exact component_eq_high hle hlt hp hqp

/-- Limits with a gap, with equal bounds at one index and without bounds at another. -/
def gappedLimits : Limits Exact :=
  ⟨[(0, some (number 0, number 10)), (2, some (number 3, number 3)), (3, none),
    (4, some (number 0, number 4))]⟩

/-- Of five components the first and the last are scaled; the last is unknown. -/
theorem gappedLimits_normalizes :
    Increasing gappedLimits.bounds ∧ (∀ i ∈ gappedLimits.indexes, i + 1 < wordCount) ∧
    (Scaling.standard : Scaling Exact).low ≤ (Scaling.standard : Scaling Exact).high ∧
    gappedLimits.Normalizes Scaling.standard ∧
    gappedLimits.normalize Scaling.standard
        ([number 5, number 7, number 3, number 8, undefined].map known?) =
      .ok [number 0, number (-1)] := by
  have hincreasing : Increasing gappedLimits.bounds := by
    simp [Increasing, gappedLimits]
  have hbelow : ∀ i ∈ gappedLimits.indexes, i + 1 < wordCount := by decide
  have hrange : (Scaling.standard : Scaling Exact).low ≤ (Scaling.standard : Scaling Exact).high :=
    by decide +kernel
  have hnormalizes := normalizes hincreasing hbelow hrange
  refine ⟨hincreasing, hbelow, hrange, hnormalizes, ?_⟩
  rw [hnormalizes.components _ (by decide)]
  decide +kernel

/-- A bound that is undefined scales the component to no number of the range, not even if the range
has one number only. -/
theorem undefined_bound_undefined :
    ∃ (limits : Limits Exact) (s : Scaling Exact) (raw : List Exact),
      Increasing limits.bounds ∧ (∀ i ∈ limits.indexes, i + 1 < wordCount) ∧ s.low ≤ s.high ∧
      limits.normalize s (raw.map known?) = .ok [undefined] ∧
      ¬ (s.low ≤ undefined ∧ undefined ≤ s.high) := by
  refine ⟨⟨[(0, some (undefined, number 1))]⟩, ⟨number 1, number 1, number 0⟩, [number 0],
    List.pairwise_singleton _ _, ?below, ?ends, ?scaled, ?range⟩
  case below => decide
  case ends => decide +kernel
  case scaled => decide +kernel
  case range => decide +kernel

end

end SolverPortfolio.Limits
