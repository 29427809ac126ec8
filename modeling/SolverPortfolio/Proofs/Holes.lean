import Mathlib.Data.List.Count
import Mathlib.Tactic.Ring
import SolverPortfolio.Text.Basic

/-
# Texts with holes

A text is cut at marks, which leave holes behind. With the mark in its holes it is the text itself;
with another text in them it is what replacing the marks should give. It is what replacing does
give just if the text has no other marks than those, that is if the mark occurs as often as there
are holes, or if the marks are replaced by themselves. A mark begins with a character that does not
occur in it again, so that marks do not overlap.

Main definitions: `Text.occurrences`, `Text.HoledText`, `Text.fillHoles`.
Main statement: `Text.replaceAll_fillHoles_iff`.
-/

namespace SolverPortfolio.Text

variable {c : Char} {tail : List Char}

/-- How often a text begins in another one. -/
def occurrences (pat s : List Char) : Nat := s.tails.countP pat.isPrefixOf

/-- No mark occurs in an empty text. -/
@[simp] theorem occurrences_nil : occurrences (c :: tail) [] = 0 := rfl

/-- An occurrence is at the beginning or behind it. -/
theorem occurrences_cons (pat : List Char) (a : Char) (s : List Char) :
    occurrences pat (a :: s) = occurrences pat s + if pat <+: a :: s then 1 else 0 := by
  rw [occurrences, List.tails, List.countP_cons, occurrences]
  simp only [List.isPrefixOf_iff_prefix]

/-- A mark does not begin within a text without its first character. -/
theorem occurrences_append_of_notMem {x : List Char} (hx : c ∉ x) (s : List Char) :
    occurrences (c :: tail) (x ++ s) = occurrences (c :: tail) s := by
  induction x with
  | nil => rfl
  | cons a x ih =>
    rw [List.mem_cons, not_or] at hx
    have hstart : ¬ c :: tail <+: a :: (x ++ s) := fun h => hx.1 (List.cons_prefix_cons.mp h).1
    rw [List.cons_append, occurrences_cons, if_neg hstart, Nat.add_zero, ih hx.2]

/-- A mark in front is one more. -/
theorem occurrences_mark_append (hc : c ∉ tail) (s : List Char) :
    occurrences (c :: tail) (c :: tail ++ s) = occurrences (c :: tail) s + 1 := by
  have hstart : c :: tail <+: c :: (tail ++ s) := List.prefix_append (c :: tail) s
  rw [List.cons_append, occurrences_cons, occurrences_append_of_notMem hc, if_pos hstart]

/-! ## Replacing -/

/-- What is to be passed over is passed over. -/
theorem replaceFrom_append (pat new x s : List Char) :
    replaceFrom pat new x.length (x ++ s) = replaceAll pat new s := by
  induction x with
  | nil => rfl
  | cons a x ih => exact ih

/-- A mark in front is replaced. -/
theorem replaceAll_mark_append (new s : List Char) :
    replaceAll (c :: tail) new (c :: tail ++ s) = new ++ replaceAll (c :: tail) new s := by
  have hstrip := stripStart?_append (c :: tail) s
  rw [List.cons_append] at hstrip ⊢
  rw [replaceAll, replaceFrom, hstrip]
  simp only [List.length_cons, Nat.add_sub_cancel]
  rw [replaceFrom_append]

/-- A character that begins no mark is kept. -/
theorem replaceAll_cons {pat : List Char} {a : Char} {s : List Char} (h : ¬ pat <+: a :: s)
    (new : List Char) : replaceAll pat new (a :: s) = a :: replaceAll pat new s := by
  rw [replaceAll, replaceFrom, stripStart?_eq_none h, replaceAll]

/-- A text is empty, or begins with a mark, or with a character that begins no mark. -/
@[elab_as_elim]
theorem mark_induction (c : Char) (tail : List Char) {P : List Char → Prop} (nil : P [])
    (mark : ∀ s, P s → P (c :: tail ++ s))
    (char : ∀ a s, ¬ c :: tail <+: a :: s → P s → P (a :: s)) (s : List Char) : P s := by
  induction hn : s.length using Nat.strong_induction_on generalizing s with
  | _ n ih =>
    subst hn
    by_cases hmark : c :: tail <+: s
    · obtain ⟨rest, rfl⟩ := hmark
      refine mark rest (ih rest.length ?_ rest rfl)
      rw [List.length_append, List.length_cons]
      omega
    · cases s with
      | nil => exact nil
      | cons a s => exact char a s hmark (ih s.length (Nat.lt_succ_self _) s rfl)

/-- Every occurrence of a mark changes the length by as much. -/
theorem length_replaceAll (hc : c ∉ tail) (new s : List Char) :
    (replaceAll (c :: tail) new s).length + occurrences (c :: tail) s * (c :: tail).length =
      s.length + occurrences (c :: tail) s * new.length := by
  induction s using mark_induction c tail with
  | nil => rw [occurrences_nil, Nat.zero_mul, Nat.zero_mul]; rfl
  | mark s ih =>
    rw [replaceAll_mark_append, occurrences_mark_append hc, List.length_append,
      List.length_append, Nat.add_mul, Nat.add_mul]
    omega
  | char a s hmark ih =>
    rw [replaceAll_cons hmark, occurrences_cons, if_neg hmark, Nat.add_zero,
      List.length_cons (a := a), List.length_cons (a := a)]
    omega

/-- A mark replaced by itself leaves a text as it is. -/
theorem replaceAll_self (c : Char) (tail s : List Char) :
    replaceAll (c :: tail) (c :: tail) s = s := by
  induction s using mark_induction c tail with
  | nil => rfl
  | mark s ih => rw [replaceAll_mark_append, ih]
  | char a s hmark ih => rw [replaceAll_cons hmark, ih]

/-! ## Holes -/

/-- A text with holes. -/
abbrev HoledText := List (Option Char)

/-- Puts a text into all holes. -/
def fillHoles (new : List Char) (h : HoledText) : List Char :=
  h.flatMap fun
    | none => new
    | some a => [a]

/-- The number of holes. -/
def holes (h : HoledText) : Nat := h.countP Option.isNone

@[simp] theorem fillHoles_nil (new : List Char) : fillHoles new [] = [] := rfl

@[simp] theorem fillHoles_none (new : List Char) (h : HoledText) :
    fillHoles new (none :: h) = new ++ fillHoles new h := rfl

@[simp] theorem fillHoles_some (new : List Char) (a : Char) (h : HoledText) :
    fillHoles new (some a :: h) = a :: fillHoles new h := rfl

@[simp] theorem holes_nil : holes [] = 0 := rfl

@[simp] theorem holes_none (h : HoledText) : holes (none :: h) = holes h + 1 := by simp [holes]

@[simp] theorem holes_some (a : Char) (h : HoledText) : holes (some a :: h) = holes h := by
  simp [holes]

/-- Every hole changes the length by as much. -/
theorem length_fillHoles (pat new : List Char) (h : HoledText) :
    (fillHoles new h).length + holes h * pat.length =
      (fillHoles pat h).length + holes h * new.length := by
  induction h with
  | nil => rw [holes_nil, Nat.zero_mul, Nat.zero_mul]; rfl
  | cons piece h ih =>
    cases piece with
    | none =>
      simp only [fillHoles_none, holes_none, List.length_append, Nat.add_mul]
      omega
    | some a =>
      simp only [fillHoles_some, holes_some, List.length_cons]
      omega

/-- With marks in the holes, a text has no other marks. -/
def IsClean (pat : List Char) : HoledText → Prop
  | [] => True
  | none :: h => IsClean pat h
  | some a :: h => ¬ pat <+: a :: fillHoles pat h ∧ IsClean pat h

/-- There are at least as many marks as holes, and no more just if the text has no other ones. -/
theorem occurrences_fillHoles (hc : c ∉ tail) (h : HoledText) :
    holes h ≤ occurrences (c :: tail) (fillHoles (c :: tail) h) ∧
      (occurrences (c :: tail) (fillHoles (c :: tail) h) = holes h ↔ IsClean (c :: tail) h) := by
  induction h with
  | nil => exact ⟨le_rfl, iff_of_true rfl trivial⟩
  | cons piece h ih =>
    obtain ⟨hle, hiff⟩ := ih
    cases piece with
    | none =>
      rw [fillHoles_none, occurrences_mark_append hc, holes_none, IsClean, ← hiff]
      exact ⟨by omega, by omega⟩
    | some a =>
      rw [fillHoles_some, occurrences_cons, holes_some, IsClean, ← hiff]
      by_cases hmark : c :: tail <+: a :: fillHoles (c :: tail) h
      · rw [if_pos hmark]
        exact ⟨by omega, iff_of_false (by omega) fun hclean => hclean.1 hmark⟩
      · rw [if_neg hmark, Nat.add_zero]
        exact ⟨hle, ⟨fun heq => ⟨hmark, heq⟩, fun hclean => hclean.2⟩⟩

/-- Replacing fills the holes of a text without other marks. -/
theorem IsClean.replaceAll_fillHoles {h : HoledText} (hclean : IsClean (c :: tail) h)
    (new : List Char) :
    replaceAll (c :: tail) new (fillHoles (c :: tail) h) = fillHoles new h := by
  induction h with
  | nil => rfl
  | cons piece h ih =>
    cases piece with
    | none => rw [fillHoles_none, replaceAll_mark_append, ih hclean, fillHoles_none]
    | some a =>
      rw [fillHoles_some, replaceAll_cons hclean.1, ih hclean.2, fillHoles_some]

/-- A beginning without the first character of a mark lies in front of the first hole. -/
theorem exists_eq_of_prefix_fillHoles {x : List Char} (hx : c ∉ x) {h : HoledText}
    (hbegins : x <+: fillHoles (c :: tail) h) : ∃ rest, h = x.map some ++ rest := by
  induction x generalizing h with
  | nil => exact ⟨h, rfl⟩
  | cons a x ih =>
    rw [List.mem_cons, not_or] at hx
    cases h with
    | nil => exact absurd (List.prefix_nil.mp hbegins) (List.cons_ne_nil _ _)
    | cons piece h =>
      cases piece with
      | none => exact absurd (List.cons_prefix_cons.mp hbegins).1 (Ne.symm hx.1)
      | some b =>
        obtain ⟨rfl, htail⟩ := List.cons_prefix_cons.mp hbegins
        obtain ⟨rest, rfl⟩ := ih hx.2 htail
        exact ⟨rest, rfl⟩

/-- Characters are kept. -/
theorem fillHoles_map_some_append (new x : List Char) (h : HoledText) :
    fillHoles new (x.map some ++ h) = x ++ fillHoles new h := by
  induction x with
  | nil => rfl
  | cons a x ih => rw [List.map_cons, List.cons_append, fillHoles_some, ih, List.cons_append]

/-- Characters are no holes. -/
theorem holes_map_some_append (x : List Char) (h : HoledText) :
    holes (x.map some ++ h) = holes h := by
  induction x with
  | nil => rfl
  | cons a x ih => rw [List.map_cons, List.cons_append, holes_some, ih]

/-- A text as long as the mark that fills the holes just as replacing does is the mark itself,
unless there are no other marks. -/
theorem eq_or_isClean_of_length_eq (hc : c ∉ tail) {new : List Char}
    (hlength : new.length = (c :: tail).length) {h : HoledText}
    (heq : replaceAll (c :: tail) new (fillHoles (c :: tail) h) = fillHoles new h) :
    new = c :: tail ∨ IsClean (c :: tail) h := by
  induction h with
  | nil => exact .inr trivial
  | cons piece h ih =>
    cases piece with
    | none =>
      rw [fillHoles_none, replaceAll_mark_append, fillHoles_none] at heq
      exact ih (List.append_cancel_left heq)
    | some a =>
      rw [fillHoles_some, fillHoles_some] at heq
      by_cases hmark : c :: tail <+: a :: fillHoles (c :: tail) h
      · -- The mark consists of characters, which replacing changes and filling does not.
        obtain ⟨rfl, htail⟩ := List.cons_prefix_cons.mp hmark
        obtain ⟨rest, rfl⟩ := exists_eq_of_prefix_fillHoles hc htail
        rw [fillHoles_map_some_append, fillHoles_map_some_append, ← List.cons_append,
          replaceAll_mark_append, ← List.cons_append] at heq
        exact .inl (List.append_inj heq hlength).1
      · rw [replaceAll_cons hmark] at heq
        exact (ih (List.cons.inj heq).2).imp_right fun hclean => ⟨hmark, hclean⟩

/-- Replacing the marks of a text fills the holes just if they are replaced by themselves, or occur
as often as there are holes. -/
theorem replaceAll_fillHoles_iff (hc : c ∉ tail) (new : List Char) (h : HoledText) :
    replaceAll (c :: tail) new (fillHoles (c :: tail) h) = fillHoles new h ↔
      new = c :: tail ∨ occurrences (c :: tail) (fillHoles (c :: tail) h) = holes h := by
  obtain ⟨hle, hclean⟩ := occurrences_fillHoles hc h
  constructor
  · intro heq
    by_cases hlength : new.length = (c :: tail).length
    · exact (eq_or_isClean_of_length_eq hc hlength heq).imp_right hclean.mpr
    · -- The lengths count the marks that are replaced, and the holes that are filled.
      right
      have hreplaced := length_replaceAll hc new (fillHoles (c :: tail) h)
      have hfilled := length_fillHoles (c :: tail) new h
      obtain ⟨more, hmore⟩ := Nat.exists_eq_add_of_le hle
      rw [heq, hmore, Nat.add_mul, Nat.add_mul] at hreplaced
      have hnone : more * (c :: tail).length = more * new.length := by omega
      rcases Nat.eq_zero_or_pos more with rfl | hpos
      · exact hmore
      · exact absurd (Nat.eq_of_mul_eq_mul_left hpos hnone).symm hlength
  · rintro (rfl | hcount)
    · exact replaceAll_self c tail _
    · exact (hclean.mp hcount).replaceAll_fillHoles new

end SolverPortfolio.Text
