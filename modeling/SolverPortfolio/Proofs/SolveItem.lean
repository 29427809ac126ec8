import Mathlib.Data.List.Basic
import SolverPortfolio.Proofs.Splicing

/-
# The solve item of a model

A model is a sequence of items that end in semicolons, and the last one says what to optimize. A
string literal in an item may have semicolons in it, too. The solve item is looked for behind the
last semicolon of the text, whether an item ends there or a literal has it: so it is found exactly
if no literal in its annotations has a semicolon. If one has, what follows there is taken for the
last item. It mostly does not say what to solve, and no constraint is put in; where it does, the
constraint is put into the literal.

Main definitions: `FlatZinc.Lexeme`, `FlatZinc.SolveItem`, `FlatZinc.Model`.
Main statements: `FlatZinc.exists_last_literal`, `FlatZinc.Model.splitSolve_of_isSolve`,
`FlatZinc.Model.solve_item_found_iff`, `FlatZinc.solve_item_hidden`.
-/

namespace SolverPortfolio

namespace FlatZinc

/-! ## Items -/

/-- A character that neither ends an item nor begins a string literal. -/
def isOrdinary (c : Char) : Bool := c ≠ ';' && c ≠ '"'

/-- A piece of an item: an ordinary character, or a string literal. -/
inductive Lexeme where
  | character (c : Char) (h : isOrdinary c = true)
  | literal (content : List Char) (h : '"' ∉ content ∧ '\n' ∉ content)

/-- The text of a piece of an item. -/
def Lexeme.text : Lexeme → List Char
  | character c _ => [c]
  | literal content _ => '"' :: (content ++ ['"'])

/-- The text of a sequence of pieces. -/
def spelled (lexemes : List Lexeme) : List Char := lexemes.flatMap Lexeme.text

/-- A text without semicolons and quotes, character by character. -/
def characters (s : List Char) (h : s.all isOrdinary = true) : List Lexeme :=
  s.pmap Lexeme.character (List.all_eq_true.mp h)

/-- The word that says in which direction to optimize. -/
def keyword : Goal → List Char
  | .satisfy => "satisfy".toList
  | .minimize => "minimize".toList
  | .maximize => "maximize".toList

/-- The solve item of an optimization problem. -/
structure SolveItem where
  indent : List Char
  annotations : List Lexeme
  goal : Goal
  space : List Char
  objective : List Char
  trail : List Char
  indent_blank : ∀ c ∈ indent, Text.isBlank c = true
  goal_optimizes : goal.isOptimization = true
  space_blank : ∀ c ∈ space, Text.isBlank c = true
  space_ne_nil : space ≠ []
  objective_word : ∀ c ∈ objective, Text.isBlank c = false ∧ c ≠ ';'
  objective_ne_nil : objective ≠ []
  objective_ne_satisfy : objective ≠ "satisfy".toList
  trail_blank : ∀ c ∈ trail, Text.isBlank c = true

namespace SolveItem

/-- What stands before the objective. -/
def start (item : SolveItem) : List Char :=
  item.indent ++ "solve".toList ++ spelled item.annotations ++ keyword item.goal

/-- The objective, with white space around. -/
def stop (item : SolveItem) : List Char := item.space ++ item.objective ++ item.trail

/-- The text of the item, without the semicolon at its end. -/
def text (item : SolveItem) : List Char := item.start ++ item.stop

/-- The text up to the last semicolon in a literal, which is empty if there is none. -/
def opening (item : SolveItem) : List Char := (Text.cutAfterLast ';' item.text).1

/-- The text behind the last semicolon in a literal. -/
def ending (item : SolveItem) : List Char := (Text.cutAfterLast ';' item.text).2

end SolveItem

/-- A model of an optimization problem. -/
structure Model where
  items : List (List Lexeme)
  solve : SolveItem
  trail : List Char
  trail_blank : ∀ c ∈ trail, Text.isBlank c = true

namespace Model

/-- The items before the solve item. -/
def head (model : Model) : List Char := model.items.flatMap (spelled · ++ [';'])

/-- The text of a model. -/
def text (model : Model) : List Char :=
  model.head ++ model.solve.text ++ [';'] ++ model.trail

end Model

/-! ## Semicolons in literals -/

/-- Behind the last semicolon of a sequence of pieces there is the rest of a literal. -/
theorem exists_last_literal {lexemes : List Lexeme} (h : ';' ∈ spelled lexemes) :
    ∃ before inner after, spelled lexemes = before ++ [';'] ++ (inner ++ ['"'] ++ after) ∧
      ';' ∉ inner ∧ '\n' ∉ inner ∧ ';' ∉ after := by
  induction lexemes with
  | nil => cases h
  | cons lexeme lexemes ih =>
    rw [spelled, List.flatMap_cons, ← spelled] at h ⊢
    by_cases hrest : ';' ∈ spelled lexemes
    · obtain ⟨before, inner, after, heq, hinner⟩ := ih hrest
      refine ⟨lexeme.text ++ before, inner, after, ?_, hinner⟩
      rw [heq]
      simp only [List.append_assoc]
    · have hfirst := (List.mem_append.mp h).resolve_right hrest
      cases lexeme with
      | character c hc =>
        rw [Lexeme.text, List.mem_singleton] at hfirst
        exact absurd (hfirst ▸ hc) (by decide)
      | literal content hcontent =>
        have hmem : ';' ∈ content := by
          simpa [Lexeme.text] using hfirst
        obtain ⟨front, inner, rfl, hinner⟩ := Text.exists_last_of_mem hmem
        refine ⟨'"' :: front, inner, spelled lexemes, ?_, hinner,
          fun hbreak => hcontent.2 (List.mem_append_right _ hbreak), hrest⟩
        simp [Lexeme.text]

/-- The word that says in which direction to optimize has no semicolon in it. -/
theorem not_mem_keyword (goal : Goal) : ';' ∉ keyword goal := by
  cases goal <;> decide

/-- A beginning without a character ends before that character. -/
theorem isPrefix_of_not_mem {c : Char} {s inner after : List Char}
    (h : s <+: inner ++ [c] ++ after) (hs : c ∉ s) : s <+: inner := by
  rcases List.prefix_or_prefix_of_prefix h (List.prefix_append (inner ++ [c]) after)
    with hshort | hlong
  · rcases List.prefix_concat_iff.mp hshort with heq | hshort
    · exact absurd (heq ▸ List.mem_append_right inner (List.mem_singleton_self c)) hs
    · exact hshort
  · exact absurd (hlong.subset (List.mem_append_right inner (List.mem_singleton_self c))) hs

/-- A blank is no semicolon. -/
theorem not_mem_of_blank {s : List Char} (h : ∀ c ∈ s, Text.isBlank c = true) : ';' ∉ s := by
  intro hmem
  exact absurd (h ';' hmem) (by decide)

namespace SolveItem

variable (item : SolveItem)

/-- The objective stands behind the last semicolon. -/
theorem not_mem_stop : ';' ∉ item.stop := by
  rw [stop, List.mem_append, List.mem_append, not_or, not_or]
  exact ⟨⟨not_mem_of_blank item.space_blank, fun h => (item.objective_word _ h).2 rfl⟩,
    not_mem_of_blank item.trail_blank⟩

/-- Semicolons before the objective are in literals of the annotations. -/
theorem mem_start_iff : ';' ∈ item.start ↔ ';' ∈ spelled item.annotations := by
  have hindent := not_mem_of_blank item.indent_blank
  have hsolve : ';' ∉ "solve".toList := by decide
  have hkeyword := not_mem_keyword item.goal
  rw [start, List.mem_append, List.mem_append, List.mem_append]
  constructor
  · rintro (((h | h) | h) | h)
    · exact absurd h hindent
    · exact absurd h hsolve
    · exact h
    · exact absurd h hkeyword
  · intro h
    exact .inl (.inr h)

/-- The item is cut behind its last semicolon. -/
theorem cutAfterLast_text : Text.cutAfterLast ';' item.text = (item.opening, item.ending) := rfl

/-- What follows the last semicolon ends in the objective. -/
theorem exists_ending_eq : ∃ before, item.ending = before ++ item.stop := by
  refine ⟨(Text.cutAfterLast ';' item.start).2, ?_⟩
  rw [ending, text, Text.cutAfterLast_append_of_not_mem item.not_mem_stop]

/-- The objective is the last word of what follows the last semicolon. -/
theorem lastWord_ending : lastWord (Text.trim item.ending) = item.objective := by
  obtain ⟨before, hending⟩ := item.exists_ending_eq
  have hspace := List.dropLast_concat_getLast item.space_ne_nil
  have hblank := item.space_blank _ (List.getLast_mem item.space_ne_nil)
  have hlast := Text.getLast?_words (s := before ++ item.space.dropLast) hblank
    item.objective_ne_nil fun c hc => (item.objective_word c hc).1
  rw [lastWord, Text.words_trim, hending, stop, ← List.append_assoc,
    Text.words_append_blank item.trail_blank, ← hspace]
  rw [List.append_assoc, List.singleton_append, ← List.append_assoc, hlast]
  rfl

/-- The item says what to solve. -/
theorem isSolve_text : IsSolve item.text := by
  have htext : item.text = item.indent ++ ("solve".toList ++
      (spelled item.annotations ++ keyword item.goal ++ item.stop)) := by
    simp only [text, start, List.append_assoc]
  rw [isSolve_iff, htext, Text.trimStart, Text.dropStart,
    List.dropWhile_append_of_pos item.indent_blank]
  exact List.prefix_append _ _

/-- Without semicolons in literals the item is not cut. -/
theorem cutAfterLast_of_not_mem (h : ';' ∉ spelled item.annotations) :
    item.opening = [] ∧ item.ending = item.text := by
  have hfree : ';' ∉ item.text := by
    rw [text, List.mem_append, not_or]
    exact ⟨fun hmem => h (item.mem_start_iff.mp hmem), item.not_mem_stop⟩
  have hcut : Text.cutAfterLast ';' ([] ++ item.text) = ([], item.text) :=
    Text.cutAfterLast_append hfree fun c hc => by cases hc
  rw [List.nil_append, item.cutAfterLast_text, Prod.mk.injEq] at hcut
  exact hcut

/-- With a semicolon in a literal the item is cut in a literal. -/
theorem cutAfterLast_of_mem (h : ';' ∈ spelled item.annotations) :
    ∃ before inner after, item.opening = item.indent ++ ("solve".toList ++ before ++ [';']) ∧
      item.ending = inner ++ ['"'] ++ after ∧ '\n' ∉ inner := by
  obtain ⟨before, inner, after, hspelled, hinner, hbreak, hafter⟩ := exists_last_literal h
  have htext : item.text = (item.indent ++ ("solve".toList ++ before ++ [';'])) ++
      (inner ++ ['"'] ++ (after ++ keyword item.goal ++ item.stop)) := by
    rw [text, start, hspelled]
    simp only [List.append_assoc]
  have hfree : ';' ∉ inner ++ ['"'] ++ (after ++ keyword item.goal ++ item.stop) := by
    simp only [List.mem_append, List.mem_singleton, not_or]
    exact ⟨⟨hinner, by decide⟩, ⟨hafter, not_mem_keyword item.goal⟩, item.not_mem_stop⟩
  have hcut : Text.cutAfterLast ';' item.text =
      (item.indent ++ ("solve".toList ++ before ++ [';']),
        inner ++ ['"'] ++ (after ++ keyword item.goal ++ item.stop)) := by
    rw [htext]
    refine Text.cutAfterLast_append hfree fun c hc => ?_
    rw [← List.append_assoc, List.getLast?_concat, Option.mem_some_iff] at hc
    exact hc.symm
  rw [item.cutAfterLast_text, Prod.mk.injEq] at hcut
  exact ⟨before, inner, _, hcut.1, hcut.2, hbreak⟩

/-- Between the semicolon in a literal and what follows in the item there is no line break. -/
theorem exists_trim_text (h : ';' ∈ spelled item.annotations) (hsolve : IsSolve item.ending) :
    ∃ before blank, Text.trim item.text = before ++ [';'] ++ blank ++ Text.trim item.ending ∧
      '\n' ∉ blank := by
  obtain ⟨before, inner, after, hopening, hending, hbreak⟩ := item.cutAfterLast_of_mem h
  obtain ⟨blank, trail, htrim, hblank, htrail⟩ := Text.exists_eq_append_trim item.ending
  refine ⟨"solve".toList ++ before, blank, ?_, ?_⟩
  · have htext := (Text.cutAfterLast_eq_iff.mp item.cutAfterLast_text).1
    have hlast : ∀ c ∈ ("solve".toList ++ before ++ [';'] ++ blank ++
        Text.trim item.ending).getLast?, Text.isBlank c = false := by
      intro c hc
      rw [List.getLast?_append_of_ne_nil _ hsolve.trim_ne_nil] at hc
      exact Text.isBlank_of_mem_getLast?_trim hc
    have hhead : ∀ c ∈ ("solve".toList ++ before ++ [';'] ++ blank ++
        Text.trim item.ending).head?, Text.isBlank c = false := by
      intro c hc
      exact Option.mem_some_iff.mp hc ▸ by decide
    have hwhole : item.text = item.indent ++ ("solve".toList ++ before ++ [';'] ++ blank ++
        Text.trim item.ending) ++ trail := by
      rw [htext, hopening]
      conv_lhs => rw [htrim]
      simp only [List.append_assoc]
    rw [hwhole, Text.trim_append_append item.indent_blank htrail (by simp) hhead hlast]
  · -- White space ends before the quote that ends the literal.
    have hquote : '"' ∉ blank := fun hmem => absurd (hblank _ hmem) (by decide)
    have hprefix : blank <+: item.ending := by
      rw [htrim, List.append_assoc]
      exact List.prefix_append _ _
    have hinner : blank <+: inner := isPrefix_of_not_mem (hending ▸ hprefix) hquote
    exact fun hmem => hbreak (hinner.subset hmem)

end SolveItem

/-! ## Where a model is split -/

namespace Model

variable (model : Model)

/-- The items before the solve item end in a semicolon. -/
theorem eq_of_mem_getLast?_head {c : Char} (h : c ∈ model.head.getLast?) : c = ';' := by
  rw [head] at h
  cases hitems : model.items using List.reverseRecOn with
  | nil =>
    rw [hitems] at h
    cases h
  | append_singleton items item =>
    rw [hitems, List.flatMap_append, List.flatMap_singleton, ← List.append_assoc,
      List.getLast?_concat, Option.mem_some_iff] at h
    exact h.symm

/-- What is left without the semicolon at the end. -/
theorem dropSemicolon_trimEnd_text :
    dropSemicolon (Text.trimEnd model.text) =
      model.head ++ model.solve.opening ++ model.solve.ending := by
  have hsemicolon : Text.isBlank ';' = false := by decide
  have hcut := (Text.cutAfterLast_eq_iff.mp model.solve.cutAfterLast_text).1
  rw [text, Text.trimEnd, Text.dropEnd_append model.trail_blank, Text.dropEnd_append_singleton,
    if_neg (Bool.eq_false_iff.mp hsemicolon), dropSemicolon_concat, List.append_assoc, ← hcut]

/-- The last semicolon of a model is the end of an item or in the solve item. -/
theorem eq_of_mem_getLast?_opening {c : Char}
    (h : c ∈ (model.head ++ model.solve.opening).getLast?) : c = ';' := by
  rw [List.getLast?_append, Option.mem_def, Option.or_eq_some_iff] at h
  rcases h with h | ⟨-, h⟩
  · exact (Text.cutAfterLast_eq_iff.mp model.solve.cutAfterLast_text).2.2 c h
  · exact model.eq_of_mem_getLast?_head h

/-- A model is split behind the last semicolon if what follows there says what to solve. -/
theorem splitSolve_of_isSolve (h : IsSolve model.solve.ending) :
    splitSolve model.text = .ok (model.head ++ model.solve.opening, model.solve.ending) :=
  splitSolve_eq_ok_iff.mpr ⟨model.dropSemicolon_trimEnd_text,
    (Text.cutAfterLast_eq_iff.mp model.solve.cutAfterLast_text).2.1,
    fun _ hc => model.eq_of_mem_getLast?_opening hc, h⟩

/-- Else what follows there is taken for a last item that does not say what to solve. -/
theorem splitSolve_of_not_isSolve (h : ¬ IsSolve model.solve.ending) :
    splitSolve model.text =
      .error (.lastNotSolve (String.ofList (Text.trim model.solve.ending))) := by
  refine FlatZinc.splitSolve_of_not_isSolve model.dropSemicolon_trimEnd_text
    (Text.cutAfterLast_eq_iff.mp model.solve.cutAfterLast_text).2.1
    (fun _ hc => model.eq_of_mem_getLast?_opening hc) ?_ h
  obtain ⟨before, hending⟩ := model.solve.exists_ending_eq
  obtain ⟨c, hc⟩ := List.exists_mem_of_ne_nil _ model.solve.objective_ne_nil
  refine ⟨c, ?_, (model.solve.objective_word c hc).1⟩
  rw [hending, SolveItem.stop]
  simp [hc]

/-- If the item is cut in a literal, the constraint does not end up before the item. -/
theorem spliced_ne (h : ';' ∈ spelled model.solve.annotations) (hsolve : IsSolve model.solve.ending)
    (constraint : List Char) :
    spliced (model.head ++ model.solve.opening) [constraint] model.solve.ending ≠
      spliced model.head [constraint] model.solve.text := by
  obtain ⟨before, blank, htrim, hbreak⟩ := model.solve.exists_trim_text h hsolve
  intro heq
  rw [spliced, spliced, htrim, List.append_cancel_right_eq, ← List.append_assoc,
    List.append_cancel_right_eq] at heq
  -- What stands before the rest of the item ends in a line break on one side only.
  have hends : (before ++ [';'] ++ blank).getLast? = some '\n' := by
    rw [← List.getLast?_append_of_ne_nil _ (by simp), ← heq, List.flatMap_singleton,
      ← List.append_assoc]
    exact List.getLast?_append_of_ne_nil _ (List.cons_ne_nil ';' ['\n'])
  rw [List.append_assoc, List.getLast?_append_of_ne_nil _ (by simp)] at hends
  rcases List.mem_append.mp (List.mem_of_getLast? hends) with hmem | hmem
  · exact absurd hmem (by decide)
  · exact hbreak hmem

/-- A solve item is found, and a constraint ends up before it, exactly if no literal in its
annotations has a semicolon in it. Whatever follows the last semicolon is split off. -/
theorem solve_item_found_iff (constraint : List Char) :
    ((objectiveVariable model.text = .ok model.solve.objective ∧
        insertConstraint model.text constraint =
          .ok (spliced model.head [constraint] model.solve.text)) ↔
      ';' ∉ spelled model.solve.annotations) ∧
    (IsSolve model.solve.ending →
      objectiveVariable model.text = .ok model.solve.objective ∧
      insertConstraint model.text constraint =
        .ok (spliced (model.head ++ model.solve.opening) [constraint] model.solve.ending)) ∧
    (¬ IsSolve model.solve.ending →
      objectiveVariable model.text =
        .error (.lastNotSolve (String.ofList (Text.trim model.solve.ending))) ∧
      insertConstraint model.text constraint =
        .error (.lastNotSolve (String.ofList (Text.trim model.solve.ending)))) := by
  have hfound : IsSolve model.solve.ending →
      objectiveVariable model.text = .ok model.solve.objective ∧
      insertConstraint model.text constraint =
        .ok (spliced (model.head ++ model.solve.opening) [constraint] model.solve.ending) := by
    intro h
    have hsplit := model.splitSolve_of_isSolve h
    refine ⟨?_, insertConstraint_of_splitSolve hsplit constraint⟩
    rw [objectiveVariable_of_splitSolve hsplit, model.solve.lastWord_ending]
    exact if_neg model.solve.objective_ne_satisfy
  have hlost : ¬ IsSolve model.solve.ending →
      objectiveVariable model.text =
        .error (.lastNotSolve (String.ofList (Text.trim model.solve.ending))) ∧
      insertConstraint model.text constraint =
        .error (.lastNotSolve (String.ofList (Text.trim model.solve.ending))) := by
    intro h
    rw [objectiveVariable, insertConstraint, model.splitSolve_of_not_isSolve h]
    exact ⟨rfl, rfl⟩
  refine ⟨?_, hfound, hlost⟩
  constructor
  · rintro ⟨hobjective, hinsert⟩ hmem
    by_cases hsolve : IsSolve model.solve.ending
    · rw [(hfound hsolve).2, Except.ok.injEq] at hinsert
      exact model.spliced_ne hmem hsolve constraint hinsert
    · rw [(hlost hsolve).1] at hobjective
      cases hobjective
  · intro h
    obtain ⟨hopening, hending⟩ := model.solve.cutAfterLast_of_not_mem h
    have hsolve : IsSolve model.solve.ending := hending ▸ model.solve.isSolve_text
    have := hfound hsolve
    rwa [hopening, hending, List.append_nil] at this

end Model

/-! ## A semicolon in a literal -/

/-- A solve item with a semicolon in its annotation. -/
def pathItem : SolveItem where
  indent := ['\n']
  annotations := characters " :: mzn_path(".toList rfl ++
    [.literal "a;b".toList (by decide)] ++ characters ") ".toList rfl
  goal := .minimize
  space := [' ']
  objective := ['x']
  trail := []
  indent_blank := List.forall_mem_singleton.mpr rfl
  goal_optimizes := rfl
  space_blank := List.forall_mem_singleton.mpr rfl
  space_ne_nil := by decide
  objective_word := List.forall_mem_singleton.mpr (by decide)
  objective_ne_nil := by decide
  objective_ne_satisfy := by decide
  trail_blank := Text.isBlank_of_mem_nil

/-- A model with that item. -/
def pathModel : Model where
  items := [characters "var 1..9: x".toList rfl]
  solve := pathItem
  trail := ['\n']
  trail_blank := List.forall_mem_singleton.mpr rfl

/-- Its objective is not found, as what follows the semicolon does not say what to solve. -/
theorem solve_item_hidden :
    pathModel.text = "var 1..9: x;\nsolve :: mzn_path(\"a;b\") minimize x;\n".toList ∧
      pathModel.solve.objective = "x".toList ∧
      objectiveVariable pathModel.text = .error (.lastNotSolve "b\") minimize x") := by
  refine ⟨by decide +kernel, rfl, by decide +kernel⟩

end FlatZinc

end SolverPortfolio
