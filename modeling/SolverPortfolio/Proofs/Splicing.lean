import Mathlib.Data.List.Induction
import Mathlib.Data.List.TakeWhile
import SolverPortfolio.FlatZinc

/-
# Constraints spliced one after another

A model is split behind its last semicolon but one, and a constraint is put between the parts on a
line of its own. The model that comes out is split again just behind the constraint, and its solve
statement is the one of the model before, so that constraints which are spliced one after another
stand one below the other, and the variable that is optimized stays the same. What the constraints
say does not matter: semicolons and line breaks in them stand in front of the place where the model
is split next.

Main definitions: `FlatZinc.IsSolve`, `FlatZinc.lastWord`, `FlatZinc.spliced`.
Main statements: `FlatZinc.splitSolve_eq_ok_iff`, `FlatZinc.splitSolve_spliced`,
`FlatZinc.foldlM_insertConstraint`, `FlatZinc.splices_compose`.
-/

namespace SolverPortfolio

namespace FlatZinc

/-! ## Where a model is split -/

/-- A statement that says what to solve. -/
def IsSolve (statement : List Char) : Prop := "solve".toList <+: Text.trim statement

/-- No character of the word is white space. -/
theorem isBlank_of_mem_solve {c : Char} (h : c ∈ "solve".toList) : Text.isBlank c = false := by
  have hall : "solve".toList.all (!Text.isBlank ·) = true := by decide
  simpa using List.all_eq_true.mp hall c h

/-- A solve statement is not just white space. -/
theorem IsSolve.trim_ne_nil {statement : List Char} (h : IsSolve statement) :
    Text.trim statement ≠ [] := by
  intro hnil
  rw [IsSolve, hnil] at h
  exact absurd (List.prefix_nil.mp h) (by decide)

/-- White space after a text does not complete the word. -/
theorem isPrefix_of_append_blank {s after : List Char} (h : "solve".toList <+: s ++ after)
    (hafter : ∀ c ∈ after, Text.isBlank c = true) : "solve".toList <+: s := by
  rcases List.prefix_or_prefix_of_prefix h (List.prefix_append s after) with hprefix | ⟨tail, htail⟩
  · exact hprefix
  · rw [← htail, List.prefix_append_right_inj] at h
    cases tail with
    | nil =>
      have heq : s = "solve".toList := by rw [← htail, List.append_nil]
      exact heq ▸ List.prefix_rfl
    | cons d tail =>
      -- The word would go on in the white space.
      have hblank : Text.isBlank d = true := hafter d (h.subset List.mem_cons_self)
      have hletter : Text.isBlank d = false :=
        isBlank_of_mem_solve (htail ▸ List.mem_append_right _ List.mem_cons_self)
      rw [hblank] at hletter
      cases hletter

/-- It does not matter whether white space is dropped at the end, too. -/
theorem isSolve_iff {statement : List Char} :
    IsSolve statement ↔ "solve".toList <+: Text.trimStart statement := by
  obtain ⟨before, after, hs, hbefore, hafter⟩ := Text.exists_eq_append_trim statement
  have hstart : Text.trimStart statement = Text.trimStart (Text.trim statement ++ after) := by
    conv_lhs => rw [hs, List.append_assoc]
    exact List.dropWhile_append_of_pos hbefore
  cases htrim : Text.trim statement with
  | nil =>
    -- Nothing is left of a blank statement either way.
    have hnil : Text.trimStart statement = [] := by
      rw [hstart, htrim, List.nil_append, Text.trimStart, Text.dropStart, List.dropWhile_eq_nil_iff]
      exact hafter
    rw [IsSolve, htrim, hnil]
  | cons c rest =>
    have hkeep : Text.trimStart statement = Text.trim statement ++ after := by
      rw [hstart, Text.trimStart, Text.dropStart_eq_self]
      intro d hd
      rw [htrim] at hd
      exact Text.isBlank_of_mem_head?_trim (s := statement) (htrim ▸ hd)
    rw [IsSolve, hkeep]
    constructor
    · intro h
      exact h.trans (List.prefix_append _ after)
    · intro h
      exact isPrefix_of_append_blank h hafter

/-- A model is split behind the last semicolon before its end, if what follows there is a solve
statement. -/
theorem splitSolve_eq_ok_iff {content head solve : List Char} :
    splitSolve content = .ok (head, solve) ↔
      dropSemicolon (Text.trimEnd content) = head ++ solve ∧ ';' ∉ solve ∧
        (∀ c ∈ head.getLast?, c = ';') ∧ IsSolve solve := by
  rw [splitSolve]
  generalize dropSemicolon (Text.trimEnd content) = body
  constructor
  · intro h
    dsimp only at h
    split at h
    · cases h
    · split at h
      · rename_i hsolve
        cases h
        obtain ⟨hbody, hfree, hhead⟩ :=
          Text.cutAfterLast_eq_iff.mp (Prod.eta (Text.cutAfterLast ';' body))
        exact ⟨hbody, hfree, hhead, isSolve_iff.mpr (Text.isSome_stripStart?_iff.mp hsolve)⟩
      · cases h
  · rintro ⟨rfl, hfree, hhead, hsolve⟩
    have hblank : ¬ Text.allBlank (head ++ solve) = true := by
      intro hblank
      rw [Text.allBlank, List.all_append, Bool.and_eq_true, List.all_eq_true, List.all_eq_true]
        at hblank
      obtain ⟨tail, htail⟩ := isSolve_iff.mp hsolve
      have hmem : 's' ∈ Text.trimStart solve := htail ▸ List.mem_append_left tail (by decide)
      exact absurd (hblank.2 's' ((List.dropWhile_sublist _).mem hmem)) (by decide)
    rw [if_neg hblank, Text.cutAfterLast_append hfree hhead]
    exact if_pos (Text.isSome_stripStart?_iff.mpr (isSolve_iff.mp hsolve))

/-- A model in which something else follows the last semicolon before its end is not split. -/
theorem splitSolve_of_not_isSolve {content head tail : List Char}
    (hbody : dropSemicolon (Text.trimEnd content) = head ++ tail) (hfree : ';' ∉ tail)
    (hhead : ∀ c ∈ head.getLast?, c = ';') (hword : ∃ c ∈ head ++ tail, Text.isBlank c = false)
    (h : ¬ IsSolve tail) :
    splitSolve content = .error (.lastNotSolve (String.ofList (Text.trim tail))) := by
  obtain ⟨c, hc, hletter⟩ := hword
  have hblank : ¬ Text.allBlank (head ++ tail) = true := by
    intro hblank
    rw [List.all_eq_true.mp hblank c hc] at hletter
    cases hletter
  rw [splitSolve, hbody, if_neg hblank, Text.cutAfterLast_append hfree hhead]
  exact if_neg fun hsome => h (isSolve_iff.mpr (Text.isSome_stripStart?_iff.mp hsome))

/-! ## What is read off a split model -/

/-- The last word of a text, which is empty if there is none. -/
def lastWord (s : List Char) : List Char := ((Text.words s).getLast?).getD []

/-- The variable that is optimized is the last word of the solve statement. -/
theorem objectiveVariable_of_splitSolve {content head solve : List Char}
    (h : splitSolve content = .ok (head, solve)) :
    objectiveVariable content =
      if lastWord (Text.trim solve) = "satisfy".toList then .error .satisfaction
      else .ok (lastWord (Text.trim solve)) := by
  rw [objectiveVariable, h, lastWord, Text.words_trim]
  rfl

/-- The line break between what stands before a constraint and the constraint. -/
def gap (head : List Char) : List Char := if head.isEmpty then [] else ['\n']

/-- A model with constraints before its solve statement, each on a line of its own. -/
def spliced (head : List Char) (constraints : List (List Char)) (solve : List Char) : List Char :=
  head ++ gap head ++ constraints.flatMap (· ++ [';', '\n']) ++ Text.trim solve ++ [';', '\n']

/-- One constraint is put before the solve statement of a model that can be split. -/
theorem insertConstraint_of_splitSolve {content head solve : List Char}
    (h : splitSolve content = .ok (head, solve)) (constraint : List Char) :
    insertConstraint content constraint = .ok (spliced head [constraint] solve) := by
  rw [insertConstraint, h, spliced, gap, List.flatMap_singleton, ← List.append_assoc]
  rfl

/-! ## Splicing again -/

/-- White space before a trimmed statement is trimmed again. -/
theorem trim_cons_trim {statement : List Char} (h : IsSolve statement) :
    Text.trim ('\n' :: Text.trim statement) = Text.trim statement := by
  have hbreak : ∀ c ∈ ['\n'], Text.isBlank c = true := List.forall_mem_singleton.mpr rfl
  have htrim := Text.trim_append_append hbreak Text.isBlank_of_mem_nil h.trim_ne_nil
    (fun c hc => Text.isBlank_of_mem_head?_trim hc) (fun c hc => Text.isBlank_of_mem_getLast?_trim hc)
  rwa [List.append_nil] at htrim

/-- Nothing is added to a text when it is trimmed. -/
theorem mem_of_mem_trim {c : Char} {s : List Char} (h : c ∈ Text.trim s) : c ∈ s := by
  obtain ⟨before, after, hs, -, -⟩ := Text.exists_eq_append_trim s
  rw [hs]
  exact List.mem_append_left after (List.mem_append_right before h)

/-- A model that constraints were put into is split just behind the last of them. -/
theorem splitSolve_spliced {solve : List Char} (hsolve : IsSolve solve) (hfree : ';' ∉ solve)
    (head : List Char) (constraints : List (List Char)) (constraint : List Char) :
    splitSolve (spliced head (constraints ++ [constraint]) solve) =
      .ok (head ++ gap head ++ constraints.flatMap (· ++ [';', '\n']) ++ constraint ++ [';'],
        '\n' :: Text.trim solve) := by
  have hends : spliced head (constraints ++ [constraint]) solve =
      (head ++ gap head ++ constraints.flatMap (· ++ [';', '\n']) ++ constraint ++ [';'] ++
        '\n' :: Text.trim solve) ++ [';'] ++ ['\n'] := by
    rw [spliced, List.flatMap_append, List.flatMap_singleton]
    simp only [List.append_assoc, List.cons_append, List.nil_append]
  rw [splitSolve_eq_ok_iff]
  refine ⟨?_, ?_, ?_, ?_⟩
  · have hbreak : Text.isBlank '\n' = true := by decide
    have hsemicolon : Text.isBlank ';' = false := by decide
    rw [hends, Text.trimEnd, Text.dropEnd_append_singleton, if_pos hbreak,
      Text.dropEnd_append_singleton, if_neg (Bool.eq_false_iff.mp hsemicolon),
      dropSemicolon_concat]
  · rw [List.mem_cons, not_or]
    exact ⟨by decide, fun hmem => hfree (mem_of_mem_trim hmem)⟩
  · intro c hc
    rw [List.getLast?_concat, Option.mem_some_iff] at hc
    exact hc.symm
  · rw [IsSolve, trim_cons_trim hsolve]
    exact hsolve

/-- A constraint that is put into a model after others stands below them. -/
theorem insertConstraint_spliced {solve : List Char} (hsolve : IsSolve solve) (hfree : ';' ∉ solve)
    (head : List Char) {constraints : List (List Char)} (hne : constraints ≠ [])
    (constraint : List Char) :
    insertConstraint (spliced head constraints solve) constraint =
      .ok (spliced head (constraints ++ [constraint]) solve) := by
  have hends := List.dropLast_concat_getLast hne
  rw [← hends, insertConstraint_of_splitSolve (splitSolve_spliced hsolve hfree head _ _)]
  rw [spliced, spliced, trim_cons_trim hsolve]
  simp [gap, List.flatMap_append]

/-- Constraints that are put into a model one after another stand one below the other. -/
theorem foldlM_insertConstraint {content head solve : List Char}
    (h : splitSolve content = .ok (head, solve)) {constraints : List (List Char)}
    (hne : constraints ≠ []) :
    constraints.foldlM insertConstraint content = .ok (spliced head constraints solve) := by
  obtain ⟨-, hfree, -, hsolve⟩ := splitSolve_eq_ok_iff.mp h
  induction constraints using List.reverseRecOn with
  | nil => exact absurd rfl hne
  | append_singleton constraints constraint ih =>
    rw [List.foldlM_append]
    cases constraints with
    | nil => exact (bind_pure _).trans (insertConstraint_of_splitSolve h constraint)
    | cons first rest =>
      rw [ih (List.cons_ne_nil first rest)]
      exact (bind_pure _).trans
        (insertConstraint_spliced hsolve hfree head (List.cons_ne_nil first rest) constraint)

/-- Constraints with any contents that are put into a model one after another stand one below the
other between its statements and its solve statement; the models on the way are split again before
the same solve statement, and in the last one the same variable is optimized. -/
theorem splices_compose {content head solve : List Char}
    (h : splitSolve content = .ok (head, solve)) {constraints : List (List Char)}
    (hne : constraints ≠ []) :
    constraints.foldlM insertConstraint content = .ok (spliced head constraints solve) ∧
      (∀ first, first <+: constraints → ∃ model before statement,
        first.foldlM insertConstraint content = .ok model ∧
          splitSolve model = .ok (before, statement) ∧ Text.trim statement = Text.trim solve) ∧
      objectiveVariable (spliced head constraints solve) = objectiveVariable content := by
  obtain ⟨-, hfree, -, hsolve⟩ := splitSolve_eq_ok_iff.mp h
  refine ⟨foldlM_insertConstraint h hne, ?_, ?_⟩
  · intro first _
    cases first using List.reverseRecOn with
    | nil => exact ⟨content, head, solve, rfl, h, rfl⟩
    | append_singleton first constraint =>
      exact ⟨_, _, _, foldlM_insertConstraint h (List.concat_ne_nil constraint first),
        splitSolve_spliced hsolve hfree head first constraint, trim_cons_trim hsolve⟩
  · rw [← List.dropLast_concat_getLast hne,
      objectiveVariable_of_splitSolve (splitSolve_spliced hsolve hfree head _ _),
      trim_cons_trim hsolve, objectiveVariable_of_splitSolve h]

/-- Two constraints, the first of which has a semicolon and a line break in it. -/
theorem small_splices_compose :
    splitSolve "var 1..9: x;\nsolve minimize x;\n".toList =
        .ok ("var 1..9: x;".toList, "\nsolve minimize x".toList) ∧
      ["a;\nb".toList, "c".toList].foldlM insertConstraint
          "var 1..9: x;\nsolve minimize x;\n".toList =
        .ok "var 1..9: x;\na;\nb;\nc;\nsolve minimize x;\n".toList := by
  have hsplit : splitSolve "var 1..9: x;\nsolve minimize x;\n".toList =
      .ok ("var 1..9: x;".toList, "\nsolve minimize x".toList) := by decide +kernel
  have hne : ["a;\nb".toList, "c".toList] ≠ [] := by decide
  have hresult := (splices_compose hsplit hne).1
  exact ⟨hsplit, hresult.trans (by decide +kernel)⟩

end FlatZinc

end SolverPortfolio
