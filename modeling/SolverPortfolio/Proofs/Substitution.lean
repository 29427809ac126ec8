import Mathlib.Data.List.Infix
import Mathlib.Logic.Function.Basic
import SolverPortfolio.CommandTemplate
import SolverPortfolio.Proofs.Holes

/-
# Templates as substitutions

An argument of a template consists of characters and of placeholders, which do not overlap. All
placeholders are to be replaced at once, by values that are not read again. They are replaced one
after another, over texts that contain the values inserted before. The two agree after every step
just if no step finds another occurrence of its placeholder than those in the argument, or a value
that is the placeholder itself. An opening brace in a value may complete a placeholder, and so may
a value that is inserted between an opening brace and the rest of a name. Nothing else does.

Main definitions: `CommandTemplate.substitute`, `CommandTemplate.fillAfter`,
`CommandTemplate.Settled`, `CommandTemplate.Unnested`.
Main statements: `CommandTemplate.replaceAll_substitute_iff`, `CommandTemplate.fillAfter_iff`,
`CommandTemplate.settled_of_unnested`, `CommandTemplate.expand_settled`.
-/

namespace SolverPortfolio

/-! ## Placeholders -/

namespace Placeholder

/-- What follows the opening brace. -/
def tail (p : Placeholder) : List Char := p.name.toList ++ ['\x7d']

theorem text_eq (p : Placeholder) : p.text = '\x7b' :: p.tail := rfl

/-- Every placeholder is filled in. -/
theorem mem_inOrder (p : Placeholder) : p ∈ inOrder := by cases p <;> decide

/-- Every placeholder is filled in once. -/
theorem nodup_inOrder : inOrder.Nodup := by decide

/-- There are no braces in a name. -/
theorem braces_notMem_name (p : Placeholder) :
    '\x7b' ∉ p.name.toList ∧ '\x7d' ∉ p.name.toList := by
  cases p <;> decide

/-- The opening brace of a placeholder is its only one. -/
theorem brace_notMem_tail (p : Placeholder) : '\x7b' ∉ p.tail := by
  rw [tail, List.mem_append, not_or]
  exact ⟨p.braces_notMem_name.1, by decide⟩

/-- Placeholders have different names. -/
theorem name_injective {p q : Placeholder} (h : p.name.toList = q.name.toList) : p = q := by
  cases p <;> cases q <;> first | rfl | exact absurd h (by decide)

/-- A text begins with one placeholder at most. -/
theorem eq_of_begins {p q : Placeholder} {s : List Char} (h : p.text <+: q.text ++ s) : p = q := by
  obtain ⟨rest, hrest⟩ := h
  simp only [text_eq, tail, List.cons_append, List.append_assoc, List.cons.injEq, true_and,
    List.nil_append] at hrest
  -- Both names end at the first closing brace.
  rcases List.append_eq_append_iff.mp hrest with ⟨more, hq, hmore⟩ | ⟨more, hp, hmore⟩
  · cases more with
    | nil => exact name_injective (by rw [hq, List.append_nil])
    | cons a more =>
      obtain ⟨rfl, -⟩ := List.cons.inj hmore
      exact absurd (hq ▸ by simp) q.braces_notMem_name.2
  · cases more with
    | nil => exact name_injective (by rw [hp, List.append_nil])
    | cons a more =>
      obtain ⟨rfl, -⟩ := List.cons.inj hmore
      exact absurd (hp ▸ by simp) p.braces_notMem_name.2

/-- Different placeholders look different. -/
theorem text_injective {p q : Placeholder} (h : p.text = q.text) : p = q :=
  eq_of_begins (s := []) (by rw [h, List.append_nil])

/-- Another placeholder in front holds no occurrence of a placeholder. -/
theorem occurrences_text_append (p q : Placeholder) (s : List Char) :
    Text.occurrences p.text (q.text ++ s) =
      Text.occurrences p.text s + if q = p then 1 else 0 := by
  by_cases h : q = p
  · rw [h, if_pos rfl]
    exact Text.occurrences_mark_append p.brace_notMem_tail s
  · have hstart : ¬ p.text <+: '\x7b' :: (q.tail ++ s) := fun hbegins =>
      h (eq_of_begins (q := q) (s := s) hbegins).symm
    rw [if_neg h, text_eq q, List.cons_append, Text.occurrences_cons, if_neg hstart]
    exact Text.occurrences_append_of_notMem q.brace_notMem_tail s

end Placeholder

namespace CommandTemplate

open Placeholder (inOrder)

/-! ## Pieces -/

/-- What an argument consists of. -/
inductive Piece where
  | char (c : Char)
  | hole (p : Placeholder)
  deriving Repr, DecidableEq

/-- The text of a piece if placeholders have these texts. -/
def Piece.render (text : Placeholder → List Char) : Piece → List Char
  | .char c => [c]
  | .hole p => text p

/-- The pieces of an argument. `skip` characters of the last placeholder are still to be passed
over. -/
def piecesFrom : Nat → List Char → List Piece
  | _, [] => []
  | skip + 1, _ :: rest => piecesFrom skip rest
  | 0, c :: rest =>
    match inOrder.find? fun p => p.text.isPrefixOf (c :: rest) with
    | some p => .hole p :: piecesFrom (p.text.length - 1) rest
    | none => .char c :: piecesFrom 0 rest

/-- The characters and the placeholders that an argument consists of. -/
def pieces (arg : List Char) : List Piece := piecesFrom 0 arg

/-- An argument with texts for all its placeholders, which are inserted at once. -/
def substitute (text : Placeholder → List Char) (arg : List Char) : List Char :=
  (pieces arg).flatMap (Piece.render text)

/-- What is to be passed over is passed over. -/
theorem piecesFrom_append (x s : List Char) : piecesFrom x.length (x ++ s) = pieces s := by
  induction x with
  | nil => rfl
  | cons a x ih => exact ih

/-- A placeholder in front is the first piece. -/
theorem pieces_text_append (p : Placeholder) (s : List Char) :
    pieces (p.text ++ s) = .hole p :: pieces s := by
  have hfind : inOrder.find? (fun q => q.text.isPrefixOf ('\x7b' :: (p.tail ++ s))) = some p := by
    cases hfound : inOrder.find? (fun q => q.text.isPrefixOf ('\x7b' :: (p.tail ++ s))) with
    | none =>
      have hnot := List.find?_eq_none.mp hfound p p.mem_inOrder
      exact absurd (List.isPrefixOf_iff_prefix.mpr (List.prefix_append p.text s)) hnot
    | some q =>
      have hbegins := List.find?_some hfound
      rw [Placeholder.eq_of_begins (q := p) (s := s) (List.isPrefixOf_iff_prefix.mp hbegins)]
  rw [p.text_eq, List.cons_append, pieces, piecesFrom, hfind]
  simp only [p.text_eq, List.length_cons, Nat.add_sub_cancel]
  rw [piecesFrom_append]

/-- A character that begins no placeholder is the first piece. -/
theorem pieces_cons {c : Char} {s : List Char} (h : ∀ p : Placeholder, ¬ p.text <+: c :: s) :
    pieces (c :: s) = .char c :: pieces s := by
  have hfind : inOrder.find? (fun q => q.text.isPrefixOf (c :: s)) = none :=
    List.find?_eq_none.mpr fun p _ hp => h p (List.isPrefixOf_iff_prefix.mp hp)
  rw [pieces, piecesFrom, hfind, pieces]

/-- An argument is empty, or begins with a placeholder, or with a character that begins none. -/
@[elab_as_elim]
theorem piece_induction {P : List Char → Prop} (nil : P [])
    (hole : ∀ (p : Placeholder) s, P s → P (p.text ++ s))
    (char : ∀ c s, (∀ p : Placeholder, ¬ p.text <+: c :: s) → P s → P (c :: s))
    (s : List Char) : P s := by
  induction hn : s.length using Nat.strong_induction_on generalizing s with
  | _ n ih =>
    subst hn
    by_cases hplaceholder : ∃ p : Placeholder, p.text <+: s
    · obtain ⟨p, rest, rfl⟩ := hplaceholder
      refine hole p rest (ih rest.length ?_ rest rfl)
      rw [List.length_append, p.text_eq, List.length_cons]
      omega
    · rw [not_exists] at hplaceholder
      cases s with
      | nil => exact nil
      | cons c s => exact char c s hplaceholder (ih s.length (Nat.lt_succ_self _) s rfl)

section

variable (text : Placeholder → List Char)

@[simp] theorem substitute_nil : substitute text [] = [] := rfl

/-- A placeholder in front gets its text. -/
theorem substitute_text_append (p : Placeholder) (s : List Char) :
    substitute text (p.text ++ s) = text p ++ substitute text s := by
  rw [substitute, pieces_text_append]
  rfl

/-- A character that begins no placeholder is kept. -/
theorem substitute_cons {c : Char} {s : List Char} (h : ∀ p : Placeholder, ¬ p.text <+: c :: s) :
    substitute text (c :: s) = c :: substitute text s := by
  rw [substitute, pieces_cons h]
  rfl

/-- A single placeholder gets its text. -/
theorem substitute_text (p : Placeholder) : substitute text p.text = text p := by
  have hsubstitute := substitute_text_append text p []
  rwa [List.append_nil, substitute_nil, List.append_nil] at hsubstitute

end

/-- Placeholders with their own texts are left alone. -/
theorem substitute_self (arg : List Char) : substitute Placeholder.text arg = arg := by
  induction arg using piece_induction with
  | nil => rfl
  | hole p s ih => rw [substitute_text_append, ih]
  | char c s hnone ih => rw [substitute_cons _ hnone, ih]

/-! ## One step -/

/-- An argument with texts for all placeholders but one, which leaves holes. -/
def stage (text : Placeholder → List Char) (p : Placeholder) (arg : List Char) : Text.HoledText :=
  (pieces arg).flatMap fun
    | .char c => [some c]
    | .hole q => if q = p then [none] else (text q).map some

section

variable {text : Placeholder → List Char} {p : Placeholder}

/-- The one placeholder leaves a hole, and the other ones have their texts. -/
theorem stage_text_append (q : Placeholder) (s : List Char) :
    stage text p (q.text ++ s) =
      (if q = p then [none] else (text q).map some) ++ stage text p s := by
  rw [stage, pieces_text_append]
  rfl

/-- A character that begins no placeholder is kept. -/
theorem stage_cons {c : Char} {s : List Char} (h : ∀ q : Placeholder, ¬ q.text <+: c :: s) :
    stage text p (c :: s) = some c :: stage text p s := by
  rw [stage, pieces_cons h]
  rfl

/-- The holes are those of the one placeholder. -/
theorem fillHoles_stage (new arg : List Char) :
    Text.fillHoles new (stage text p arg) = substitute (Function.update text p new) arg := by
  induction arg using piece_induction with
  | nil => rfl
  | hole q s ih =>
    rw [stage_text_append, substitute_text_append, ← ih]
    by_cases h : q = p
    · rw [if_pos h, h, Function.update_self]
      rfl
    · rw [if_neg h, Function.update_of_ne h, Text.fillHoles_map_some_append]
  | char c s hnone ih => rw [stage_cons hnone, substitute_cons _ hnone, Text.fillHoles_some, ih]

/-- There are as many holes as the placeholder occurs. -/
theorem holes_stage (text : Placeholder → List Char) (p : Placeholder) (arg : List Char) :
    Text.holes (stage text p arg) = Text.occurrences p.text arg := by
  induction arg using piece_induction with
  | nil => rfl
  | hole q s ih =>
    rw [stage_text_append, Placeholder.occurrences_text_append, ← ih]
    by_cases h : q = p
    · rw [if_pos h, if_pos h]
      exact Text.holes_none _
    · rw [if_neg h, if_neg h, Text.holes_map_some_append, Nat.add_zero]
  | char c s hnone ih =>
    rw [stage_cons hnone, Text.holes_some, Text.occurrences_cons, if_neg (hnone p), ih,
      Nat.add_zero]

/-- Replacing a placeholder that has its own text so far gives it another text just if these are
the same, or if no more occurrences are found than in the argument. -/
theorem replaceAll_substitute_iff (htext : text p = p.text) (new arg : List Char) :
    Text.replaceAll p.text new (substitute text arg) = substitute (Function.update text p new) arg ↔
      new = p.text ∨
        Text.occurrences p.text (substitute text arg) = Text.occurrences p.text arg := by
  have hsame : substitute text arg = Text.fillHoles p.text (stage text p arg) := by
    rw [fillHoles_stage, ← htext, Function.update_eq_self]
  rw [hsame, ← fillHoles_stage, ← holes_stage text p arg]
  exact Text.replaceAll_fillHoles_iff p.brace_notMem_tail new _

end

/-! ## All steps -/

section

variable (values : TemplateValues)

/-- What is inserted for a placeholder: its value, or nothing. -/
def inserted (p : Placeholder) : List Char := (values p).getD []

/-- The texts of the placeholders when some have been replaced. -/
def standing (done : List Placeholder) (p : Placeholder) : List Char :=
  if p ∈ done then inserted values p else p.text

/-- An argument in which some placeholders have been replaced, one after another. -/
def fillAfter (done : List Placeholder) (arg : List Char) : List Char :=
  done.foldl (fun s p => Text.replaceAll p.text (inserted values p) s) arg

/-- No step finds other occurrences of its placeholder than those in the argument, if the steps
before it found none, or it leaves them as they are. -/
def Settled (arg : List Char) : Prop :=
  ∀ done p, done ++ [p] <+: inOrder → inserted values p = p.text ∨
    Text.occurrences p.text (substitute (standing values done) arg) =
      Text.occurrences p.text arg

/-- All placeholders have been replaced in the end. -/
theorem fill_eq_fillAfter (arg : List Char) : fill values arg = fillAfter values inOrder arg := rfl

theorem fillAfter_append_singleton (done : List Placeholder) (p : Placeholder)
    (arg : List Char) : fillAfter values (done ++ [p]) arg =
      Text.replaceAll p.text (inserted values p) (fillAfter values done arg) := by
  rw [fillAfter, List.foldl_append]
  rfl

/-- No placeholder stands for itself in the end. -/
theorem standing_inOrder : standing values inOrder = inserted values :=
  funext fun p => if_pos p.mem_inOrder

/-- A step replaces its placeholder. -/
theorem standing_append_singleton (done : List Placeholder) (p : Placeholder) :
    standing values (done ++ [p]) =
      Function.update (standing values done) p (inserted values p) := by
  funext q
  by_cases h : q = p
  · subst h
    rw [Function.update_self, standing, if_pos (by simp)]
  · rw [Function.update_of_ne h, standing, standing]
    simp [h]

/-- A placeholder has its own text before its step. -/
theorem standing_of_next {done : List Placeholder} {p : Placeholder}
    (h : done ++ [p] <+: inOrder) : standing values done p = p.text := by
  have hnodup := Placeholder.nodup_inOrder.sublist h.sublist
  rw [standing, if_neg]
  exact fun hmem => (List.nodup_append.mp hnodup).2.2 p hmem p (by simp) rfl

/-- Replacing one after another amounts to replacing at once, after every step, just if the
argument is settled. -/
theorem fillAfter_iff (arg : List Char) :
    (∀ done, done <+: inOrder → fillAfter values done arg = substitute (standing values done) arg) ↔
      Settled values arg := by
  constructor
  · intro hsteps done p hbegins
    have hbefore := hsteps done ((List.prefix_append done [p]).trans hbegins)
    have hafter := hsteps (done ++ [p]) hbegins
    rw [fillAfter_append_singleton, hbefore, standing_append_singleton] at hafter
    exact (replaceAll_substitute_iff (standing_of_next values hbegins) _ arg).mp hafter
  · intro hsettled done
    induction done using List.reverseRecOn with
    | nil =>
      intro _
      exact (substitute_self arg).symm
    | append_singleton done p ih =>
      intro hbegins
      rw [fillAfter_append_singleton, ih ((List.prefix_append done [p]).trans hbegins),
        standing_append_singleton]
      exact (replaceAll_substitute_iff (standing_of_next values hbegins) _ arg).mpr
        (hsettled done p hbegins)

/-- A settled argument is expanded at once. -/
theorem Settled.fill_eq {arg : List Char} (h : Settled values arg) :
    fill values arg = substitute (inserted values) arg := by
  rw [fill_eq_fillAfter, (fillAfter_iff values arg).mpr h inOrder List.prefix_rfl,
    standing_inOrder]

end

/-! ## Settled arguments -/

/-- Between two opening braces there is a closing one. -/
def Unnested (arg : List Char) : Prop :=
  ∀ before inside after, arg = before ++ '\x7b' :: (inside ++ '\x7b' :: after) → '\x7d' ∈ inside

/-- The end of an argument is unnested with it. -/
theorem Unnested.of_append {before arg : List Char} (h : Unnested (before ++ arg)) :
    Unnested arg := by
  rintro more inside after rfl
  exact h (before ++ more) inside after (by rw [List.append_assoc])

/-- One opening brace is not nested. -/
theorem unnested_of_count_le_one {arg : List Char} (h : arg.count '\x7b' ≤ 1) : Unnested arg := by
  rintro before inside after rfl
  rw [List.count_append, List.count_cons_self, List.count_append, List.count_cons_self] at h
  omega

/-- What stands behind an opening brace, up to the next closing one, is not inserted. -/
theorem prefix_of_prefix_substitute (text : Placeholder → List Char) {name arg : List Char}
    (hname : '\x7d' ∉ name)
    (harg : ∀ inside after, arg = inside ++ '\x7b' :: after → '\x7d' ∈ inside)
    (h : name ++ ['\x7d'] <+: substitute text arg) : name ++ ['\x7d'] <+: arg := by
  induction arg using piece_induction generalizing name with
  | nil => exact absurd (List.prefix_nil.mp h) (by simp)
  | hole p s ih => exact absurd (harg [] (p.tail ++ s) rfl) List.not_mem_nil
  | char c s hnone ih =>
    rw [substitute_cons text hnone] at h
    cases name with
    | nil =>
      obtain ⟨rfl, -⟩ := List.cons_prefix_cons.mp h
      exact List.prefix_append ['\x7d'] s
    | cons a name =>
      rw [List.mem_cons, not_or] at hname
      obtain ⟨rfl, hrest⟩ := List.cons_prefix_cons.mp h
      refine List.cons_prefix_cons.mpr ⟨rfl, ih hname.2 (fun inside after heq => ?_) hrest⟩
      have hclosing := harg (a :: inside) after (by rw [heq, List.cons_append])
      exact (List.mem_cons.mp hclosing).resolve_left hname.1

/-- Values without opening braces add no placeholder to an unnested argument. -/
theorem occurrences_substitute {text : Placeholder → List Char} {p : Placeholder}
    (htext : ∀ q, text q = q.text ∨ q ≠ p ∧ '\x7b' ∉ text q) {arg : List Char}
    (harg : Unnested arg) :
    Text.occurrences p.text (substitute text arg) = Text.occurrences p.text arg := by
  induction arg using piece_induction with
  | nil => rfl
  | hole q s ih =>
    have hrest := ih harg.of_append
    rw [substitute_text_append, Placeholder.occurrences_text_append]
    rcases htext q with hown | ⟨hne, hbrace⟩
    · rw [hown, Placeholder.occurrences_text_append, hrest]
    · rw [p.text_eq, Text.occurrences_append_of_notMem hbrace, ← p.text_eq, hrest, if_neg hne,
        Nat.add_zero]
  | char c s hnone ih =>
    have hrest := ih (Unnested.of_append (show Unnested ([c] ++ s) from harg))
    have hstart : ¬ p.text <+: c :: substitute text s := by
      intro hbegins
      obtain ⟨rfl, hname⟩ := List.cons_prefix_cons.mp hbegins
      refine hnone p (List.cons_prefix_cons.mpr ⟨rfl, ?_⟩)
      exact prefix_of_prefix_substitute text p.braces_notMem_name.2
        (fun inside after heq => harg [] inside after (by rw [heq, List.nil_append])) hname
    rw [substitute_cons text hnone, Text.occurrences_cons, Text.occurrences_cons, if_neg hstart,
      if_neg (hnone p), hrest]

/-- An unnested argument is settled for values without opening braces. -/
theorem settled_of_unnested {values : TemplateValues}
    (hvalues : ∀ p, '\x7b' ∉ inserted values p) {arg : List Char} (harg : Unnested arg) :
    Settled values arg := by
  intro done p hbegins
  right
  refine occurrences_substitute (fun q => ?_) harg
  by_cases hq : q ∈ done
  · right
    refine ⟨fun heq => ?_, ?_⟩
    · -- What has been replaced is not replaced again.
      have hnodup := Placeholder.nodup_inOrder.sublist hbegins.sublist
      exact (List.nodup_append.mp hnodup).2.2 q hq p (by simp) heq
    · rw [standing, if_pos hq]
      exact hvalues q
  · exact .inl (if_neg hq)

/-! ## Expanded templates -/

/-- Is an argument just a placeholder? -/
def IsLone (arg : List Char) : Prop := ∃ p : Placeholder, p.text = arg

/-- Is an argument just a placeholder without a value? -/
def isMissing (values : TemplateValues) (arg : List Char) : Bool :=
  inOrder.any fun p => p.text = arg && (values p).isNone

section

variable (values : TemplateValues)

/-- A missing argument is a placeholder that has no value. -/
theorem isMissing_iff {arg : List Char} :
    isMissing values arg = true ↔ ∃ p : Placeholder, p.text = arg ∧ values p = none := by
  simp [isMissing, Placeholder.mem_inOrder]

/-- An argument is expanded if it is not missing, a placeholder to its value and any other one step
by step. -/
theorem expandArg_cases (arg : List Char) :
    isMissing values arg = true ∧ expandArg values arg = none ∨
      isMissing values arg = false ∧ ∃ result, expandArg values arg = some result ∧
        (IsLone arg ∨ Settled values arg → result = substitute (inserted values) arg) := by
  unfold expandArg
  cases hfind : inOrder.find? (fun p => p.text = arg) with
  | some p =>
    have htext : p.text = arg := by simpa using List.find?_some hfind
    cases hvalue : values p with
    | none => exact .inl ⟨(isMissing_iff values).mpr ⟨p, htext, hvalue⟩, hvalue⟩
    | some v =>
      refine .inr ⟨?_, v, hvalue, fun _ => ?_⟩
      · rw [Bool.eq_false_iff, Ne, isMissing_iff]
        rintro ⟨q, hq, hnone⟩
        rw [Placeholder.text_injective (hq.trans htext.symm), hvalue] at hnone
        cases hnone
      · rw [← htext, substitute_text, inserted, hvalue, Option.getD_some]
  | none =>
    have hlone : ¬ IsLone arg := by
      rintro ⟨p, hp⟩
      simpa [hp] using List.find?_eq_none.mp hfind p p.mem_inOrder
    refine .inr ⟨?_, fill values arg, rfl, fun h => (h.resolve_left hlone).fill_eq⟩
    rw [Bool.eq_false_iff, Ne, isMissing_iff]
    rintro ⟨p, hp, -⟩
    exact hlone ⟨p, hp⟩

/-- Expanding drops just the arguments that are a placeholder without a value, and keeps the others
in their order. In what is kept, every placeholder has been replaced at once if it is the whole
argument, or if the argument is settled; being settled is the same as replacing at once after every
step. All unnested arguments are settled if no value has an opening brace. -/
theorem expand_settled (template : CommandTemplate) :
    List.Forall₂ (fun arg result => IsLone arg.toList ∨ Settled values arg.toList →
        result = String.ofList (substitute (inserted values) arg.toList))
      (template.filter fun arg => !isMissing values arg.toList) (template.expand values) ∧
    (∀ arg, Settled values arg ↔ ∀ done, done <+: inOrder →
      fillAfter values done arg = substitute (standing values done) arg) ∧
    ((∀ p, '\x7b' ∉ inserted values p) → ∀ arg, Unnested arg → Settled values arg) := by
  refine ⟨?_, fun arg => (fillAfter_iff values arg).symm,
    fun hvalues arg harg => settled_of_unnested hvalues harg⟩
  induction template with
  | nil => exact .nil
  | cons arg template ih =>
    rcases expandArg_cases values arg.toList with ⟨hmissing, hnone⟩ |
      ⟨hmissing, result, hsome, hresult⟩
    · rw [List.filter_cons_of_neg (by simp [hmissing]), expand, List.filterMap_cons_none]
      · exact ih
      · rw [hnone]
        rfl
    · rw [List.filter_cons_of_pos (by simp [hmissing]), expand,
        List.filterMap_cons_some (b := String.ofList result)]
      · exact .cons (fun h => congrArg String.ofList (hresult h)) ih
      · rw [hsome]
        rfl

end

/-- A model and a flag, and an output file without a value. -/
def plainValues : TemplateValues
  | .model => some "m.mzn".toList
  | .free => some "-f".toList
  | _ => none

/-- The missing file is dropped, and the values are inserted into the other arguments. -/
theorem expand_plain :
    (∀ p, '\x7b' ∉ inserted plainValues p) ∧ Unnested "-m=\x7bmodel\x7d".toList ∧
      expand ["-m=\x7bmodel\x7d", "\x7bozn\x7d", "\x7bfree\x7d"] plainValues =
        ["-m=\x7bmodel\x7d", "\x7bfree\x7d"].map fun arg =>
          String.ofList (substitute (inserted plainValues) arg.toList) := by
  have hvalues (p : Placeholder) : '\x7b' ∉ inserted plainValues p := by cases p <;> decide
  have harg : Unnested "-m=\x7bmodel\x7d".toList := unnested_of_count_le_one (by decide)
  refine ⟨hvalues, harg, ?_⟩
  obtain ⟨hkept, -, hsettled⟩ :=
    expand_settled plainValues ["-m=\x7bmodel\x7d", "\x7bozn\x7d", "\x7bfree\x7d"]
  have hfilter : ["-m=\x7bmodel\x7d", "\x7bozn\x7d", "\x7bfree\x7d"].filter
      (fun arg => !isMissing plainValues arg.toList) = ["-m=\x7bmodel\x7d", "\x7bfree\x7d"] := by
    decide
  rw [hfilter] at hkept
  generalize expand ["-m=\x7bmodel\x7d", "\x7bozn\x7d", "\x7bfree\x7d"] plainValues = results
    at hkept
  rcases hkept with _ | ⟨hfirst, _ | ⟨hsecond, _ | _⟩⟩
  rw [hfirst (.inr (hsettled hvalues _ harg)), hsecond (.inl ⟨.free, by decide⟩)]
  rfl

/-- A value that looks like a placeholder. -/
def bracedValues : TemplateValues
  | .model => some "\x7bdata\x7d".toList
  | .data => some "d".toList
  | _ => none

/-- The value of the model is read again, and replaced by the data. -/
theorem expand_braced :
    expand ["x\x7bmodel\x7d"] bracedValues = ["xd"] ∧
      String.ofList (substitute (inserted bracedValues) "x\x7bmodel\x7d".toList) =
        "x\x7bdata\x7d" := by
  decide

end CommandTemplate

end SolverPortfolio
