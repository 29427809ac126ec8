import SolverPortfolio.KnowledgeBase
import SolverPortfolio.Proofs.JsonText

/-
# Rewriting the columns of a knowledge base

The word `nan` is replaced in the text of a column wherever it stands alone. In a JSON text it may
do so in string literals only, where it may also begin right behind a backslash. Rewriting a text
replaces words in its literals and leaves everything else as it is, and what becomes of a literal is
one again. So a column without apostrophes is read as the value of the rewritten text.

Main definitions: `Json.rewritten`, `Json.StringText.replaced`, `Json.Source.replaced`,
`Json.Column`.
Main statements: `Text.IsWord.replaceWordFrom_append`, `Json.IsContent.replaceWordFrom`,
`Json.StringText.rel_replaced`, `Json.Source.rewritten_text`, `Json.Column.read?_columnJson`.
-/

namespace SolverPortfolio

namespace Text

/-! ## Replacing words -/

/-- A text of one or more word characters. -/
structure IsWord (word : List Char) : Prop where
  ne_nil : word ≠ []
  wordChar : ∀ c ∈ word, isWordChar c = true

/-- A text begins with a word, and no word character follows. -/
def Begins (word s : List Char) : Prop :=
  ∃ rest, s = word ++ rest ∧ startsOutsideWord rest = true

/-- The condition on which a word is replaced. -/
theorem begins_iff {word s : List Char} : Begins word s ↔
    (word.isPrefixOf s && startsOutsideWord (s.drop word.length)) = true := by
  rw [Bool.and_eq_true, List.isPrefixOf_iff_prefix]
  constructor
  · rintro ⟨rest, rfl, hrest⟩
    rw [List.drop_left]
    exact ⟨List.prefix_append _ _, hrest⟩
  · rintro ⟨⟨rest, rfl⟩, hrest⟩
    rw [List.drop_left] at hrest
    exact ⟨rest, rfl, hrest⟩

/-- A text that goes on outside of words does so with another one behind it that begins there. -/
theorem startsOutsideWord_append {s t : List Char} (ht : startsOutsideWord t = true) :
    startsOutsideWord (s ++ t) = startsOutsideWord s := by
  cases s with
  | nil => exact ht
  | cons c s => rfl

/-- What remains of a word is passed over. -/
theorem replaceWordFrom_skip (word new : List Char) {u : List Char}
    (hu : ∀ c ∈ u, isWordChar c = true) (t : List Char) :
    replaceWordFrom word new u.length true (u ++ t) = replaceWordFrom word new 0 true t := by
  induction u with
  | nil => rfl
  | cons c u ih =>
    calc replaceWordFrom word new (c :: u).length true (c :: u ++ t)
        = replaceWordFrom word new u.length (isWordChar c) (u ++ t) := rfl
      _ = replaceWordFrom word new u.length true (u ++ t) := by rw [hu c List.mem_cons_self]
      _ = replaceWordFrom word new 0 true t := ih fun d hd => hu d (List.mem_cons_of_mem c hd)

/-- A character stays where no word stands alone. -/
theorem replaceWordFrom_of_not_begins {word : List Char} (new : List Char) {inside : Bool}
    {c : Char} {rest : List Char} (h : ¬ (inside = false ∧ Begins word (c :: rest))) :
    replaceWordFrom word new 0 inside (c :: rest) =
      c :: replaceWordFrom word new 0 (isWordChar c) rest := by
  rw [begins_iff, ← Bool.not_eq_true', ← Bool.and_eq_true, ← Bool.and_assoc] at h
  rw [replaceWordFrom, if_neg h]

/-- A text stays that lacks a character of the word. -/
theorem replaceWord_eq_self {word : List Char} (new : List Char) {s : List Char} {c : Char}
    (hc : c ∈ word) (hs : c ∉ s) :
    replaceWord word new s = s := by
  have hgo : ∀ inside, replaceWordFrom word new 0 inside s = s := by
    induction s with
    | nil => exact fun _ => rfl
    | cons d s ih =>
      intro inside
      have hnot : ¬ Begins word (d :: s) := by
        rintro ⟨rest, heq, -⟩
        exact hs (heq ▸ List.mem_append_left rest hc)
      rw [replaceWordFrom_of_not_begins new fun h => hnot h.2,
        ih fun hmem => hs (List.mem_cons_of_mem d hmem)]
  exact hgo false

namespace IsWord

variable {word : List Char} (hword : IsWord word) (new : List Char)

include hword

/-- A word that a text begins with ends before anything that begins outside of words. -/
theorem begins_append_iff {s t : List Char} (ht : startsOutsideWord t = true) :
    Begins word (s ++ t) ↔ Begins word s := by
  constructor
  · rintro ⟨rest, heq, hrest⟩
    rcases List.append_eq_append_iff.mp heq with ⟨more, rfl, rfl⟩ | ⟨more, rfl, rfl⟩
    · -- The word would have the first character behind the text.
      cases more with
      | nil => exact ⟨[], by simp, rfl⟩
      | cons c more =>
        have hc := hword.wordChar c (by simp)
        simp [startsOutsideWord, hc] at ht
    · rw [startsOutsideWord_append ht] at hrest
      exact ⟨more, rfl, hrest⟩
  · rintro ⟨rest, rfl, hrest⟩
    exact ⟨rest ++ t, List.append_assoc _ _ _, (startsOutsideWord_append ht).trans hrest⟩

/-- A word that stands alone is replaced. -/
theorem replaceWordFrom_of_begins {rest : List Char} (h : startsOutsideWord rest = true) :
    replaceWordFrom word new 0 false (word ++ rest) =
      new ++ replaceWordFrom word new 0 true rest := by
  obtain ⟨c, u, rfl⟩ := List.exists_cons_of_ne_nil hword.ne_nil
  have hbegins : Begins (c :: u) (c :: (u ++ rest)) := ⟨rest, rfl, h⟩
  have hu : ∀ d ∈ u, isWordChar d = true := fun d hd => hword.wordChar d (List.mem_cons_of_mem c hd)
  rw [List.cons_append, replaceWordFrom, Bool.not_false, Bool.true_and,
    if_pos (begins_iff.mp hbegins), hword.wordChar c List.mem_cons_self]
  exact congrArg (new ++ ·) (replaceWordFrom_skip _ new hu rest)

/-- Outside of words it does not matter what stands before. -/
theorem replaceWordFrom_of_outside {t : List Char} (ht : startsOutsideWord t = true)
    (inside : Bool) : replaceWordFrom word new 0 inside t = replaceWord word new t := by
  cases t with
  | nil => cases inside <;> rfl
  | cons c t =>
    have hnot : ∀ inside : Bool, ¬ (inside = false ∧ Begins word (c :: t)) := by
      rintro inside ⟨-, hbegins⟩
      obtain ⟨rest, hrest, -⟩ := (hword.begins_append_iff (s := []) ht).mp hbegins
      exact hword.ne_nil (List.append_eq_nil_iff.mp hrest.symm).1
    rw [replaceWord, replaceWordFrom_of_not_begins new (hnot inside),
      replaceWordFrom_of_not_begins new (hnot false)]

/-- Texts of which the second one begins outside of words are rewritten one by one. -/
theorem replaceWordFrom_append {t : List Char} (ht : startsOutsideWord t = true) (s : List Char)
    (inside : Bool) : replaceWordFrom word new 0 inside (s ++ t) =
      replaceWordFrom word new 0 inside s ++ replaceWord word new t := by
  induction hn : s.length using Nat.strongRecOn generalizing s inside with
  | ind n ih =>
    cases s with
    | nil => exact hword.replaceWordFrom_of_outside new ht inside
    | cons c s =>
      by_cases h : inside = false ∧ Begins word (c :: s)
      · obtain ⟨rfl, rest, heq, hrest⟩ := h
        have hshort : rest.length < n := by
          have hpos := List.length_pos_of_ne_nil hword.ne_nil
          rw [← hn, heq, List.length_append]
          omega
        have hjoint := (startsOutsideWord_append ht).trans hrest
        rw [heq, List.append_assoc, hword.replaceWordFrom_of_begins new hjoint,
          hword.replaceWordFrom_of_begins new hrest, ih _ hshort rest true rfl, List.append_assoc]
      · have hjoint : ¬ (inside = false ∧ Begins word (c :: (s ++ t))) := fun hjoint =>
          h ⟨hjoint.1, (hword.begins_append_iff ht).mp hjoint.2⟩
        rw [List.cons_append, replaceWordFrom_of_not_begins new hjoint,
          replaceWordFrom_of_not_begins new h, List.cons_append]
        rw [ih s.length (by rw [← hn]; exact Nat.lt_succ_self _) s _ rfl]

/-- A character outside of words stays, and the text behind it is rewritten on its own. -/
theorem replaceWord_cons {c : Char} (hc : isWordChar c = false) (s : List Char) :
    replaceWord word new (c :: s) = c :: replaceWord word new s := by
  have hnot : ¬ Begins word (c :: s) := by
    rintro ⟨rest, heq, -⟩
    obtain ⟨d, u, rfl⟩ := List.exists_cons_of_ne_nil hword.ne_nil
    cases heq
    exact Bool.false_ne_true (hc.symm.trans (hword.wordChar c List.mem_cons_self))
  rw [replaceWord, replaceWordFrom_of_not_begins new fun h => hnot h.2, hc, replaceWord]

/-- Characters outside of words stay. -/
theorem replaceWord_append {s : List Char} (hs : ∀ c ∈ s, isWordChar c = false) (t : List Char) :
    replaceWord word new (s ++ t) = s ++ replaceWord word new t := by
  induction s with
  | nil => rfl
  | cons c s ih =>
    rw [List.cons_append, hword.replaceWord_cons new (hs c List.mem_cons_self),
      ih fun d hd => hs d (List.mem_cons_of_mem c hd), List.cons_append]

end IsWord

end Text

namespace Json

open Text (IsWord Begins isWordChar replaceWord replaceWordFrom startsOutsideWord)

/-! ## Rewriting string literals -/

/-- The word that stands for a missing number. -/
def nan : List Char := ['n', 'a', 'n']

/-- The word that it is replaced by. -/
def nullWord : List Char := ['n', 'u', 'l', 'l']

/-- The first of the two is a word. -/
theorem isWord_nan : IsWord nan := ⟨by decide, List.all_eq_true.mp rfl⟩

/-- The text in which the one word is replaced by the other. -/
def rewritten (s : List Char) : List Char := replaceWord nan nullWord s

/-- The units of a literal before and after `k` words in it are replaced. -/
inductive Respelled : ℕ → List Unit16 → List Unit16 → Prop where
  | nil : Respelled 0 [] []
  | cons (u : Unit16) {k : ℕ} {us vs : List Unit16} (h : Respelled k us vs) :
      Respelled k (u :: us) (u :: vs)
  | word (c : Char) {k : ℕ} {us vs : List Unit16} (h : Respelled k us vs) :
      Respelled (k + 1) (.char c :: .char 'a' :: .char 'n' :: us)
        (.char c :: .char 'u' :: .char 'l' :: .char 'l' :: vs)

/-- Behind a character that is no backslash the content of a literal goes on. -/
theorem IsContent.of_cons {c : Char} {s : List Char} (h : IsContent (c :: s)) (hc : c ≠ '\\') :
    IsContent s := by
  cases h with
  | plain hplain hs => exact hs
  | short hshort hs => exact absurd rfl hc
  | code ha hb hc' hd hs => exact absurd rfl hc

/-- A character that the word does not begin with stays. -/
theorem replaceWordFrom_ne {inside : Bool} {c : Char} (hc : c ≠ 'n') (s : List Char) :
    replaceWordFrom nan nullWord 0 inside (c :: s) =
      c :: replaceWordFrom nan nullWord 0 (isWordChar c) s := by
  refine Text.replaceWordFrom_of_not_begins nullWord ?_
  rintro ⟨-, rest, heq, -⟩
  exact hc (List.cons.inj heq).1

/-- A hexadecimal digit is not the character that the word begins with. -/
theorem ne_of_hexValue? {c : Char} {n : ℕ} (h : hexValue? c = some n) : c ≠ 'n' := by
  rintro rfl
  cases h

/-- The word is replaced where it stands alone. -/
theorem replaceWordFrom_nan {c : Char} {s : List Char} (h : Begins nan (c :: s)) :
    ∃ rest, c = 'n' ∧ s = 'a' :: 'n' :: rest ∧
      replaceWordFrom nan nullWord 0 false (c :: s) =
        'n' :: 'u' :: 'l' :: 'l' :: replaceWordFrom nan nullWord 0 true rest := by
  obtain ⟨rest, heq, hrest⟩ := h
  obtain ⟨rfl, rfl⟩ := List.cons.inj heq
  exact ⟨rest, rfl, rfl, isWord_nan.replaceWordFrom_of_begins nullWord hrest⟩

/-- The content of a literal stays one when words in it are replaced. -/
theorem IsContent.replaceWordFrom {s : List Char} (h : IsContent s) (inside : Bool) :
    IsContent (replaceWordFrom nan nullWord 0 inside s) ∧
      ∃ k, Respelled k (units s) (units (replaceWordFrom nan nullWord 0 inside s)) ∧
        (k = 0 → replaceWordFrom nan nullWord 0 inside s = s) := by
  have hplain : isPlain 'n' = true ∧ isPlain 'a' = true ∧ isPlain 'u' = true ∧
      isPlain 'l' = true := by decide
  obtain ⟨hn, ha, hu, hl⟩ := hplain
  induction hlength : s.length using Nat.strongRecOn generalizing s inside with
  | ind n ih =>
    cases h with
    | nil => exact ⟨.nil, 0, .nil, fun _ => rfl⟩
    | @plain c s hc hs =>
      by_cases hbegins : inside = false ∧ Begins nan (c :: s)
      · obtain ⟨rfl, hbegins⟩ := hbegins
        obtain ⟨rest, rfl, rfl, hgo⟩ := replaceWordFrom_nan hbegins
        have hrest : IsContent rest := (hs.of_cons (by decide)).of_cons (by decide)
        obtain ⟨hcontent, k, hunits, -⟩ := ih rest.length (by simp at hlength; omega) hrest true rfl
        rw [hgo, units_plain hn, units_plain ha, units_plain hn, units_plain hn, units_plain hu,
          units_plain hl, units_plain hl]
        exact ⟨.plain hn (.plain hu (.plain hl (.plain hl hcontent))), k + 1, .word 'n' hunits,
          nofun⟩
      · obtain ⟨hcontent, k, hunits, hsame⟩ :=
          ih s.length (by simp at hlength; omega) hs (isWordChar c) rfl
        rw [Text.replaceWordFrom_of_not_begins nullWord hbegins, units_plain hc, units_plain hc]
        exact ⟨.plain hc hcontent, k, .cons _ hunits, fun hk => congrArg (c :: ·) (hsame hk)⟩
    | @short e c s he hs =>
      -- The character behind a backslash may begin the word.
      rw [replaceWordFrom_ne (by decide)]
      by_cases hbegins : Begins nan (e :: s)
      · obtain ⟨rest, rfl, rfl, hgo⟩ := replaceWordFrom_nan hbegins
        have hrest : IsContent rest := (hs.of_cons (by decide)).of_cons (by decide)
        obtain ⟨hcontent, k, hunits, -⟩ := ih rest.length (by simp at hlength; omega) hrest true rfl
        have hslash : isWordChar '\\' = false := by decide
        rw [hslash, hgo, units_short he, units_plain ha, units_plain hn, units_short he,
          units_plain hu, units_plain hl, units_plain hl]
        exact ⟨.short he (.plain hu (.plain hl (.plain hl hcontent))), k + 1, .word c hunits, nofun⟩
      · obtain ⟨hcontent, k, hunits, hsame⟩ :=
          ih s.length (by simp at hlength; omega) hs (isWordChar e) rfl
        rw [Text.replaceWordFrom_of_not_begins nullWord fun h => hbegins h.2, units_short he,
          units_short he]
        refine ⟨.short he hcontent, k, .cons _ hunits, fun hk => ?_⟩
        rw [hsame hk]
    | @code a b c d i j k l s ha hb hc hd hs =>
      obtain ⟨hcontent, k, hunits, hsame⟩ :=
        ih s.length (by simp at hlength; omega) hs (isWordChar d) rfl
      rw [replaceWordFrom_ne (by decide), replaceWordFrom_ne (by decide),
        replaceWordFrom_ne (ne_of_hexValue? ha), replaceWordFrom_ne (ne_of_hexValue? hb),
        replaceWordFrom_ne (ne_of_hexValue? hc), replaceWordFrom_ne (ne_of_hexValue? hd)]
      refine ⟨.code ha hb hc hd hcontent, k, ?_, fun hk => ?_⟩
      · rw [units, units]
        exact .cons _ hunits
      · rw [hsame hk]

/-- The literal in which the word is replaced. -/
def StringText.replaced (s : StringText) : StringText :=
  ⟨rewritten s.content, (s.isContent.replaceWordFrom false).1⟩

/-! ## What a rewritten literal denotes -/

/-- A text before and after `k` words in it are replaced: it has `k` more characters, and the
letters of the words show which of the two it is. -/
structure Reworded (k : ℕ) (s t : List Char) : Prop where
  length_eq : t.length = s.length + k
  eq_of_zero : k = 0 → s = t
  letters : 0 < k → ('a' ∈ s ∧ 'n' ∈ s) ∧ 'u' ∈ t ∧ 'l' ∈ t

/-- A character in front stays. -/
theorem Reworded.cons {k : ℕ} {s t : List Char} (h : Reworded k s t) (c : Char) :
    Reworded k (c :: s) (c :: t) where
  length_eq := by
    rw [List.length_cons, List.length_cons, h.length_eq]
    omega
  eq_of_zero hk := congrArg (c :: ·) (h.eq_of_zero hk)
  letters hk := by
    obtain ⟨⟨ha, hn⟩, hu, hl⟩ := h.letters hk
    exact ⟨⟨List.mem_cons_of_mem c ha, List.mem_cons_of_mem c hn⟩, List.mem_cons_of_mem c hu,
      List.mem_cons_of_mem c hl⟩

/-- One word more is replaced. -/
theorem Reworded.word {k : ℕ} {s t : List Char} (h : Reworded k s t) (c : Char) :
    Reworded (k + 1) (c :: 'a' :: 'n' :: s) (c :: 'u' :: 'l' :: 'l' :: t) where
  length_eq := by
    simp only [List.length_cons, h.length_eq]
    omega
  eq_of_zero := nofun
  letters _ := by simp

/-- What may be denoted before and after is so with one more character in front. -/
theorem rel_map_cons {k : ℕ} {s t : Option (List Char)} (h : Option.Rel (Reworded k) s t)
    (c : Char) : Option.Rel (Reworded k) (s.map (c :: ·)) (t.map (c :: ·)) := by
  cases h with
  | none => exact .none
  | some h => exact .some (h.cons c)

/-- An escape in front of a character stands for itself. -/
theorem textOfUnits?_code_char (n : ℕ) (c : Char) (us : List Unit16) :
    textOfUnits? (.code n :: .char c :: us) =
      if 0xD800 ≤ n ∧ n < 0xE000 then none
      else (textOfUnits? (.char c :: us)).map (Char.ofNat n :: ·) := by
  rw [textOfUnits?.eq_def]

/-- A literal denotes a text before words in it are replaced if it does so afterwards, also with an
escape in front of it. -/
theorem Respelled.rel_textOfUnits? {k : ℕ} {us vs : List Unit16} (h : Respelled k us vs) :
    Option.Rel (Reworded k) (textOfUnits? us) (textOfUnits? vs) ∧ ∀ n,
      Option.Rel (Reworded k) (textOfUnits? (.code n :: us)) (textOfUnits? (.code n :: vs)) := by
  have hcode : ∀ {k : ℕ} {c : Char} {us vs : List Unit16},
      Option.Rel (Reworded k) (textOfUnits? (.char c :: us)) (textOfUnits? (.char c :: vs)) →
        ∀ n, Option.Rel (Reworded k) (textOfUnits? (.code n :: .char c :: us))
          (textOfUnits? (.code n :: .char c :: vs)) := by
    intro k c us vs h n
    rw [textOfUnits?_code_char, textOfUnits?_code_char]
    split
    · exact .none
    · exact rel_map_cons h _
  induction h with
  | nil =>
    have hsame : ∀ o : Option (List Char), Option.Rel (Reworded 0) o o := fun o => by
      cases o with
      | none => exact .none
      | some s => exact .some ⟨rfl, fun _ => rfl, nofun⟩
    exact ⟨hsame _, fun n => hsame _⟩
  | @cons u k us vs h ih =>
    cases u with
    | char c =>
      have hchar := rel_map_cons ih.1 c
      exact ⟨hchar, hcode hchar⟩
    | code lo =>
      refine ⟨ih.2 lo, fun hi => ?_⟩
      rw [textOfUnits?, textOfUnits?]
      split
      · split
        · exact rel_map_cons ih.1 _
        · exact .none
      · split
        · exact .none
        · exact rel_map_cons (ih.2 lo) _
  | @word c k us vs h ih =>
    have hword : Option.Rel (Reworded (k + 1))
        (textOfUnits? (.char c :: .char 'a' :: .char 'n' :: us))
        (textOfUnits? (.char c :: .char 'u' :: .char 'l' :: .char 'l' :: vs)) := by
      have hrest := ih.1
      simp only [textOfUnits?]
      generalize textOfUnits? us = s at hrest ⊢
      generalize textOfUnits? vs = t at hrest ⊢
      cases hrest with
      | none => exact .none
      | some h => exact .some (h.word c)
    exact ⟨hword, hcode hword⟩

/-- A literal denotes a text before words in it are replaced if it does so afterwards, and another
one if there are any. -/
theorem StringText.rel_replaced (s : StringText) : ∃ k,
    Option.Rel (Reworded k) (textOfUnits? (units s.content))
      (textOfUnits? (units s.replaced.content)) ∧ (k = 0 → s.replaced = s) := by
  obtain ⟨-, k, hunits, hsame⟩ := s.isContent.replaceWordFrom false
  exact ⟨k, hunits.rel_textOfUnits?.1, fun hk => StringText.ext (hsame hk)⟩

/-! ## Rewriting texts -/

mutual
/-- The text in which words in string literals are replaced. -/
def Source.replaced : Source → Source
  | .null => .null
  | .bool b => .bool b
  | .number n => .number n
  | .string s => .string s.replaced
  | .emptyArray gap => .emptyArray gap
  | .array items => .array items.replaced
  | .emptyObject gap => .emptyObject gap
  | .object members => .object members.replaced

@[inherit_doc Source.replaced]
def Items.replaced : Items → Items
  | .last before item after => .last before item.replaced after
  | .more before item after rest => .more before item.replaced after rest.replaced

@[inherit_doc Source.replaced]
def Members.replaced : Members → Members
  | .last outer name inner before item after =>
    .last outer name.replaced inner before item.replaced after
  | .more outer name inner before item after rest =>
    .more outer name.replaced inner before item.replaced after rest.replaced
end

/-- White space is no part of a word. -/
theorem Gap.isWordChar (gap : Gap) : ∀ c ∈ gap.text, isWordChar c = false := by
  intro c hc
  have hspace := gap.space c hc
  simp only [isSpace, Bool.or_eq_true, decide_eq_true_eq, or_assoc] at hspace
  rcases hspace with rfl | rfl | rfl | rfl <;> decide

/-- White space in front of a text stays. -/
theorem rewritten_gap (gap : Gap) (s : List Char) :
    rewritten (gap.text ++ s) = gap.text ++ rewritten s :=
  isWord_nan.replaceWord_append nullWord gap.isWordChar s

/-- White space stays. -/
theorem rewritten_gap_nil (gap : Gap) : rewritten gap.text = gap.text := by
  have hgap := rewritten_gap gap []
  rw [List.append_nil] at hgap
  exact hgap.trans (List.append_nil _)

/-- White space begins outside of words. -/
theorem startsOutsideWord_gap (gap : Gap) {s : List Char} (h : startsOutsideWord s = true) :
    startsOutsideWord (gap.text ++ s) = true := by
  cases hgap : gap.text with
  | nil => exact h
  | cons c cs =>
    have hc := gap.isWordChar c (hgap ▸ List.mem_cons_self)
    simp [startsOutsideWord, hc]

/-- A mark in front of a text stays. -/
theorem rewritten_cons {c : Char} (hc : isWordChar c = false) (s : List Char) :
    rewritten (c :: s) = c :: rewritten s :=
  isWord_nan.replaceWord_cons nullWord hc s

/-- Texts that meet outside of words are rewritten one by one. -/
theorem rewritten_append (s : List Char) {t : List Char} (h : startsOutsideWord t = true) :
    rewritten (s ++ t) = rewritten s ++ rewritten t :=
  isWord_nan.replaceWordFrom_append nullWord h s false

/-- A string literal in front of a text is rewritten between its quotes. -/
theorem rewritten_string (s : StringText) (t : List Char) :
    rewritten (s.text ++ t) = s.replaced.text ++ rewritten t := by
  rw [StringText.text, List.cons_append, List.append_assoc, List.singleton_append,
    rewritten_cons (by decide), rewritten_append _ (by rfl), rewritten_cons (by decide),
    StringText.text, List.cons_append, List.append_assoc, List.singleton_append]
  rfl

/-- A character of a power of ten is a digit, a sign or the letter. -/
theorem PowerText.of_mem_text {p : PowerText} {c : Char} (h : c ∈ p.text) :
    Text.isDigit c = true ∨ c ∈ ['-', '+', '.', 'e', 'E'] := by
  rw [PowerText.text] at h
  rcases List.mem_cons.mp h with rfl | h
  · rcases p.isLetter with hletter | hletter <;> rw [hletter] <;> exact .inr (by decide)
  · rcases List.mem_append.mp h with h | h
    · split at h <;> simp at h <;> simp [h]
    · exact .inl (p.digits.digits c h)

/-- A character of a number is a digit, a sign, a point or the letter of a power. -/
theorem NumberText.of_mem_text {n : NumberText} {c : Char} (h : c ∈ n.text) :
    Text.isDigit c = true ∨ c ∈ ['-', '+', '.', 'e', 'E'] := by
  rw [NumberText.text, NumberText.fractionText, NumberText.powerText] at h
  rcases List.mem_append.mp h with h | h
  · cases hnegative : n.negative <;> simp [hnegative] at h
    simp [h]
  · rcases List.mem_append.mp h with h | h
    · exact .inl (n.whole.digits c h)
    · rcases List.mem_append.mp h with h | h
      · cases hfraction : n.fraction with
        | none => simp [hfraction] at h
        | some ds =>
          rw [hfraction] at h
          rcases List.mem_cons.mp h with rfl | h
          · exact .inr (by decide)
          · exact .inl (ds.digits c h)
      · cases hpower : n.power with
        | none => simp [hpower] at h
        | some p =>
          rw [hpower] at h
          exact PowerText.of_mem_text h

mutual
/-- Rewriting a text replaces words in its string literals, and nothing else. -/
theorem Source.rewritten_text (v : Source) : rewritten v.text = v.replaced.text := by
  match v with
  | .null | .bool true | .bool false => decide
  | .number n =>
    refine Text.replaceWord_eq_self nullWord (c := 'a') (by decide) fun h => ?_
    rcases NumberText.of_mem_text h with h | h <;> exact absurd h (by decide)
  | .string s =>
    have hstring := rewritten_string s []
    rw [List.append_nil] at hstring
    exact hstring.trans (List.append_nil _)
  | .emptyArray gap | .emptyObject gap =>
    rw [Source.replaced, Source.text, rewritten_cons (by decide), rewritten_gap]
    rfl
  | .array items =>
    rw [Source.replaced, Source.text, Source.text, rewritten_cons (by decide),
      rewritten_append _ (by decide), items.rewritten_text]
    rfl
  | .object members =>
    rw [Source.replaced, Source.text, Source.text, rewritten_cons (by decide),
      rewritten_append _ (by decide), members.rewritten_text]
    rfl

/-- Rewriting the items of an array replaces words in their string literals. -/
theorem Items.rewritten_text (items : Items) : rewritten items.text = items.replaced.text := by
  match items with
  | .last before item after =>
    have hafter := startsOutsideWord_gap after (s := []) rfl
    rw [List.append_nil] at hafter
    rw [Items.replaced, Items.text, Items.text, rewritten_gap, rewritten_append _ hafter,
      item.rewritten_text, rewritten_gap_nil]
  | .more before item after rest =>
    have hafter := startsOutsideWord_gap after (s := ',' :: rest.text) rfl
    rw [Items.replaced, Items.text, Items.text, rewritten_gap, rewritten_append _ hafter,
      item.rewritten_text, rewritten_gap, rewritten_cons (by decide), rest.rewritten_text]

/-- Rewriting the members of an object replaces words in their string literals. -/
theorem Members.rewritten_text (members : Members) :
    rewritten members.text = members.replaced.text := by
  match members with
  | .last outer name inner before item after =>
    have hafter := startsOutsideWord_gap after (s := []) rfl
    rw [List.append_nil] at hafter
    rw [Members.replaced, Members.text, Members.text, rewritten_gap, rewritten_string,
      rewritten_gap, rewritten_cons (by decide), rewritten_gap, rewritten_append _ hafter,
      item.rewritten_text, rewritten_gap_nil]
  | .more outer name inner before item after rest =>
    have hafter := startsOutsideWord_gap after (s := ',' :: rest.text) rfl
    rw [Members.replaced, Members.text, Members.text, rewritten_gap, rewritten_string,
      rewritten_gap, rewritten_cons (by decide), rewritten_gap, rewritten_append _ hafter,
      item.rewritten_text, rewritten_gap, rewritten_cons (by decide), rest.rewritten_text]
end

/-! ## Rewriting columns -/

/-- White space of a JSON text is white space. -/
theorem Gap.isBlank (gap : Gap) : ∀ c ∈ gap.text, Text.isBlank c = true := by
  intro c hc
  have hspace := gap.space c hc
  simp only [isSpace, Bool.or_eq_true, decide_eq_true_eq, or_assoc] at hspace
  rcases hspace with rfl | rfl | rfl | rfl <;> decide

/-- A text does not begin or end with white space. -/
theorem Source.isBlank_ends (v : Source) : (∀ c ∈ v.text.head?, Text.isBlank c = false) ∧
    ∀ c ∈ v.text.getLast?, Text.isBlank c = false := by
  have hwrapped : ∀ {first last : Char} {s : List Char}, Text.isBlank first = false →
      Text.isBlank last = false → (∀ c ∈ (first :: (s ++ [last])).head?, Text.isBlank c = false) ∧
        ∀ c ∈ (first :: (s ++ [last])).getLast?, Text.isBlank c = false := by
    intro first last s hfirst hlast
    refine ⟨fun c hc => ?_, fun c hc => ?_⟩
    · cases hc
      exact hfirst
    · rw [← List.cons_append, List.getLast?_concat] at hc
      cases hc
      exact hlast
  cases v with
  | null => exact @hwrapped 'n' 'l' ['u', 'l'] (by decide) (by decide)
  | bool b =>
    cases b with
    | true => exact @hwrapped 't' 'e' ['r', 'u'] (by decide) (by decide)
    | false => exact @hwrapped 'f' 'e' ['a', 'l', 's'] (by decide) (by decide)
  | number n =>
    have hmarks : ∀ c ∈ ['-', '+', '.', 'e', 'E'], Text.isBlank c = false := by
      simp only [List.mem_cons, List.not_mem_nil, or_false, forall_eq_or_imp, forall_eq]
      decide
    have hall : ∀ c ∈ n.text, Text.isBlank c = false := fun c hc => by
      rcases NumberText.of_mem_text hc with hdigit | hmark
      · exact isBlank_of_isDigit hdigit
      · exact hmarks c hmark
    exact ⟨fun c hc => hall c (List.mem_of_head? hc), fun c hc => hall c (List.mem_of_getLast? hc)⟩
  | string s | emptyArray gap | array items | emptyObject gap | object members =>
    exact hwrapped (by decide) (by decide)

/-- A column: a text with white space around it. -/
structure Column where
  before : Gap
  source : Source
  after : Gap

/-- The text of a column. -/
def Column.text (column : Column) : List Char :=
  column.before.text ++ (column.source.text ++ column.after.text)

/-- A column is trimmed. -/
theorem Column.trim_text (column : Column) : Text.trim column.text = column.source.text := by
  obtain ⟨c, s, hs, -⟩ := column.source.exists_cons
  obtain ⟨hhead, hlast⟩ := column.source.isBlank_ends
  rw [Column.text, ← List.append_assoc]
  exact Text.trim_append_append column.before.isBlank column.after.isBlank
    (hs ▸ List.cons_ne_nil c s) hhead hlast

/-- Without apostrophes a column is read as the text in which the words in string literals are
replaced. -/
theorem Column.read?_columnJson (column : Column) (h : '\'' ∉ column.text) :
    read? (columnJson column.text) = some column.source.replaced.value := by
  have hquotes : Text.replaceChar '\'' '"' column.source.text = column.source.text := by
    have hfree : '\'' ∉ column.source.text := fun hc =>
      h (List.mem_append_right _ (List.mem_append_left _ hc))
    refine (List.map_congr_left fun c hc => if_neg ?_).trans (List.map_id' _)
    rintro rfl
    exact hfree hc
  have hread := Source.read?_text .none column.source.replaced .none
  rw [Gap.none_append, Gap.none, List.append_nil, ← column.source.rewritten_text] at hread
  rw [columnJson, column.trim_text, hquotes]
  exact hread

end Json

end SolverPortfolio
