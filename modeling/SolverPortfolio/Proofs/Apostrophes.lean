import SolverPortfolio.Proofs.JsonGrammar
import SolverPortfolio.Proofs.Rewriting

/-
# Apostrophes in the columns of a knowledge base

Apostrophes become quotes wherever they stand in a column. In a JSON text quotes that stand behind
no backslash come in pairs, and replacing words does not change their number. Apostrophes stand in
string literals only, and not behind a backslash, so each of them is one quote more. Where their
number is odd the column is no JSON text any more, and it is not read.

Main definitions: `Json.quotes`, `Json.Paired`, `IsInert`.
Main statements: `Json.quotes_replaceWordFrom`, `Json.IsContent.quotes_requoted`,
`Json.Source.paired`, `Json.Column.read?_columnJson_of_odd`.
-/

namespace SolverPortfolio

/-! ## Inert characters -/

/-- A character that is no quote, apostrophe, backslash or bar. -/
def IsInert (c : Char) : Prop := c ≠ '"' ∧ c ≠ '\'' ∧ c ≠ '\\' ∧ c ≠ '|'

/-- Whether a character is inert can be seen. -/
instance (c : Char) : Decidable (IsInert c) := inferInstanceAs (Decidable (_ ∧ _))

/-- Whether a text is inert can be seen. -/
theorem isInert_of_all {s : List Char} (h : s.all (fun c => decide (IsInert c)) = true) :
    ∀ c ∈ s, IsInert c :=
  fun c hc => of_decide_eq_true (List.all_eq_true.mp h c hc)

/-- White space is inert. -/
theorem Json.Gap.isInert (gap : Json.Gap) : ∀ c ∈ gap.text, IsInert c := by
  intro c hc
  have hspace := gap.space c hc
  simp only [Json.isSpace, Bool.or_eq_true, decide_eq_true_eq, or_assoc] at hspace
  rcases hspace with rfl | rfl | rfl | rfl <;> decide

/-- A number is inert. -/
theorem Json.NumberText.isInert (n : Json.NumberText) : ∀ c ∈ n.text, IsInert c := by
  intro c hc
  rcases Json.NumberText.of_mem_text hc with hdigit | hmark
  · refine ⟨?_, ?_, ?_, ?_⟩ <;>
    · rintro rfl
      cases hdigit
  · exact isInert_of_all (by decide) c hmark

/-- A hexadecimal digit is inert. -/
theorem Json.isInert_of_hexValue? {c : Char} {n : ℕ} (h : Json.hexValue? c = some n) :
    IsInert c := by
  refine ⟨?_, ?_, ?_, ?_⟩ <;>
  · rintro rfl
    cases h

namespace Text

/-- What stands in a text after words are replaced stood there before or stands in the new word. -/
theorem mem_of_mem_replaceWordFrom {word new : List Char} {c : Char} {s : List Char} {skip : ℕ}
    {inside : Bool} (h : c ∈ replaceWordFrom word new skip inside s) : c ∈ new ∨ c ∈ s := by
  induction s generalizing skip inside with
  | nil => cases skip <;> cases h
  | cons d s ih =>
    cases skip with
    | succ skip => exact (ih h).imp_right (List.mem_cons_of_mem d)
    | zero =>
      rw [replaceWordFrom] at h
      split at h
      · rcases List.mem_append.mp h with h | h
        · exact .inl h
        · exact (ih h).imp_right (List.mem_cons_of_mem d)
      · rcases List.mem_cons.mp h with rfl | h
        · exact .inr List.mem_cons_self
        · exact (ih h).imp_right (List.mem_cons_of_mem d)

end Text

namespace Json

open Text (Begins isWordChar replaceChar replaceWordFrom)

/-! ## Counting quotes -/

/-- The number of quotes in a text that do not stand behind a backslash. -/
def quotes : List Char → ℕ
  | [] => 0
  | '\\' :: _ :: s => quotes s
  | c :: s => (if c = '"' then 1 else 0) + quotes s

/-- Any character but a backslash counts by itself. -/
theorem quotes_cons {c : Char} (hc : c ≠ '\\') (s : List Char) :
    quotes (c :: s) = (if c = '"' then 1 else 0) + quotes s := by
  rw [quotes.eq_def]
  split
  · next heq => cases heq
  · next heq =>
    cases heq
    exact absurd rfl hc
  · next heq =>
    cases heq
    rfl

/-- A quote counts. -/
theorem quotes_quote (s : List Char) : quotes ('"' :: s) = 1 + quotes s :=
  quotes_cons (by decide) s

/-- Inert characters do not count. -/
theorem quotes_append {s : List Char} (h : ∀ c ∈ s, IsInert c) (t : List Char) :
    quotes (s ++ t) = quotes t := by
  induction s with
  | nil => rfl
  | cons c s ih =>
    obtain ⟨hquote, -, hslash, -⟩ := h c List.mem_cons_self
    rw [List.cons_append, quotes_cons hslash, if_neg hquote, Nat.zero_add,
      ih fun d hd => h d (List.mem_cons_of_mem c hd)]

/-- Replacing words leaves the number of quotes as it is. -/
theorem quotes_replaceWordFrom (s : List Char) (inside : Bool) :
    quotes (replaceWordFrom nan nullWord 0 inside s) = quotes s := by
  have hnan : ∀ c ∈ nan, IsInert c := isInert_of_all (by decide)
  have hnull : ∀ c ∈ nullWord, IsInert c := isInert_of_all (by decide)
  induction hlength : s.length using Nat.strongRecOn generalizing s inside with
  | ind n ih =>
    cases s with
    | nil => rfl
    | cons c s =>
      rw [List.length_cons] at hlength
      by_cases hbegins : inside = false ∧ Begins nan (c :: s)
      · obtain ⟨rfl, hbegins⟩ := hbegins
        obtain ⟨rest, rfl, rfl, hgo⟩ := replaceWordFrom_nan hbegins
        have hrest := ih rest.length (by simp at hlength; omega) rest true rfl
        rw [hgo]
        exact (quotes_append hnull _).trans (hrest.trans (quotes_append hnan rest).symm)
      · rw [Text.replaceWordFrom_of_not_begins nullWord hbegins]
        by_cases hc : c = '\\'
        · subst hc
          -- The character behind a backslash may begin the word.
          cases s with
          | nil => rfl
          | cons e s =>
            rw [List.length_cons] at hlength
            have hslash : isWordChar '\\' = false := by decide
            rw [hslash]
            by_cases hbegins : Begins nan (e :: s)
            · obtain ⟨rest, rfl, rfl, hgo⟩ := replaceWordFrom_nan hbegins
              have hrest := ih rest.length (by simp at hlength; omega) rest true rfl
              rw [hgo]
              exact (quotes_append (fun c hc => hnull c (List.mem_cons_of_mem 'n' hc)) _).trans
                (hrest.trans
                  (quotes_append (fun c hc => hnan c (List.mem_cons_of_mem 'n' hc)) rest).symm)
            · rw [Text.replaceWordFrom_of_not_begins nullWord fun h => hbegins h.2]
              exact ih s.length (by omega) s _ rfl
        · rw [quotes_cons hc, quotes_cons hc, ih s.length (by omega) s _ rfl]

/-! ## Quotes of JSON texts -/

/-- The text in which apostrophes are quotes. -/
def requoted (s : List Char) : List Char := replaceChar '\'' '"' s

/-- Texts are requoted one by one. -/
theorem requoted_append (s t : List Char) : requoted (s ++ t) = requoted s ++ requoted t :=
  List.map_append

/-- Without apostrophes a text stays. -/
theorem requoted_eq_self {s : List Char} (h : '\'' ∉ s) : requoted s = s := by
  refine (List.map_congr_left fun c hc => if_neg ?_).trans (List.map_id' _)
  rintro rfl
  exact h hc

/-- In a part of a text quotes come in pairs, but for the apostrophes that become quotes. -/
def Paired (s : List Char) : Prop :=
  ∀ t, quotes (requoted s ++ t) % 2 = (s.count '\'' + quotes t) % 2

/-- Parts that stand one behind the other are paired if each of them is. -/
theorem Paired.append {s t : List Char} (hs : Paired s) (ht : Paired t) : Paired (s ++ t) := by
  intro u
  have hfirst := hs (requoted t ++ u)
  have hsecond := ht u
  rw [requoted_append, List.append_assoc, List.count_append]
  omega

/-- Inert characters are paired. -/
theorem paired_of_isInert {s : List Char} (h : ∀ c ∈ s, IsInert c) : Paired s := by
  intro t
  have hnone : '\'' ∉ s := fun hc => (h _ hc).2.1 rfl
  rw [requoted_eq_self hnone, quotes_append h, List.count_eq_zero_of_not_mem hnone, Nat.zero_add]

/-- An inert character in front is paired. -/
theorem Paired.cons {c : Char} (hc : IsInert c) {s : List Char} (hs : Paired s) :
    Paired (c :: s) :=
  Paired.append (paired_of_isInert (List.forall_mem_singleton.mpr hc)) hs

/-- The content of a literal has no quotes but its apostrophes. -/
theorem IsContent.quotes_requoted {s : List Char} (h : IsContent s) (t : List Char) :
    quotes (requoted s ++ t) = s.count '\'' + quotes t := by
  induction h with
  | nil => exact (Nat.zero_add _).symm
  | @plain c s hplain hs ih =>
    simp only [isPlain, Bool.and_eq_true, bne_iff_ne] at hplain
    obtain ⟨⟨-, hquote⟩, hslash⟩ := hplain
    by_cases hc : c = '\''
    · subst hc
      have hcons : requoted ('\'' :: s) ++ t = '"' :: (requoted s ++ t) := rfl
      rw [hcons, quotes_quote, ih, List.count_cons_self]
      omega
    · have hcons : requoted (c :: s) ++ t = c :: (requoted s ++ t) :=
        congrArg (· :: (requoted s ++ t)) (if_neg hc)
      rw [hcons, quotes_cons hslash, if_neg hquote, Nat.zero_add, ih, List.count_cons_of_ne hc]
  | @short e c s he hs ih =>
    have hescaped : e ≠ '\'' := by
      rintro rfl
      cases he
    rw [List.count_cons_of_ne (by decide), List.count_cons_of_ne hescaped]
    exact ih
  | @code a b c d i j k l s ha hb hc hd hs ih =>
    have hdigits : ∀ x ∈ [a, b, c, d], IsInert x := by
      simp only [List.mem_cons, List.not_mem_nil, or_false, forall_eq_or_imp, forall_eq]
      exact ⟨isInert_of_hexValue? ha, isInert_of_hexValue? hb, isInert_of_hexValue? hc,
        isInert_of_hexValue? hd⟩
    have hnone : '\'' ∉ ['\\', 'u', a, b, c, d] := by
      rw [List.mem_cons, List.mem_cons, not_or, not_or]
      exact ⟨by decide, by decide, fun h => (hdigits _ h).2.1 rfl⟩
    calc quotes (requoted (['\\', 'u', a, b, c, d] ++ s) ++ t)
        = quotes ([a, b, c, d] ++ (requoted s ++ t)) := by
          rw [requoted_append, requoted_eq_self hnone]
          rfl
      _ = s.count '\'' + quotes t := by rw [quotes_append hdigits, ih]
      _ = (['\\', 'u', a, b, c, d] ++ s).count '\'' + quotes t := by
          rw [List.count_append, List.count_eq_zero_of_not_mem hnone, Nat.zero_add]

/-- A string literal is paired. -/
theorem StringText.paired (s : StringText) : Paired s.text := by
  intro t
  have hcontent := s.isContent.quotes_requoted ('"' :: t)
  have htext : requoted s.text ++ t = '"' :: (requoted s.content ++ '"' :: t) := by
    rw [StringText.text, ← List.singleton_append, requoted_append, requoted_append,
      List.append_assoc, List.append_assoc]
    rfl
  have hcount : s.text.count '\'' = s.content.count '\'' := by
    rw [StringText.text, List.count_cons_of_ne (by decide), List.count_append]
    rfl
  rw [htext, quotes_quote, hcontent, quotes_quote, hcount]
  omega

/-- White space is paired. -/
theorem Gap.paired (gap : Gap) : Paired gap.text := paired_of_isInert gap.isInert

mutual
/-- A text is paired. -/
theorem Source.paired (v : Source) : Paired v.text := by
  have hwrapped : ∀ {first last : Char} {s : List Char}, IsInert first → IsInert last →
      Paired s → Paired (first :: (s ++ [last])) := by
    intro first last s hfirst hlast hs
    exact .cons hfirst (.append hs (paired_of_isInert (List.forall_mem_singleton.mpr hlast)))
  cases v with
  | null => exact paired_of_isInert (isInert_of_all (by decide))
  | bool b => cases b <;> exact paired_of_isInert (isInert_of_all (by decide))
  | number n => exact paired_of_isInert n.isInert
  | string s => exact s.paired
  | emptyArray gap => exact hwrapped (by decide) (by decide) gap.paired
  | array items => exact hwrapped (by decide) (by decide) items.paired
  | emptyObject gap => exact hwrapped (by decide) (by decide) gap.paired
  | object members => exact hwrapped (by decide) (by decide) members.paired

/-- The items of an array are paired. -/
theorem Items.paired (items : Items) : Paired items.text := by
  cases items with
  | last before item after => exact before.paired.append (item.paired.append after.paired)
  | more before item after rest =>
    exact before.paired.append (item.paired.append
      (after.paired.append (.cons (by decide) rest.paired)))

/-- The members of an object are paired. -/
theorem Members.paired (members : Members) : Paired members.text := by
  cases members with
  | last outer name inner before item after =>
    exact outer.paired.append (name.paired.append (inner.paired.append (.cons (by decide)
      (before.paired.append (item.paired.append after.paired)))))
  | more outer name inner before item after rest =>
    exact outer.paired.append (name.paired.append (inner.paired.append (.cons (by decide)
      (before.paired.append (item.paired.append
        (after.paired.append (.cons (by decide) rest.paired)))))))
end

/-! ## Columns -/

/-- A text without apostrophes has an even number of quotes. -/
theorem Source.quotes_text (before : Gap) (v : Source) (after : Gap) (h : '\'' ∉ v.text) :
    quotes (before.text ++ (v.text ++ after.text)) % 2 = 0 := by
  have hend : quotes after.text = 0 := by
    have hafter := quotes_append after.isInert []
    rwa [List.append_nil] at hafter
  have hpaired := v.paired after.text
  rw [requoted_eq_self h, List.count_eq_zero_of_not_mem h, hend] at hpaired
  rw [quotes_append before.isInert, hpaired]

/-- The text of a column: apostrophes are quotes, and words are replaced. -/
theorem Column.columnJson_text (column : Column) :
    columnJson column.text = rewritten (requoted column.source.text) := by
  rw [columnJson, column.trim_text]
  rfl

/-- No apostrophes are left in a column. -/
theorem Column.not_mem_columnJson (column : Column) : '\'' ∉ columnJson column.text := by
  intro h
  rw [column.columnJson_text] at h
  rcases Text.mem_of_mem_replaceWordFrom h with hword | hquoted
  · exact absurd hword (by decide)
  · obtain ⟨d, -, hd⟩ := List.mem_map.mp hquoted
    split at hd
    · cases hd
    · next hne => exact hne hd

/-- The number of quotes in a column is odd just if that of its apostrophes is. -/
theorem Column.quotes_columnJson (column : Column) :
    quotes (columnJson column.text) % 2 = column.text.count '\'' % 2 := by
  have hgap : ∀ gap : Gap, gap.text.count '\'' = 0 := fun gap =>
    List.count_eq_zero_of_not_mem fun hc => (gap.isInert _ hc).2.1 rfl
  have hcount : column.text.count '\'' = column.source.text.count '\'' := by
    rw [Column.text, List.count_append, List.count_append, hgap, hgap, Nat.zero_add, Nat.add_zero]
  have hpaired := column.source.paired []
  rw [List.append_nil] at hpaired
  rw [column.columnJson_text, rewritten, Text.replaceWord, quotes_replaceWordFrom, hpaired, hcount]
  rfl

/-- A column with an odd number of apostrophes is not read. -/
theorem Column.read?_columnJson_of_odd (column : Column) (h : column.text.count '\'' % 2 = 1) :
    read? (columnJson column.text) = none := by
  by_contra hread
  obtain ⟨v, hv⟩ := Option.ne_none_iff_exists'.mp hread
  obtain ⟨before, source, after, htext, -⟩ := read?_eq_some_iff.mp hv
  have hnone : '\'' ∉ source.text := fun hc =>
    column.not_mem_columnJson (htext ▸ List.mem_append_right _ (List.mem_append_left _ hc))
  have heven := source.quotes_text before after hnone
  have hodd := column.quotes_columnJson
  rw [htext] at hodd
  omega

end Json

end SolverPortfolio
