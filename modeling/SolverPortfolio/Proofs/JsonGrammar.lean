import Mathlib.Data.List.TakeWhile
import SolverPortfolio.Proofs.JsonText

/-
# What is read as JSON

Nothing but JSON texts is read: what each reader takes from the beginning of a text is a part of the
grammar that denotes what is given back. The readers of values, items and members call each other
with one step less, so what they take is described for a number of steps, and by induction for any
number. Together with the reading of all texts this says that just the texts of the grammar are
accepted.

Main definitions: `Json.ReadsTexts`.
Main statements: `Json.exists_number`, `Json.exists_string`, `Json.readsTexts`,
`Json.read?_eq_some_iff`.
-/

namespace SolverPortfolio.Json

open SolverPortfolio.Number (Literal)
open SolverPortfolio.Text (isDigit)

variable {s rest : List Char}

/-! ## Numbers -/

/-- What is read as digits are digits. -/
theorem exists_digits {ds : List Char} (h : readDigits1? s = some (ds, rest)) :
    ∃ digits : Digits, digits.text = ds ∧ s = ds ++ rest := by
  unfold readDigits1? at h
  dsimp only at h
  split at h
  · cases h
  · next hne =>
    cases h
    have hdigits : ∀ c ∈ s.takeWhile isDigit, isDigit c = true := fun c => List.mem_takeWhile_imp
    have hne' : s.takeWhile isDigit ≠ [] := fun heq => hne (List.isEmpty_iff.mpr heq)
    exact ⟨⟨_, hdigits, hne'⟩, rfl, List.takeWhile_append_dropWhile.symm⟩

/-- What is read as the whole part of a number is one. -/
theorem exists_whole {ds : List Char} (h : readWhole? s = some (ds, rest)) :
    ∃ digits : Digits, digits.text = ds ∧ (ds = ['0'] ∨ ds.head? ≠ some '0') ∧ s = ds ++ rest := by
  have hzero : ∀ c ∈ ['0'], isDigit c = true := List.all_eq_true.mp rfl
  rw [readWhole?.eq_def] at h
  split at h
  · split at h
    · split at h
      · cases h
      · cases h
        exact ⟨⟨['0'], hzero, by decide⟩, rfl, .inl rfl, rfl⟩
    · cases h
      exact ⟨⟨['0'], hzero, by decide⟩, rfl, .inl rfl, rfl⟩
  · next hnot =>
    obtain ⟨digits, rfl, hs⟩ := exists_digits h
    refine ⟨digits, rfl, .inr fun hhead => ?_, hs⟩
    obtain ⟨d, ds, hds, -⟩ := digits.exists_cons
    rw [hds] at hhead hs
    cases hhead
    exact hnot _ hs

/-- What is read as a fraction is one, or there is none. -/
theorem exists_fraction {ds : List Char} (h : readFraction? s = some (ds, rest)) :
    ∃ fraction : Option Digits, ∀ n : NumberText, n.fraction = fraction →
      n.literal.fraction = ds ∧ s = n.fractionText ++ rest := by
  rw [readFraction?.eq_def] at h
  split at h
  · obtain ⟨digits, rfl, rfl⟩ := exists_digits h
    refine ⟨some digits, fun n hn => ?_⟩
    rw [NumberText.literal, NumberText.fractionText, hn]
    exact ⟨rfl, rfl⟩
  · cases h
    refine ⟨none, fun n hn => ?_⟩
    rw [NumberText.literal, NumberText.fractionText, hn]
    exact ⟨rfl, rfl⟩

/-- What is read as a power of ten is one, or there is none. -/
theorem exists_power {e : Int} (h : readPower? s = some (e, rest)) :
    ∃ power : Option PowerText, ∀ n : NumberText, n.power = power →
      n.literal.exponent = e ∧ s = n.powerText ++ rest := by
  have hnone : ∀ n : NumberText, n.power = none →
      n.literal.exponent = 0 ∧ rest = n.powerText ++ rest := by
    intro n hn
    rw [NumberText.literal, NumberText.powerText, hn]
    exact ⟨rfl, rfl⟩
  have hsome : ∀ (p : PowerText) (n : NumberText), n.power = some p →
      n.literal.exponent = p.exponent ∧ p.text ++ rest = n.powerText ++ rest := by
    intro p n hn
    rw [NumberText.literal, NumberText.powerText, hn]
    exact ⟨rfl, rfl⟩
  rw [readPower?.eq_def] at h
  split at h
  · next c s =>
    split at h
    · next hletter =>
      dsimp only at h
      obtain ⟨⟨ds, after⟩, hds, heq⟩ := Option.map_eq_some_iff.mp h
      cases heq
      split at hds <;> obtain ⟨digits, rfl, rfl⟩ := exists_digits hds
      · exact ⟨_, hsome ⟨c, hletter, some true, digits⟩⟩
      · exact ⟨_, hsome ⟨c, hletter, some false, digits⟩⟩
      · exact ⟨_, hsome ⟨c, hletter, none, digits⟩⟩
    · cases h
      exact ⟨none, hnone⟩
  · cases h
    exact ⟨none, hnone⟩

/-- What is read as a number is one. -/
theorem exists_number {l : Literal} (h : readNumber? s = some (l, rest)) :
    ∃ n : NumberText, n.literal = l ∧ s = n.text ++ rest := by
  unfold readNumber? at h
  split at h
  next negative t hsign =>
    have hs : s = (if negative then ['-'] else []) ++ t := by
      split at hsign <;> cases hsign <;> rfl
    obtain ⟨⟨whole, s₁⟩, hwhole, h⟩ := Option.bind_eq_some_iff.mp h
    obtain ⟨⟨ds, s₂⟩, hds, h⟩ := Option.bind_eq_some_iff.mp h
    obtain ⟨⟨e, s₃⟩, he, h⟩ := Option.bind_eq_some_iff.mp h
    cases h
    obtain ⟨digits, rfl, hdigits, rfl⟩ := exists_whole hwhole
    obtain ⟨fraction, hfraction⟩ := exists_fraction hds
    obtain ⟨power, hpower⟩ := exists_power he
    obtain ⟨rfl, rfl⟩ := hfraction ⟨negative, digits, hdigits, fraction, power⟩ rfl
    obtain ⟨rfl, rfl⟩ := hpower ⟨negative, digits, hdigits, fraction, power⟩ rfl
    refine ⟨⟨negative, digits, hdigits, fraction, power⟩, rfl, ?_⟩
    rw [hs, NumberText.text, List.append_assoc, List.append_assoc, List.append_assoc]

/-! ## Strings -/

/-- What is read as the units of a literal is the content of one. -/
theorem exists_content {us : List Unit16} (h : readUnits? s = some (us, rest)) :
    ∃ content, IsContent content ∧ units content = us ∧ s = content ++ '"' :: rest := by
  fun_induction readUnits? s generalizing us with
  | case1 => cases h
  | case2 after =>
    cases h
    exact ⟨[], .nil, rfl, rfl⟩
  | case3 a b c d after ih =>
    obtain ⟨i, ha, h⟩ := Option.bind_eq_some_iff.mp h
    obtain ⟨j, hb, h⟩ := Option.bind_eq_some_iff.mp h
    obtain ⟨k, hc, h⟩ := Option.bind_eq_some_iff.mp h
    obtain ⟨l, hd, h⟩ := Option.bind_eq_some_iff.mp h
    obtain ⟨⟨us, more⟩, hrest, h⟩ := Option.bind_eq_some_iff.mp h
    cases h
    obtain ⟨content, hcontent, rfl, rfl⟩ := ih hrest
    refine ⟨_, .code ha hb hc hd hcontent, ?_, rfl⟩
    simp only [units, ha, hb, hc, hd, Option.getD_some]
  | case4 e after hcode ih =>
    obtain ⟨c, he, h⟩ := Option.bind_eq_some_iff.mp h
    obtain ⟨⟨us, more⟩, hrest, h⟩ := Option.bind_eq_some_iff.mp h
    cases h
    obtain ⟨content, hcontent, rfl, rfl⟩ := ih hrest
    exact ⟨_, .short he hcontent, units_short he content, rfl⟩
  | case5 c after hquote hcode hshort hlow => cases h
  | case6 c after hquote hcode hshort hlow ih =>
    obtain ⟨⟨us, more⟩, hrest, h⟩ := Option.bind_eq_some_iff.mp h
    cases h
    obtain ⟨content, hcontent, rfl, rfl⟩ := ih hrest
    have hslash : c ≠ '\\' := by
      rintro rfl
      obtain ⟨d, t, ht⟩ : ∃ d t, content ++ '"' :: rest = d :: t := by
        cases content <;> exact ⟨_, _, rfl⟩
      exact hshort d t rfl ht
    have hplain : isPlain c = true := by
      simp only [isPlain, Bool.and_eq_true, decide_eq_true_eq, bne_iff_ne]
      exact ⟨⟨Nat.le_of_not_lt hlow, hquote⟩, hslash⟩
    exact ⟨_, .plain hplain hcontent, units_plain hplain content, rfl⟩

/-- What is read as a string is a literal behind its opening quote. -/
theorem exists_string {text : Option String} (h : readString? s = some (text, rest)) :
    ∃ t : StringText, t.value? = text ∧ s = t.content ++ '"' :: rest := by
  obtain ⟨⟨us, after⟩, hunits, h⟩ := Option.map_eq_some_iff.mp h
  cases h
  obtain ⟨content, hcontent, rfl, rfl⟩ := exists_content hunits
  exact ⟨⟨content, hcontent⟩, rfl, rfl⟩

/-! ## Values -/

/-- What is passed over is white space. -/
theorem exists_gap (s : List Char) : ∃ gap : Gap, s = gap.text ++ skipSpace s :=
  ⟨⟨s.takeWhile isSpace, fun _ => List.mem_takeWhile_imp⟩, List.takeWhile_append_dropWhile.symm⟩

/-- A word is read as it stands. -/
theorem eq_append_of_readWord? {word : String} (h : readWord? word s = some rest) :
    s = word.toList ++ rest := by
  unfold readWord? at h
  split at h
  · next hprefix =>
    obtain ⟨t, rfl⟩ := List.isPrefixOf_iff_prefix.mp hprefix
    cases h
    rw [← String.length_toList, List.drop_left]
  · cases h

/-- Whatever is read with so many steps is the text of what it is read as, with white space in
front. -/
structure ReadsTexts (fuel : ℕ) : Prop where
  value : ∀ {s rest : List Char} {v : Json}, readValueWith fuel s = some (v, rest) →
    ∃ (gap : Gap) (source : Source), source.value = v ∧ s = gap.text ++ (source.text ++ rest)
  items : ∀ {s rest : List Char} {vs : List Json}, readItems fuel s = some (vs, rest) →
    ∀ gap : Gap, ∃ items : Items, items.values = vs ∧ gap.text ++ s = items.text ++ ']' :: rest
  members : ∀ {s rest : List Char} {vs : List (Option String × Json)},
    readMembers fuel s = some (vs, rest) → ∀ gap : Gap,
      ∃ members : Members, members.values = vs ∧ gap.text ++ s = members.text ++ '\x7d' :: rest

namespace ReadsTexts

variable {fuel : ℕ} (hreads : ReadsTexts fuel)

include hreads

/-- What is read as a value is the text of one. -/
theorem exists_source {v : Json} (h : readValueWith (fuel + 1) s = some (v, rest)) :
    ∃ source : Source, source.value = v ∧ skipSpace s = source.text ++ rest := by
  rw [readValueWith.eq_def] at h
  dsimp only at h
  split at h
  · cases h
  · next body heq =>
    obtain ⟨⟨text, after⟩, htext, h⟩ := Option.map_eq_some_iff.mp h
    cases h
    obtain ⟨t, rfl, rfl⟩ := exists_string htext
    refine ⟨.string t, rfl, heq.trans ?_⟩
    rw [Source.text, StringText.text, List.cons_append, List.append_assoc, List.singleton_append]
  · next body heq =>
    obtain ⟨gap, hbody⟩ := exists_gap body
    split at h
    · next after hafter =>
      cases h
      refine ⟨.emptyArray gap, rfl, heq.trans ?_⟩
      rw [Source.text, List.cons_append, List.append_assoc, List.singleton_append, ← hafter,
        ← hbody]
    · obtain ⟨⟨vs, after⟩, hvs, h⟩ := Option.map_eq_some_iff.mp h
      cases h
      obtain ⟨items, rfl, htext⟩ := hreads.items hvs gap
      refine ⟨.array items, rfl, heq.trans ?_⟩
      rw [Source.text, List.cons_append, List.append_assoc, List.singleton_append, ← htext,
        ← hbody]
  · next body heq =>
    obtain ⟨gap, hbody⟩ := exists_gap body
    split at h
    · next after hafter =>
      cases h
      refine ⟨.emptyObject gap, rfl, heq.trans ?_⟩
      rw [Source.text, List.cons_append, List.append_assoc, List.singleton_append, ← hafter,
        ← hbody]
    · obtain ⟨⟨vs, after⟩, hvs, h⟩ := Option.map_eq_some_iff.mp h
      cases h
      obtain ⟨members, rfl, htext⟩ := hreads.members hvs gap
      refine ⟨.object members, rfl, heq.trans ?_⟩
      rw [Source.text, List.cons_append, List.append_assoc, List.singleton_append, ← htext,
        ← hbody]
  · next c body _ _ _ heq =>
    rw [heq]
    split at h
    · next hc =>
      obtain ⟨after, hword, h⟩ := Option.map_eq_some_iff.mp h
      cases h
      exact ⟨.bool true, rfl, hc ▸ congrArg ('t' :: ·) (eq_append_of_readWord? hword)⟩
    · split at h
      · next hc =>
        obtain ⟨after, hword, h⟩ := Option.map_eq_some_iff.mp h
        cases h
        exact ⟨.bool false, rfl, hc ▸ congrArg ('f' :: ·) (eq_append_of_readWord? hword)⟩
      · split at h
        · next hc =>
          obtain ⟨after, hword, h⟩ := Option.map_eq_some_iff.mp h
          cases h
          exact ⟨.null, rfl, hc ▸ congrArg ('n' :: ·) (eq_append_of_readWord? hword)⟩
        · obtain ⟨⟨l, after⟩, hl, h⟩ := Option.map_eq_some_iff.mp h
          cases h
          obtain ⟨n, rfl, hn⟩ := exists_number hl
          exact ⟨.number n, rfl, hn⟩

/-- What is read as items are the texts of some. -/
theorem exists_items {vs : List Json} (h : readItems (fuel + 1) s = some (vs, rest)) (gap : Gap) :
    ∃ items : Items, items.values = vs ∧ gap.text ++ s = items.text ++ ']' :: rest := by
  rw [readItems] at h
  split at h
  · cases h
  · next v behind hv =>
    obtain ⟨before, item, rfl, rfl⟩ := hreads.value hv
    obtain ⟨after, hbehind⟩ := exists_gap behind
    split at h
    · next more hmore =>
      obtain ⟨⟨others, end'⟩, hothers, h⟩ := Option.map_eq_some_iff.mp h
      cases h
      obtain ⟨items, rfl, htext⟩ := hreads.items hothers .none
      refine ⟨.more (gap.append before) item after items, rfl, ?_⟩
      simp only [Items.text, Gap.append, List.append_assoc, List.cons_append]
      rw [← htext, Gap.none_append, ← hmore, ← hbehind]
    · next more hmore =>
      cases h
      refine ⟨.last (gap.append before) item after, rfl, ?_⟩
      simp only [Items.text, Gap.append, List.append_assoc]
      rw [← hmore, ← hbehind]
    · cases h

/-- What is read as members are the texts of some. -/
theorem exists_members {vs : List (Option String × Json)}
    (h : readMembers (fuel + 1) s = some (vs, rest)) (gap : Gap) :
    ∃ members : Members, members.values = vs ∧
      gap.text ++ s = members.text ++ '\x7d' :: rest := by
  rw [readMembers] at h
  obtain ⟨front, hs⟩ := exists_gap s
  split at h
  · next body hbody =>
    split at h
    · cases h
    · next text behind hname =>
      obtain ⟨name, rfl, rfl⟩ := exists_string hname
      obtain ⟨inner, hinner⟩ := exists_gap behind
      split at h
      · next body' hcolon =>
        split at h
        · cases h
        · next v behind' hv =>
          obtain ⟨before, item, rfl, rfl⟩ := hreads.value hv
          obtain ⟨after, hbehind⟩ := exists_gap behind'
          split at h
          · next more hmore =>
            obtain ⟨⟨others, end'⟩, hothers, h⟩ := Option.map_eq_some_iff.mp h
            cases h
            obtain ⟨members, rfl, htext⟩ := hreads.members hothers .none
            refine ⟨.more (gap.append front) name inner before item after members, rfl, ?_⟩
            simp only [Members.text, StringText.text, Gap.append, List.append_assoc,
              List.cons_append, List.nil_append]
            rw [← htext, Gap.none_append, ← hmore, ← hbehind, ← hcolon, ← hinner, ← hbody, ← hs]
          · next more hmore =>
            cases h
            refine ⟨.last (gap.append front) name inner before item after, rfl, ?_⟩
            simp only [Members.text, StringText.text, Gap.append, List.append_assoc,
              List.cons_append, List.nil_append]
            rw [← hmore, ← hbehind, ← hcolon, ← hinner, ← hbody, ← hs]
          · cases h
      · cases h
  · cases h

end ReadsTexts

/-- Whatever is read is the text of what it is read as. -/
theorem readsTexts (fuel : ℕ) : ReadsTexts fuel := by
  induction fuel with
  | zero =>
    refine ⟨fun h => ?_, fun h => ?_, fun h => ?_⟩
    · rw [readValueWith] at h
      cases h
    · rw [readItems] at h
      cases h
    · rw [readMembers] at h
      cases h
  | succ fuel ih =>
    refine ⟨@fun s rest v h => ?_, ih.exists_items, ih.exists_members⟩
    obtain ⟨source, hvalue, htext⟩ := ih.exists_source h
    obtain ⟨gap, hs⟩ := exists_gap s
    exact ⟨gap, source, hvalue, htext ▸ hs⟩

/-- Just the texts with white space around them are read, as the values that they denote. -/
theorem read?_eq_some_iff {s : List Char} {v : Json} : read? s = some v ↔
    ∃ (before : Gap) (source : Source) (after : Gap),
      s = before.text ++ (source.text ++ after.text) ∧ source.value = v := by
  constructor
  · intro h
    rw [read?] at h
    split at h
    · next v' rest hread =>
      split at h
      · next hempty =>
        cases h
        obtain ⟨before, source, hvalue, hs⟩ := (readsTexts _).value hread
        obtain ⟨after, hafter⟩ := exists_gap rest
        rw [List.isEmpty_iff.mp hempty, List.append_nil] at hafter
        exact ⟨before, source, after, hafter ▸ hs, hvalue⟩
      · cases h
    · cases h
  · rintro ⟨before, source, after, rfl, rfl⟩
    exact source.read?_text before after

end SolverPortfolio.Json
