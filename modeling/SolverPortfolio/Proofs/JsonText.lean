import Mathlib.Data.List.Basic
import SolverPortfolio.Json.Reader
import SolverPortfolio.Text.Basic

/-
# JSON texts

A JSON text is built from white space, digits, string literals and brackets after the grammar of
RFC 8259, and denotes a value. The reader reads each text as the value it denotes, with any white
space in front, and stops where the text ends.

Main definitions: `Json.NumberText`, `Json.IsContent`, `Json.StringText`, `Json.Source`.
Main statements: `Json.NumberText.readNumber?_text`, `Json.IsContent.readUnits?_append`,
`Json.Source.readValueWith_text`, `Json.Source.read?_text`.
-/

namespace SolverPortfolio.Json

open SolverPortfolio.Number (Literal)
open SolverPortfolio.Text (isDigit)

/-! ## White space -/

/-- White space between the parts of a text. -/
structure Gap where
  text : List Char
  space : ∀ c ∈ text, isSpace c = true

/-- No white space. -/
def Gap.none : Gap := ⟨[], List.forall_mem_nil _⟩

/-- Without white space a text stays. -/
theorem Gap.none_append (s : List Char) : Gap.none.text ++ s = s := rfl

/-- White space behind white space. -/
def Gap.append (g₁ g₂ : Gap) : Gap where
  text := g₁.text ++ g₂.text
  space c hc := (List.mem_append.mp hc).elim (g₁.space c) (g₂.space c)

/-- White space is passed over up to anything else. -/
theorem skipSpace_append (gap : Gap) {s : List Char} (h : ∀ c ∈ s.head?, isSpace c = false) :
    skipSpace (gap.text ++ s) = s := by
  rw [skipSpace, List.dropWhile_append_of_pos gap.space]
  exact Text.dropStart_eq_self h

/-- A text ends here: nothing follows, or white space, a comma or a closing bracket. -/
def Closes (s : List Char) : Prop :=
  ∀ c ∈ s.head?, isSpace c = true ∨ c = ',' ∨ c = ']' ∨ c = '\x7d'

/-! ## Numbers -/

/-- One or more digits. -/
structure Digits where
  text : List Char
  digits : ∀ c ∈ text, isDigit c = true
  ne_nil : text ≠ []

/-- A digit is no white space. -/
theorem isBlank_of_isDigit {c : Char} (h : Text.isDigit c = true) : Text.isBlank c = false := by
  have hlow : 48 ≤ c.toNat := of_decide_eq_true (Bool.and_eq_true_iff.mp h).1
  have hhigh : c.toNat ≤ 57 := of_decide_eq_true (Bool.and_eq_true_iff.mp h).2
  simp only [Text.isBlank, Bool.or_eq_false_iff, Bool.and_eq_false_iff, beq_eq_false_iff_ne,
    decide_eq_false_iff_not]
  omega

/-- A power of ten: the letter, the sign, which is set if it is a minus sign, and the digits. -/
structure PowerText where
  letter : Char
  isLetter : letter = 'e' ∨ letter = 'E'
  sign : Option Bool
  digits : Digits

/-- The text of a power of ten. -/
def PowerText.text (p : PowerText) : List Char :=
  p.letter :: ((match p.sign with
    | none => []
    | some true => ['-']
    | some false => ['+']) ++ p.digits.text)

/-- The exponent of a power of ten. -/
def PowerText.exponent (p : PowerText) : Int :=
  let n : Int := Text.digitsValue p.digits.text
  if p.sign = some true then -n else n

/-- A number: a whole part, which begins with a zero only if it is one, and perhaps a fraction and
a power of ten. -/
structure NumberText where
  negative : Bool
  whole : Digits
  whole_eq : whole.text = ['0'] ∨ whole.text.head? ≠ some '0'
  fraction : Option Digits
  power : Option PowerText

namespace NumberText

/-- The fraction of a number, with the point. -/
def fractionText (n : NumberText) : List Char :=
  match n.fraction with
  | none => []
  | some ds => '.' :: ds.text

/-- The power of ten of a number, with its letter. -/
def powerText (n : NumberText) : List Char :=
  match n.power with
  | none => []
  | some p => p.text

/-- The text of a number. -/
def text (n : NumberText) : List Char :=
  (if n.negative then ['-'] else []) ++ (n.whole.text ++ (n.fractionText ++ n.powerText))

/-- The number as it is written. -/
def literal (n : NumberText) : Literal where
  negative := n.negative
  whole := n.whole.text
  fraction := match n.fraction with
    | none => []
    | some ds => ds.text
  exponent := match n.power with
    | none => 0
    | some p => p.exponent

end NumberText

/-- Digits are read up to anything else. -/
theorem readDigits1?_append (ds : Digits) {rest : List Char}
    (h : ∀ c ∈ rest.head?, isDigit c = false) :
    readDigits1? (ds.text ++ rest) = some (ds.text, rest) := by
  have hstop : rest.takeWhile isDigit = [] := by
    cases rest with
    | nil => rfl
    | cons c rest => exact List.takeWhile_cons_of_neg (Bool.not_eq_true _ ▸ h c rfl)
  have htake : (ds.text ++ rest).takeWhile isDigit = ds.text := by
    rw [List.takeWhile_append_of_pos ds.digits, hstop, List.append_nil]
  have hdrop : (ds.text ++ rest).dropWhile isDigit = rest := by
    rw [List.dropWhile_append_of_pos ds.digits]
    exact Text.dropStart_eq_self h
  have hempty : ds.text.isEmpty = false := List.isEmpty_eq_false_iff.mpr ds.ne_nil
  simp only [readDigits1?, htake, hdrop, hempty, Bool.false_eq_true, if_false]

/-- What ends a text is no digit, point or letter of a power. -/
theorem Closes.head {s : List Char} (h : Closes s) :
    ∀ c ∈ s.head?, isDigit c = false ∧ c ≠ '.' ∧ c ≠ 'e' ∧ c ≠ 'E' := by
  intro c hc
  have hcases : (c = ' ' ∨ c = '\t' ∨ c = '\n' ∨ c = '\r') ∨ c = ',' ∨ c = ']' ∨ c = '\x7d' := by
    simpa [isSpace, or_assoc] using h c hc
  rcases hcases with (rfl | rfl | rfl | rfl) | rfl | rfl | rfl <;> decide

/-- Digits begin with one. -/
theorem Digits.exists_cons (ds : Digits) : ∃ d rest, ds.text = d :: rest ∧ isDigit d = true := by
  obtain ⟨d, rest, heq⟩ := List.exists_cons_of_ne_nil ds.ne_nil
  exact ⟨d, rest, heq, ds.digits d (heq ▸ List.mem_cons_self)⟩

/-- A power of ten is read with its sign. -/
theorem PowerText.readPower?_append (p : PowerText) {rest : List Char}
    (h : ∀ c ∈ rest.head?, isDigit c = false) :
    readPower? (p.text ++ rest) = some (p.exponent, rest) := by
  have hdigits := readDigits1?_append p.digits h
  rw [PowerText.text, List.cons_append]
  unfold readPower?
  dsimp only
  rw [if_pos p.isLetter]
  cases hsign : p.sign with
  | none =>
    obtain ⟨d, ds, hds, hd⟩ := p.digits.exists_cons
    have hplus : d ≠ '+' := by
      rintro rfl
      cases hd
    have hminus : d ≠ '-' := by
      rintro rfl
      cases hd
    rw [hds, List.cons_append] at hdigits
    simp [hds, hdigits, exponent, hsign, hplus, hminus]
  | some negative =>
    cases negative <;> simp [hdigits, exponent, hsign]

namespace NumberText

variable {rest : List Char}

/-- The whole part of a number is read. -/
theorem readWhole?_append (n : NumberText) (h : ∀ c ∈ rest.head?, isDigit c = false) :
    readWhole? (n.whole.text ++ rest) = some (n.whole.text, rest) := by
  rcases n.whole_eq with hzero | hhead
  · rw [hzero]
    cases rest with
    | nil => rfl
    | cons c rest => simp [readWhole?, h c rfl]
  · have hdigits := readDigits1?_append n.whole h
    obtain ⟨d, ds, hds, -⟩ := n.whole.exists_cons
    have hne : d ≠ '0' := by
      rintro rfl
      exact hhead (congrArg List.head? hds)
    rw [hds, List.cons_append] at hdigits ⊢
    unfold readWhole?
    split
    · next heq => exact absurd (List.cons.inj heq).1 hne
    · exact hdigits

/-- The fraction of a number is read. -/
theorem readFraction?_append (n : NumberText)
    (h : ∀ c ∈ rest.head?, isDigit c = false ∧ c ≠ '.') :
    readFraction? (n.fractionText ++ rest) = some (n.literal.fraction, rest) := by
  rw [fractionText, literal]
  cases n.fraction with
  | some ds => exact readDigits1?_append ds fun c hc => (h c hc).1
  | none =>
    unfold readFraction?
    split
    · next heq => exact absurd rfl (h '.' (congrArg List.head? heq)).2
    · rfl

/-- The power of ten of a number is read. -/
theorem readPower?_append (n : NumberText) (h : Closes rest) :
    readPower? (n.powerText ++ rest) = some (n.literal.exponent, rest) := by
  rw [powerText, literal]
  cases n.power with
  | some p => exact p.readPower?_append fun c hc => (h.head c hc).1
  | none =>
    cases rest with
    | nil => rfl
    | cons c rest =>
      obtain ⟨-, -, hlower, hupper⟩ := h.head c rfl
      exact if_neg (not_or.mpr ⟨hlower, hupper⟩)

/-- A power of ten begins with a letter. -/
theorem head_powerText (n : NumberText) (h : Closes rest) :
    ∀ c ∈ (n.powerText ++ rest).head?, isDigit c = false ∧ c ≠ '.' := by
  intro c hc
  rw [powerText] at hc
  cases hpower : n.power with
  | none =>
    rw [hpower] at hc
    exact ⟨(h.head c hc).1, (h.head c hc).2.1⟩
  | some p =>
    rw [hpower] at hc
    cases hc
    rcases p.isLetter with hletter | hletter <;> rw [hletter] <;> decide

/-- A fraction begins with a point. -/
theorem head_fractionText (n : NumberText) (h : Closes rest) :
    ∀ c ∈ (n.fractionText ++ (n.powerText ++ rest)).head?, isDigit c = false := by
  intro c hc
  rw [fractionText] at hc
  cases hfraction : n.fraction with
  | none =>
    rw [hfraction] at hc
    exact (n.head_powerText h c hc).1
  | some ds =>
    rw [hfraction] at hc
    cases hc
    decide

/-- A number is read as it is written. -/
theorem readNumber?_text (n : NumberText) (h : Closes rest) :
    readNumber? (n.text ++ rest) = some (n.literal, rest) := by
  have hbody : n.text ++ rest = (if n.negative then ['-'] else []) ++
      (n.whole.text ++ (n.fractionText ++ (n.powerText ++ rest))) := by
    simp only [text, List.append_assoc]
  have hwhole := n.readWhole?_append (n.head_fractionText h)
  have hfraction := n.readFraction?_append (n.head_powerText h)
  have hpower := n.readPower?_append h
  rw [hbody]
  unfold readNumber?
  cases hnegative : n.negative with
  | true => simp [hwhole, hfraction, hpower, literal, hnegative]
  | false =>
    obtain ⟨d, ds, hds, hd⟩ := n.whole.exists_cons
    have hminus : d ≠ '-' := by
      rintro rfl
      cases hd
    rw [hds, List.cons_append] at hwhole ⊢
    simp [hds, hminus, hwhole, hfraction, hpower, literal, hnegative]

end NumberText

/-! ## Strings -/

/-- A character that stands for itself in a string. -/
def isPlain (c : Char) : Bool := 0x20 ≤ c.toNat && c != '"' && c != '\\'

/-- The content of a string literal: characters that stand for themselves, and escapes. -/
inductive IsContent : List Char → Prop where
  | nil : IsContent []
  | plain {c : Char} {s : List Char} (h : isPlain c = true) (hs : IsContent s) : IsContent (c :: s)
  | short {e c : Char} {s : List Char} (h : shortEscape? e = some c) (hs : IsContent s) :
      IsContent ('\\' :: e :: s)
  | code {a b c d : Char} {i j k l : ℕ} {s : List Char} (ha : hexValue? a = some i)
      (hb : hexValue? b = some j) (hc : hexValue? c = some k) (hd : hexValue? d = some l)
      (hs : IsContent s) : IsContent ('\\' :: 'u' :: a :: b :: c :: d :: s)

/-- The units of a string literal. -/
def units : List Char → List Unit16
  | [] => []
  | '\\' :: 'u' :: a :: b :: c :: d :: rest =>
    .code ((((hexValue? a).getD 0 * 16 + (hexValue? b).getD 0) * 16 + (hexValue? c).getD 0) * 16 +
      (hexValue? d).getD 0) :: units rest
  | '\\' :: e :: rest => .char ((shortEscape? e).getD e) :: units rest
  | c :: rest => .char c :: units rest

/-- A character that stands for itself is a unit. -/
theorem units_plain {c : Char} (h : isPlain c = true) (s : List Char) :
    units (c :: s) = .char c :: units s := by
  rw [units.eq_def]
  split
  · next heq => cases heq
  · next heq =>
    cases heq
    cases h
  · next heq =>
    cases heq
    cases h
  · next heq =>
    cases heq
    rfl

/-- A short escape is a unit. -/
theorem units_short {e c : Char} (h : shortEscape? e = some c) (s : List Char) :
    units ('\\' :: e :: s) = .char c :: units s := by
  rw [units.eq_def]
  split
  · next heq => cases heq
  · next heq =>
    cases heq
    cases h
  · next heq =>
    cases heq
    rw [h]
    rfl
  · next hescape heq =>
    cases heq
    exact absurd rfl (hescape e s rfl)

/-- The literal of a string, with its quotes. -/
@[ext] structure StringText where
  content : List Char
  isContent : IsContent content

/-- The text of a string literal. -/
def StringText.text (s : StringText) : List Char := '"' :: (s.content ++ ['"'])

/-- The string that a literal denotes, if it denotes one. -/
def StringText.value? (s : StringText) : Option String :=
  (textOfUnits? (units s.content)).map String.ofList

/-- A character that stands for itself is read. -/
theorem readUnits?_plain {c : Char} (h : isPlain c = true) (s : List Char) :
    readUnits? (c :: s) = (readUnits? s).map fun p => (.char c :: p.1, p.2) := by
  have hhigh : ¬ c.toNat < 0x20 := by
    simp only [isPlain, Bool.and_eq_true, decide_eq_true_eq] at h
    omega
  rw [readUnits?.eq_def]
  split
  · next heq => cases heq
  · next heq =>
    cases heq
    cases h
  · next heq =>
    cases heq
    cases h
  · next heq =>
    cases heq
    cases h
  · next heq =>
    cases heq
    rw [if_neg hhigh]
    cases readUnits? s <;> rfl

/-- A short escape is read. -/
theorem readUnits?_short {e c : Char} (h : shortEscape? e = some c) (s : List Char) :
    readUnits? ('\\' :: e :: s) = (readUnits? s).map fun p => (.char c :: p.1, p.2) := by
  rw [readUnits?.eq_def]
  split
  · next heq => cases heq
  · next heq => cases heq
  · next heq =>
    cases heq
    cases h
  · next heq =>
    cases heq
    rw [h]
    cases readUnits? s <;> rfl
  · next hescape heq =>
    cases heq
    exact absurd rfl (hescape e s rfl)

/-- The units of a literal are read up to the closing quote. -/
theorem IsContent.readUnits?_append {s : List Char} (h : IsContent s) (rest : List Char) :
    readUnits? (s ++ '"' :: rest) = some (units s, rest) := by
  induction h with
  | nil => rfl
  | plain hplain hs ih =>
    rw [units_plain hplain, List.cons_append, readUnits?_plain hplain, ih]
    rfl
  | short hshort hs ih =>
    rw [units_short hshort, List.cons_append, List.cons_append, readUnits?_short hshort, ih]
    rfl
  | code ha hb hc hd hs ih =>
    simp only [List.cons_append, readUnits?, units, ha, hb, hc, hd, ih]
    rfl

/-- A string is read with its closing quote. -/
theorem StringText.readString?_append (s : StringText) (rest : List Char) :
    readString? (s.content ++ '"' :: rest) = some (s.value?, rest) := by
  rw [readString?, s.isContent.readUnits?_append]
  rfl

/-! ## Values -/

mutual
/-- The text of a value, as it is built. -/
inductive Source where
  | null
  | bool (b : Bool)
  | number (n : NumberText)
  | string (s : StringText)
  | emptyArray (gap : Gap)
  | array (items : Items)
  | emptyObject (gap : Gap)
  | object (members : Members)

/-- The items of an array, with the white space around each. -/
inductive Items where
  | last (before : Gap) (item : Source) (after : Gap)
  | more (before : Gap) (item : Source) (after : Gap) (rest : Items)

/-- The members of an object, with the white space around each name and each value. -/
inductive Members where
  | last (outer : Gap) (name : StringText) (inner before : Gap) (item : Source) (after : Gap)
  | more (outer : Gap) (name : StringText) (inner before : Gap) (item : Source) (after : Gap)
    (rest : Members)
end

mutual
/-- The text itself. -/
def Source.text : Source → List Char
  | .null => "null".toList
  | .bool true => "true".toList
  | .bool false => "false".toList
  | .number n => n.text
  | .string s => s.text
  | .emptyArray gap => '[' :: (gap.text ++ [']'])
  | .array items => '[' :: (items.text ++ [']'])
  | .emptyObject gap => '\x7b' :: (gap.text ++ ['\x7d'])
  | .object members => '\x7b' :: (members.text ++ ['\x7d'])

/-- The text between the brackets of an array. -/
def Items.text : Items → List Char
  | .last before item after => before.text ++ (item.text ++ after.text)
  | .more before item after rest => before.text ++ (item.text ++ (after.text ++ ',' :: rest.text))

/-- The text between the braces of an object. -/
def Members.text : Members → List Char
  | .last outer name inner before item after =>
    outer.text ++ (name.text ++ (inner.text ++ ':' ::
      (before.text ++ (item.text ++ after.text))))
  | .more outer name inner before item after rest =>
    outer.text ++ (name.text ++ (inner.text ++ ':' ::
      (before.text ++ (item.text ++ (after.text ++ ',' :: rest.text)))))
end

mutual
/-- The value that a text denotes. -/
def Source.value : Source → Json
  | .null => .null
  | .bool b => .bool b
  | .number n => .number n.literal
  | .string s => .string s.value?
  | .emptyArray _ => .array []
  | .array items => .array items.values
  | .emptyObject _ => .object []
  | .object members => .object members.values

/-- The values of the items of an array. -/
def Items.values : Items → List Json
  | .last _ item _ => [item.value]
  | .more _ item _ rest => item.value :: rest.values

/-- The names and values of the members of an object. -/
def Members.values : Members → List (Option String × Json)
  | .last _ name _ _ item _ => [(name.value?, item.value)]
  | .more _ name _ _ item _ rest => (name.value?, item.value) :: rest.values
end

/-! ## Reading values -/

/-- A number begins with a minus sign or a digit. -/
theorem NumberText.exists_cons (n : NumberText) :
    ∃ c s, n.text = c :: s ∧ (c = '-' ∨ isDigit c = true) := by
  rw [NumberText.text]
  cases n.negative with
  | true => exact ⟨_, _, rfl, .inl rfl⟩
  | false =>
    obtain ⟨d, ds, hds, hd⟩ := n.whole.exists_cons
    rw [hds]
    exact ⟨_, _, rfl, .inr hd⟩

/-- A digit is none of the characters that other values begin with. -/
theorem ne_of_isDigit {c : Char} (h : c = '-' ∨ isDigit c = true) : isSpace c = false ∧
    c ≠ '"' ∧ c ≠ '[' ∧ c ≠ ']' ∧ c ≠ '\x7b' ∧ c ≠ 't' ∧ c ≠ 'f' ∧ c ≠ 'n' := by
  rcases h with rfl | h
  · decide
  · have hspace : isSpace c = false := by
      simp only [isSpace, Bool.or_eq_false_iff, decide_eq_false_iff_not]
      refine ⟨⟨⟨?_, ?_⟩, ?_⟩, ?_⟩ <;>
      · rintro rfl
        cases h
    refine ⟨hspace, ?_, ?_, ?_, ?_, ?_, ?_, ?_⟩ <;>
    · rintro rfl
      cases h

/-- The text of a value begins with no white space or closing bracket. -/
theorem Source.exists_cons (v : Source) : ∃ c s, v.text = c :: s ∧ isSpace c = false ∧ c ≠ ']' := by
  cases v with
  | bool b => cases b <;> exact ⟨_, _, rfl, by decide, by decide⟩
  | number n =>
    obtain ⟨c, s, hs, hc⟩ := n.exists_cons
    obtain ⟨hspace, -, -, hbracket, -⟩ := ne_of_isDigit hc
    exact ⟨c, s, hs, hspace, hbracket⟩
  | null | string s | emptyArray gap | array items | emptyObject gap | object members =>
    exact ⟨_, _, rfl, by decide, by decide⟩

section

variable {fuel : ℕ} {s rest : List Char}

/-- A number is read behind white space. -/
theorem readValueWith_number (n : NumberText) (hrest : Closes rest)
    (h : skipSpace s = n.text ++ rest) :
    readValueWith (fuel + 1) s = some (.number n.literal, rest) := by
  have hnumber := n.readNumber?_text hrest
  obtain ⟨c, cs, htext, hc⟩ := n.exists_cons
  obtain ⟨-, hquote, hbracket, -, hbrace, ht, hf, hn⟩ := ne_of_isDigit hc
  rw [htext, List.cons_append] at hnumber h
  rw [readValueWith.eq_def]
  simp [h, ht, hf, hn, hnumber]

/-- A string is read behind white space. -/
theorem readValueWith_string (t : StringText) (h : skipSpace s = t.text ++ rest) :
    readValueWith (fuel + 1) s = some (.string t.value?, rest) := by
  have hstring := t.readString?_append rest
  rw [StringText.text, List.cons_append, List.append_assoc, List.singleton_append] at h
  rw [readValueWith.eq_def]
  simp [h, hstring]

/-- An array is read behind white space if its items are. -/
theorem readValueWith_array {body : List Char} {items : List Json}
    (h : skipSpace s = '[' :: body) (hbody : ∀ c ∈ (skipSpace body).head?, c ≠ ']')
    (hitems : readItems fuel (skipSpace body) = some (items, rest)) :
    readValueWith (fuel + 1) s = some (.array items, rest) := by
  rw [readValueWith.eq_def]
  simp only [h]
  split
  · next heq => exact absurd rfl (hbody ']' (congrArg List.head? heq))
  · rw [hitems]
    rfl

/-- An object is read behind white space if its members are. -/
theorem readValueWith_object {body : List Char} {members : List (Option String × Json)}
    (h : skipSpace s = '\x7b' :: body) (hbody : ∀ c ∈ (skipSpace body).head?, c ≠ '\x7d')
    (hmembers : readMembers fuel (skipSpace body) = some (members, rest)) :
    readValueWith (fuel + 1) s = some (.object members, rest) := by
  rw [readValueWith.eq_def]
  simp only [h]
  split
  · next heq => exact absurd rfl (hbody '\x7d' (congrArg List.head? heq))
  · rw [hmembers]
    rfl

end

/-- White space in front of a value is passed over. -/
theorem skipSpace_value (gap : Gap) (v : Source) (rest : List Char) :
    skipSpace (gap.text ++ (v.text ++ rest)) = v.text ++ rest := by
  obtain ⟨c, s, hs, hspace, -⟩ := v.exists_cons
  refine skipSpace_append gap fun d hd => ?_
  rw [hs] at hd
  cases hd
  exact hspace

/-- White space in front of a name is passed over. -/
theorem skipSpace_name (gap : Gap) (name : StringText) (rest : List Char) :
    skipSpace (gap.text ++ (name.text ++ rest)) = name.text ++ rest := by
  refine skipSpace_append gap fun d hd => ?_
  cases hd
  decide

/-- White space in front of a mark is passed over. -/
theorem skipSpace_cons (gap : Gap) {c : Char} (hc : isSpace c = false) (rest : List Char) :
    skipSpace (gap.text ++ c :: rest) = c :: rest :=
  skipSpace_append gap fun d hd => by
    cases hd
    exact hc

/-- A comma or a closing bracket ends a value, with white space in front. -/
theorem closes_append (gap : Gap) {d : Char} (h : d = ',' ∨ d = ']' ∨ d = '\x7d')
    (rest : List Char) : Closes (gap.text ++ d :: rest) := by
  intro c hc
  cases hgap : gap.text with
  | nil =>
    rw [hgap] at hc
    cases hc
    exact .inr h
  | cons d ds =>
    rw [hgap] at hc
    cases hc
    exact .inl (gap.space c (hgap ▸ List.mem_cons_self))

/-- The text between the brackets of an array begins with no closing bracket. -/
theorem Items.head_text (items : Items) (rest : List Char) :
    ∀ c ∈ (skipSpace (items.text ++ rest)).head?, c ≠ ']' := by
  intro c hc
  cases items with
  | last before item after | more before item after others =>
    obtain ⟨d, s, hs, -, hd⟩ := item.exists_cons
    rw [Items.text, List.append_assoc, List.append_assoc, skipSpace_value, hs] at hc
    cases hc
    exact hd

/-- The text between the braces of an object begins with a quote. -/
theorem Members.head_text (members : Members) (rest : List Char) :
    ∀ c ∈ (skipSpace (members.text ++ rest)).head?, c ≠ '\x7d' := by
  intro c hc
  cases members with
  | last outer name inner before item after | more outer name inner before item after others =>
    rw [Members.text, List.append_assoc, List.append_assoc, skipSpace_name] at hc
    cases hc
    decide

/-- White space is passed over at once. -/
theorem skipSpace_skipSpace (s : List Char) : skipSpace (skipSpace s) = skipSpace s :=
  Text.dropStart_eq_self fun _ => Text.of_mem_head?_dropStart

mutual
/-- A value is read behind white space, as far as its text reaches. -/
theorem Source.readValueWith_text (v : Source) {fuel : ℕ} {s rest : List Char}
    (hfuel : v.text.length ≤ fuel) (hrest : Closes rest) (h : skipSpace s = v.text ++ rest) :
    readValueWith fuel s = some (v.value, rest) := by
  obtain ⟨c, cs, htext, -⟩ := v.exists_cons
  obtain ⟨fuel, rfl⟩ : ∃ n, fuel = n + 1 := by
    rw [htext, List.length_cons] at hfuel
    exact ⟨fuel - 1, by omega⟩
  match v with
  | .null | .bool true | .bool false =>
    rw [readValueWith.eq_def]
    simp only [h]
    rfl
  | .number n => exact readValueWith_number n hrest h
  | .string t => exact readValueWith_string t h
  | .emptyArray gap =>
    rw [Source.text, List.cons_append, List.append_assoc, List.singleton_append] at h
    rw [readValueWith.eq_def]
    simp only [h, skipSpace_cons gap (c := ']') (by decide)]
    rfl
  | .array items =>
    rw [Source.text, List.cons_append, List.append_assoc, List.singleton_append] at h
    rw [Source.text, List.length_cons, List.length_append, List.length_singleton] at hfuel
    exact readValueWith_array h (items.head_text _)
      (items.readItems_text (by omega) (skipSpace_skipSpace _))
  | .emptyObject gap =>
    rw [Source.text, List.cons_append, List.append_assoc, List.singleton_append] at h
    rw [readValueWith.eq_def]
    simp only [h, skipSpace_cons gap (c := '\x7d') (by decide)]
    rfl
  | .object members =>
    rw [Source.text, List.cons_append, List.append_assoc, List.singleton_append] at h
    rw [Source.text, List.length_cons, List.length_append, List.length_singleton] at hfuel
    exact readValueWith_object h (members.head_text _)
      (members.readMembers_text (by omega) (skipSpace_skipSpace _))

/-- The items of an array are read up to its closing bracket. -/
theorem Items.readItems_text (items : Items) {fuel : ℕ} {s rest : List Char}
    (hfuel : items.text.length + 1 ≤ fuel)
    (h : skipSpace s = skipSpace (items.text ++ ']' :: rest)) :
    readItems fuel s = some (items.values, rest) := by
  obtain ⟨fuel, rfl⟩ : ∃ n, fuel = n + 1 := ⟨fuel - 1, by omega⟩
  match items with
  | .last before item after =>
    simp only [Items.text, List.append_assoc, List.length_append] at h hfuel
    rw [skipSpace_value] at h
    have hitem : readValueWith fuel _ = _ := item.readValueWith_text (by omega)
      (closes_append after (.inr (.inl rfl)) rest) h
    rw [readItems, hitem]
    simp only [skipSpace_cons after (c := ']') (by decide)]
    rfl
  | .more before item after others =>
    simp only [Items.text, List.append_assoc, List.cons_append, List.length_append,
      List.length_cons] at h hfuel
    rw [skipSpace_value] at h
    have hitem : readValueWith fuel _ = _ := item.readValueWith_text (by omega)
      (closes_append after (.inl rfl) _) h
    have hothers : readItems fuel (others.text ++ ']' :: rest) = _ :=
      others.readItems_text (by omega) rfl
    rw [readItems, hitem]
    simp only [skipSpace_cons after (c := ',') (by decide), hothers]
    rfl

/-- The members of an object are read up to its closing brace. -/
theorem Members.readMembers_text (members : Members) {fuel : ℕ} {s rest : List Char}
    (hfuel : members.text.length + 1 ≤ fuel)
    (h : skipSpace s = skipSpace (members.text ++ '\x7d' :: rest)) :
    readMembers fuel s = some (members.values, rest) := by
  obtain ⟨fuel, rfl⟩ : ∃ n, fuel = n + 1 := ⟨fuel - 1, by omega⟩
  match members with
  | .last outer name inner before item after =>
    simp only [Members.text, List.append_assoc, List.cons_append, List.length_append,
      List.length_cons] at h hfuel
    rw [skipSpace_name, StringText.text, List.cons_append, List.append_assoc,
      List.singleton_append] at h
    have hitem : readValueWith fuel _ = _ := item.readValueWith_text (by omega)
      (closes_append after (.inr (.inr rfl)) rest) (skipSpace_value before item _)
    rw [readMembers, h]
    simp only [name.readString?_append, skipSpace_cons inner (c := ':') (by decide), hitem,
      skipSpace_cons after (c := '\x7d') (by decide)]
    rfl
  | .more outer name inner before item after others =>
    simp only [Members.text, List.append_assoc, List.cons_append, List.length_append,
      List.length_cons] at h hfuel
    rw [skipSpace_name, StringText.text, List.cons_append, List.append_assoc,
      List.singleton_append] at h
    have hitem : readValueWith fuel _ = _ := item.readValueWith_text (by omega)
      (closes_append after (.inl rfl) (others.text ++ '\x7d' :: rest))
      (skipSpace_value before item _)
    have hothers : readMembers fuel (others.text ++ '\x7d' :: rest) = _ :=
      others.readMembers_text (by omega) rfl
    rw [readMembers, h]
    simp only [name.readString?_append, skipSpace_cons inner (c := ':') (by decide), hitem,
      skipSpace_cons after (c := ',') (by decide), hothers]
    rfl
end

/-- A text with white space around it is read as the value that it denotes. -/
theorem Source.read?_text (before : Gap) (v : Source) (after : Gap) :
    read? (before.text ++ (v.text ++ after.text)) = some v.value := by
  have hend : skipSpace after.text = [] := by
    have hskip := skipSpace_append after (s := []) nofun
    rwa [List.append_nil] at hskip
  have hcloses : Closes after.text := fun c hc => .inl (after.space c (List.mem_of_head? hc))
  have hfuel : v.text.length ≤ 2 * (before.text ++ (v.text ++ after.text)).length + 2 := by
    simp only [List.length_append]
    omega
  rw [read?, readValue?,
    v.readValueWith_text hfuel hcloses (skipSpace_value before v after.text)]
  simp only [hend]
  rfl

end SolverPortfolio.Json
