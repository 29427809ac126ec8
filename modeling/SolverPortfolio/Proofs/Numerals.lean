import SolverPortfolio.Proofs.NearestDouble

/-
# Decimal numerals and the doubles that are read from them

A numeral is digits, with a point among them or not, and a power of ten that they are multiplied
by. It is read as it is written, and the double that it is turned into is the one nearest to the
number it denotes, also where that is not computed because the number is too large or too small.

Main definitions: `Number.Literal.value`, `Number.Numeral`.
Main statements: `Number.exists_isNearest_toFloat`, `Number.Numeral.readFloat_text`,
`Number.Numeral.readInt?_text_of_plain`.
-/

namespace SolverPortfolio

namespace Text

/-! ## Rows of digits -/

/-- A digit stands for less than ten. -/
theorem digitValue_lt {c : Char} (h : isDigit c = true) : digitValue c < 10 := by
  have hhigh : c.toNat ≤ 57 := of_decide_eq_true (Bool.and_eq_true_iff.mp h).2
  rw [digitValue]
  exact (by omega : c.toNat - 48 < 10)

/-- Only the digit zero stands for zero. -/
theorem digitValue_pos {c : Char} (h : isDigit c = true) (hne : c ≠ '0') : 0 < digitValue c := by
  have hlow : 48 ≤ c.toNat := of_decide_eq_true (Bool.and_eq_true_iff.mp h).1
  have hne' : c.toNat ≠ 48 := fun heq => hne (Char.toNat_inj.mp heq)
  rw [digitValue]
  exact (by omega : 0 < c.toNat - 48)

/-- What stands before a row of digits counts as often as the digits have places. -/
theorem digitsValueFrom_eq (acc : Nat) (ds : List Char) :
    digitsValueFrom acc ds = acc * 10 ^ ds.length + digitsValue ds := by
  induction ds generalizing acc with
  | nil => simp [digitsValueFrom, digitsValue]
  | cons d ds ih =>
    have hcons : ∀ n, digitsValueFrom n (d :: ds) = digitsValueFrom (10 * n + digitValue d) ds :=
      fun n => rfl
    rw [digitsValue, hcons, hcons, ih, ih (10 * 0 + digitValue d), List.length_cons, Nat.pow_succ]
    simp only [Nat.add_mul, Nat.mul_zero, Nat.zero_add]
    rw [Nat.add_assoc, Nat.mul_comm 10 acc, Nat.mul_assoc, Nat.mul_comm 10]

/-- The first digit of a row counts most. -/
theorem digitsValue_cons (d : Char) (ds : List Char) :
    digitsValue (d :: ds) = digitValue d * 10 ^ ds.length + digitsValue ds := by
  rw [← digitsValueFrom_eq, digitsValue]
  exact congrArg (fun n => digitsValueFrom n ds) (Nat.zero_add (digitValue d))

/-- A row of digits denotes less than a one with as many zeros. -/
theorem digitsValue_lt {ds : List Char} (h : ∀ d ∈ ds, isDigit d = true) :
    digitsValue ds < 10 ^ ds.length := by
  induction ds with
  | nil => decide
  | cons d ds ih =>
    have hfirst := digitValue_lt (h d List.mem_cons_self)
    have hrest := ih fun c hc => h c (List.mem_cons_of_mem d hc)
    rw [digitsValue_cons, List.length_cons, Nat.pow_succ, Nat.mul_comm (10 ^ ds.length)]
    calc digitValue d * 10 ^ ds.length + digitsValue ds
        < digitValue d * 10 ^ ds.length + 10 ^ ds.length := Nat.add_lt_add_left hrest _
      _ = (digitValue d + 1) * 10 ^ ds.length := (Nat.succ_mul _ _).symm
      _ ≤ 10 * 10 ^ ds.length := Nat.mul_le_mul_right _ hfirst

/-- Zeros in front do not count. -/
theorem digitsValue_dropWhile (ds : List Char) :
    digitsValue (ds.dropWhile (· = '0')) = digitsValue ds := by
  induction ds with
  | nil => rfl
  | cons d ds ih =>
    rw [List.dropWhile_cons]
    split
    · have hzero : digitValue d = 0 := of_decide_eq_true ‹_› ▸ rfl
      rw [ih, digitsValue_cons, hzero, Nat.zero_mul, Nat.zero_add]
    · rfl

end Text

namespace Number

open Text (isDigit digitValue digitsValue)

/-! ## The number that a literal denotes -/

namespace Literal

/-- The number without its sign. -/
def size (l : Literal) : ℚ := l.significand * 10 ^ l.power

/-- The number that a literal denotes. -/
def value (l : Literal) : ℚ := if l.negative then -l.size else l.size

/-- The digits from the first one that is not zero. -/
def significant (l : Literal) : List Char := (l.whole ++ l.fraction).dropWhile (· = '0')

/-- The place of the first digit that is not zero. -/
def place (l : Literal) : ℤ := l.power + l.significant.length

/-- Zeros in front do not count. -/
theorem digitsValue_significant (l : Literal) : digitsValue l.significant = l.significand :=
  Text.digitsValue_dropWhile _

/-- The place of the first digit tells the size of a number up to a factor of ten. -/
theorem size_bounds {l : Literal} (h : ∀ d ∈ l.whole ++ l.fraction, isDigit d = true)
    (hne : l.significant ≠ []) : 10 ^ (l.place - 1) ≤ l.size ∧ l.size < 10 ^ l.place := by
  have hpos : (0 : ℚ) < 10 ^ l.power := by positivity
  obtain ⟨d, ds, hds⟩ := List.exists_cons_of_ne_nil hne
  have hdigits : ∀ c ∈ l.significant, isDigit c = true := fun c hc =>
    h c ((List.dropWhile_sublist _).mem hc)
  have hfirst : d ≠ '0' := by
    have hhead := List.head?_dropWhile_not (· = '0') (l.whole ++ l.fraction)
    rw [← significant, hds] at hhead
    exact of_decide_eq_false hhead
  have hlow : 10 ^ ds.length ≤ l.significand := by
    rw [← l.digitsValue_significant, hds, Text.digitsValue_cons]
    have hdigit := Text.digitValue_pos (hdigits d (hds ▸ List.mem_cons_self)) hfirst
    exact le_trans (Nat.le_mul_of_pos_left _ hdigit) (Nat.le_add_right _ _)
  have hhigh : l.significand < 10 ^ l.significant.length :=
    l.digitsValue_significant ▸ Text.digitsValue_lt hdigits
  have hlow' : (10 : ℚ) ^ ds.length ≤ l.significand := by exact_mod_cast hlow
  have hhigh' : (l.significand : ℚ) < 10 ^ l.significant.length := by exact_mod_cast hhigh
  constructor
  · calc (10 : ℚ) ^ (l.place - 1) = 10 ^ ds.length * 10 ^ l.power := by
          rw [place, hds, List.length_cons, ← zpow_natCast, ← zpow_add₀ (by norm_num)]
          push_cast
          ring_nf
      _ ≤ l.size := mul_le_mul_of_nonneg_right hlow' hpos.le
  · calc l.size < 10 ^ l.significant.length * 10 ^ l.power := mul_lt_mul_of_pos_right hhigh' hpos
      _ = 10 ^ l.place := by
          rw [place, ← zpow_natCast, ← zpow_add₀ (by norm_num), add_comm]

/-- A number as a fraction. -/
theorem size_eq_div (l : Literal) : l.size =
    if l.power < 0 then (l.significand : ℚ) / (Nat.pow 10 l.power.natAbs : ℕ)
    else ((l.significand * Nat.pow 10 l.power.natAbs : ℕ) : ℚ) / (1 : ℕ) := by
  rw [size]
  split
  · have he : l.power = -(l.power.natAbs : ℤ) := by omega
    conv_lhs => rw [he, zpow_neg, zpow_natCast, ← div_eq_mul_inv]
    push_cast [Nat.pow_eq]
    rfl
  · have he : l.power = (l.power.natAbs : ℤ) := by omega
    conv_lhs => rw [he, zpow_natCast]
    push_cast [Nat.pow_eq]
    rw [div_one]

/-- The double that is computed from the digits. -/
def computed (l : Literal) : Float :=
  if l.power < 0 then ofRatio (digitsValue l.significant) (Nat.pow 10 l.power.natAbs)
  else ofRatio (digitsValue l.significant * Nat.pow 10 l.power.natAbs) 1

/-- It is the double nearest to the number. -/
theorem exists_isNearest_computed {l : Literal} (hpos : 0 < l.significand) :
    ∃ y, IsNearest l.size y ∧ 0 ≤ y ∧
      Denotes l.negative y (parts (signed l.negative l.computed)) := by
  rw [size_eq_div, computed, digitsValue_significant]
  split
  · exact exists_isNearest_ofRatio l.negative hpos (Nat.pow_pos (by decide))
  · exact exists_isNearest_ofRatio l.negative (Nat.mul_pos hpos (Nat.pow_pos (by decide)))
      Nat.one_pos

/-- The double is computed unless the place of the first digit decides. -/
theorem toFloat_eq (l : Literal) : l.toFloat = signed l.negative
    (if l.significant.isEmpty || l.place < -400 then 0
      else if 400 < l.place then 1 / 0 else l.computed) := rfl

/-- An infinite double stands for what is too large. -/
theorem denotes_infinite (negative : Bool) {y : ℚ} (h : 2 ^ 1024 ≤ y) :
    Denotes negative y (parts (signed negative (1 / 0))) := by
  have hparts : parts (signed negative (1 / 0)) = .infinite negative := by
    cases negative <;> decide +kernel
  rw [hparts]
  exact ⟨rfl, h⟩

/-- Beyond four hundred places a decimal number is beyond the doubles. -/
theorem two_pow_le_ten_pow : (2 : ℚ) ^ 1280 ≤ 10 ^ 400 := by
  calc (2 : ℚ) ^ 1280 = (2 ^ 32) ^ 40 := by rw [← pow_mul]
    _ ≤ (10 ^ 10) ^ 40 := pow_le_pow_left₀ (by norm_num) (by norm_num) 40
    _ = 10 ^ 400 := by rw [← pow_mul]

/-- Very small numbers are rounded to zero. -/
theorem isNearest_tiny {x y : ℚ} (h : IsNearest x y) (hnonneg : 0 ≤ y) (hx : 0 ≤ x)
    (hlt : x < 10 ^ (-400 : ℤ)) : y = 0 := by
  have hle := h.le 0 isDouble_zero
  rw [sub_zero, abs_of_nonneg hx] at hle
  have hy : y ≤ 2 * x := by
    have := (abs_le.mp hle).1
    linarith
  obtain ⟨m, e, -, he, rfl⟩ := h.isDouble
  have hpos : (0 : ℚ) < 2 ^ e := by positivity
  -- The smallest positive double is larger than twice the number.
  have hleast : (2 : ℚ) * 10 ^ (-400 : ℤ) < 2 ^ (-1074 : ℤ) := by
    have hpower : (2 : ℚ) * 2 ^ 1074 < 10 ^ 400 := by
      rw [← pow_succ']
      exact (pow_lt_pow_right₀ one_lt_two (by norm_num)).trans_le two_pow_le_ten_pow
    rw [zpow_neg, zpow_neg, ← div_eq_mul_inv, div_lt_iff₀ (by positivity), inv_mul_eq_div,
      lt_div_iff₀ (by positivity)]
    exact_mod_cast hpower
  have hscale : (2 : ℚ) ^ (-1074 : ℤ) ≤ 2 ^ e := zpow_le_zpow_right₀ one_le_two he
  have hm : (m : ℚ) < 1 := by
    refine lt_of_mul_lt_mul_right ?_ hpos.le
    linarith
  have hm' : (0 : ℚ) ≤ m := nonneg_of_mul_nonneg_left hnonneg hpos
  have hzero : m = 0 := by
    have h1 : m < 1 := by exact_mod_cast hm
    have h0 : 0 ≤ m := by exact_mod_cast hm'
    omega
  rw [hzero, Int.cast_zero, zero_mul]

/-- The double that a literal is turned into is the one nearest to the number. -/
theorem exists_isNearest_toFloat {l : Literal}
    (h : ∀ d ∈ l.whole ++ l.fraction, isDigit d = true) :
    ∃ y, IsNearest l.size y ∧ 0 ≤ y ∧ Denotes l.negative y (parts l.toFloat) := by
  rw [toFloat_eq]
  cases hempty : l.significant with
  | nil =>
    have hsize : l.size = 0 := by
      have hzero : l.significand = 0 := by rw [← l.digitsValue_significant, hempty]; rfl
      rw [size, hzero, Nat.cast_zero, zero_mul]
    exact ⟨0, hsize ▸ isNearest_zero, le_rfl, denotes_signed_zero l.negative⟩
  | cons d ds =>
    have hne : l.significant ≠ [] := hempty ▸ List.cons_ne_nil d ds
    obtain ⟨hlow, hhigh⟩ := size_bounds h hne
    have hsize : 0 < l.size := lt_of_lt_of_le (by positivity) hlow
    have hpos : 0 < l.significand := by
      refine Nat.pos_of_ne_zero fun hzero => hsize.ne' ?_
      rw [size, hzero, Nat.cast_zero, zero_mul]
    obtain ⟨y, hy, hnonneg, hdenotes⟩ := exists_isNearest_computed hpos
    refine ⟨y, hy, hnonneg, ?_⟩
    rw [List.isEmpty_cons, Bool.false_or]
    split
    · next hplace =>
      have hlt : l.size < 10 ^ (-400 : ℤ) :=
        hhigh.trans_le (zpow_le_zpow_right₀ (by norm_num) (of_decide_eq_true hplace).le)
      rw [isNearest_tiny hy hnonneg hsize.le hlt]
      exact denotes_signed_zero l.negative
    · split
      · next hplace =>
        refine denotes_infinite l.negative (hy.ge_of_ge (isDouble_two_pow 1024) ?_)
        have hlarge : (2 : ℚ) ^ 1024 ≤ 10 ^ (400 : ℤ) := by
          refine le_trans (pow_le_pow_right₀ one_le_two (show 1024 ≤ 1280 by norm_num)) ?_
          exact_mod_cast two_pow_le_ten_pow
        exact hlarge.trans (le_trans (zpow_le_zpow_right₀ (by norm_num) (by omega)) hlow)
      · exact hdenotes

end Literal

/-! ## Numerals as they are written -/

/-- A sign, or none, before digits. -/
inductive Sign where
  | none
  | plus
  | minus
  deriving DecidableEq

/-- The text of a sign. -/
def Sign.text : Sign → List Char
  | none => []
  | plus => ['+']
  | minus => ['-']

/-- Does the sign stand before a negative number? -/
def Sign.isNegative (sign : Sign) : Bool := decide (sign = minus)

/-- A power of ten behind the digits of a numeral. -/
structure Exponent where
  letter : Char
  sign : Sign
  digits : List Char
  letter_eq : letter = 'e' ∨ letter = 'E'
  isDigit : ∀ d ∈ digits, Text.isDigit d = true
  ne_nil : digits ≠ []

/-- The text of a power of ten. -/
def Exponent.text (exponent : Exponent) : List Char :=
  exponent.letter :: (exponent.sign.text ++ exponent.digits)

/-- The power that is written. -/
def Exponent.value (exponent : Exponent) : ℤ :=
  if exponent.sign.isNegative then -(digitsValue exponent.digits : ℤ)
  else digitsValue exponent.digits

/-- A numeral: a sign, digits, digits behind a point, and a power of ten. All but one row of digits
may be missing. -/
structure Numeral where
  sign : Sign
  whole : List Char
  fraction : Option (List Char)
  exponent : Option Exponent
  whole_isDigit : ∀ d ∈ whole, isDigit d = true
  fraction_isDigit : ∀ ds ∈ fraction, ∀ d ∈ ds, isDigit d = true
  ne_nil : whole ++ fraction.getD [] ≠ []

namespace Numeral

variable (n : Numeral)

/-- The point and what follows it. -/
def tail : List Char :=
  (n.fraction.map ('.' :: ·)).getD [] ++ (n.exponent.map Exponent.text).getD []

/-- The text without the sign. -/
def unsigned : List Char := n.whole ++ n.tail

/-- The text of a numeral. -/
def text : List Char := n.sign.text ++ n.unsigned

/-- What is read from a numeral. -/
def literal : Literal :=
  ⟨n.sign.isNegative, n.whole, n.fraction.getD [], (n.exponent.map Exponent.value).getD 0⟩

/-- The number that a numeral denotes. -/
def value : ℚ := n.literal.value

/-- Is the numeral written as an integer, without a point and a power of ten? -/
def IsPlain : Prop := n.fraction = none ∧ n.exponent = none

instance : Decidable n.IsPlain :=
  decidable_of_iff (n.fraction.isNone ∧ n.exponent.isNone)
    (and_congr Option.isNone_iff_eq_none Option.isNone_iff_eq_none)

end Numeral

/-! ## Numerals are read as they are written -/

/-- A row of digits ends where something else follows. -/
theorem takeWhile_isDigit {ds rest : List Char} (h : ∀ d ∈ ds, isDigit d = true)
    (hrest : ∀ c ∈ rest.head?, isDigit c = false) :
    (ds ++ rest).takeWhile isDigit = ds ∧ (ds ++ rest).dropWhile isDigit = rest := by
  rw [List.takeWhile_append_of_pos h, List.dropWhile_append_of_pos h]
  cases rest with
  | nil => exact ⟨List.append_nil ds, rfl⟩
  | cons c rest =>
    have hc : ¬ isDigit c = true := Bool.eq_false_iff.mp (hrest c rfl)
    rw [List.takeWhile_cons_of_neg hc, List.dropWhile_cons_of_neg hc]
    exact ⟨List.append_nil ds, rfl⟩

/-- Digits without a point are read. -/
theorem readMagnitude?_of_not_point (negative : Bool) {whole rest : List Char}
    (hwhole : ∀ d ∈ whole, isDigit d = true) (hne : whole ≠ [])
    (hrest : ∀ c ∈ rest.head?, isDigit c = false ∧ c ≠ '.') :
    readMagnitude? negative (whole ++ rest) =
      (readExponent? rest).map fun exponent => ⟨negative, whole, [], exponent⟩ := by
  obtain ⟨htake, hdrop⟩ := takeWhile_isDigit hwhole fun c hc => (hrest c hc).1
  have hempty : (whole.isEmpty && ([] : List Char).isEmpty) = false := by
    rw [List.isEmpty_eq_false_iff.mpr hne]
    rfl
  rw [readMagnitude?, htake, hdrop]
  split
  · next fraction rest' heq =>
    split at heq
    · exact absurd rfl (hrest _ rfl).2
    · cases heq
      rw [hempty]
      rfl

/-- Digits with a point among them are read. -/
theorem readMagnitude?_of_point (negative : Bool) {whole fraction rest : List Char}
    (hwhole : ∀ d ∈ whole, isDigit d = true) (hfraction : ∀ d ∈ fraction, isDigit d = true)
    (hne : whole ++ fraction ≠ []) (hrest : ∀ c ∈ rest.head?, isDigit c = false) :
    readMagnitude? negative (whole ++ '.' :: (fraction ++ rest)) =
      (readExponent? rest).map fun exponent => ⟨negative, whole, fraction, exponent⟩ := by
  have hpoint : ∀ c ∈ ('.' :: (fraction ++ rest)).head?, isDigit c = false := by
    intro c hc
    cases hc
    decide
  obtain ⟨htake, hdrop⟩ := takeWhile_isDigit hwhole hpoint
  obtain ⟨htake', hdrop'⟩ := takeWhile_isDigit hfraction hrest
  have hempty : (whole.isEmpty && fraction.isEmpty) = false := by
    rw [Bool.and_eq_false_iff, List.isEmpty_eq_false_iff, List.isEmpty_eq_false_iff, ← not_and_or,
      ← List.append_eq_nil_iff]
    exact hne
  rw [readMagnitude?, htake, hdrop]
  split
  · next fraction' rest' heq =>
    split at heq
    · next heq' =>
      cases heq'
      rw [htake', hdrop', Prod.mk.injEq] at heq
      obtain ⟨rfl, rfl⟩ := heq
      rw [hempty]
      rfl
    · next hno => exact absurd rfl (hno _)

/-- A sign is split off, if what follows does not look like one. -/
theorem splitSign_text (sign : Sign) {rest : List Char} (hne : rest ≠ [])
    (h : ∀ c ∈ rest.head?, c ≠ '-' ∧ c ≠ '+') :
    splitSign (sign.text ++ rest) = (sign.isNegative, rest) := by
  obtain ⟨c, rest, rfl⟩ := List.exists_cons_of_ne_nil hne
  obtain ⟨hminus, hplus⟩ := h c rfl
  cases sign with
  | none =>
    rw [Sign.text, List.nil_append]
    unfold splitSign
    split
    · next heq => exact absurd (List.cons.inj heq).1 hminus
    · next heq => exact absurd (List.cons.inj heq).1 hplus
    · rfl
  | plus => rfl
  | minus => rfl

/-- A digit is no sign. -/
theorem ne_sign_of_isDigit {c : Char} (h : isDigit c = true) : c ≠ '-' ∧ c ≠ '+' := by
  constructor
  · rintro rfl
    cases h
  · rintro rfl
    cases h

/-- A power of ten is read. -/
theorem readExponent?_text (exponent : Exponent) :
    readExponent? exponent.text = some exponent.value := by
  have hsplit := splitSign_text exponent.sign exponent.ne_nil fun c hc =>
    ne_sign_of_isDigit (exponent.isDigit c (List.mem_of_head? hc))
  have hempty : exponent.digits.isEmpty = false := List.isEmpty_eq_false_iff.mpr exponent.ne_nil
  have hall : exponent.digits.all isDigit = true := List.all_eq_true.mpr exponent.isDigit
  have hcons : ∀ c rest, readExponent? (c :: rest) =
      if c = 'e' ∨ c = 'E' then
        if (splitSign rest).2.isEmpty || !(splitSign rest).2.all isDigit then none
        else some (if (splitSign rest).1 then -(digitsValue (splitSign rest).2 : ℤ)
          else digitsValue (splitSign rest).2)
      else none := fun _ _ => rfl
  rw [Exponent.text, hcons, if_pos exponent.letter_eq, hsplit, hempty, hall]
  rfl

namespace Numeral

variable {n : Numeral}

/-- Behind the digits there is none. -/
theorem head?_exponent {c : Char} (h : c ∈ ((n.exponent.map Exponent.text).getD []).head?) :
    isDigit c = false ∧ c ≠ '.' := by
  cases hexponent : n.exponent with
  | none =>
    rw [hexponent] at h
    cases h
  | some exponent =>
    rw [hexponent] at h
    have hc : exponent.letter = c := Option.mem_some_iff.mp h
    rcases exponent.letter_eq with heq | heq
    · rw [← hc, heq]
      decide
    · rw [← hc, heq]
      decide

/-- The power of ten of a numeral is read, if there is one. -/
theorem readExponent?_exponent : readExponent? ((n.exponent.map Exponent.text).getD []) =
    some ((n.exponent.map Exponent.value).getD 0) := by
  cases n.exponent with
  | none => rfl
  | some exponent => exact readExponent?_text exponent

/-- A numeral is read without its sign. -/
theorem readMagnitude?_unsigned (negative : Bool) : readMagnitude? negative n.unsigned =
    some ⟨negative, n.whole, n.fraction.getD [], (n.exponent.map Exponent.value).getD 0⟩ := by
  rw [unsigned, tail]
  cases hfraction : n.fraction with
  | none =>
    have hne : n.whole ≠ [] := by
      have := n.ne_nil
      rwa [hfraction, Option.getD_none, List.append_nil] at this
    rw [Option.map_none, Option.getD_none, List.nil_append,
      readMagnitude?_of_not_point negative n.whole_isDigit hne fun c hc => head?_exponent hc,
      readExponent?_exponent]
    rfl
  | some fraction =>
    have hne : n.whole ++ fraction ≠ [] := by
      have := n.ne_nil
      rwa [hfraction, Option.getD_some] at this
    rw [Option.map_some, Option.getD_some, List.cons_append,
      readMagnitude?_of_point negative n.whole_isDigit (n.fraction_isDigit fraction hfraction) hne
        fun c hc => (head?_exponent hc).1, readExponent?_exponent]
    rfl

/-- A numeral without its sign begins with a digit or a point. -/
theorem exists_unsigned_eq (n : Numeral) : ∃ c rest, n.unsigned = c :: rest ∧
    (isDigit c = true ∨ c = '.') := by
  cases hwhole : n.whole with
  | nil =>
    have hne := n.ne_nil
    cases hfraction : n.fraction with
    | none =>
      rw [hwhole, hfraction] at hne
      exact absurd rfl hne
    | some fraction =>
      refine ⟨'.', fraction ++ (n.exponent.map Exponent.text).getD [], ?_, .inr rfl⟩
      rw [unsigned, tail, hwhole, hfraction]
      rfl
  | cons d ds =>
    refine ⟨d, ds ++ n.tail, ?_, .inl (n.whole_isDigit d (hwhole ▸ List.mem_cons_self))⟩
    rw [unsigned, hwhole, List.cons_append]

/-- A digit or a point is no sign and no letter. -/
theorem symbol_of_isDigit_or {c : Char} (h : isDigit c = true ∨ c = '.') :
    (c ≠ '-' ∧ c ≠ '+') ∧ c.toLower = c ∧ c ≠ 'i' ∧ c ≠ 'n' := by
  rcases h with h | rfl
  · have hhigh : c.toNat ≤ 57 := of_decide_eq_true (Bool.and_eq_true_iff.mp h).2
    refine ⟨ne_sign_of_isDigit h, ?_, ?_, ?_⟩
    · rw [Char.toLower, dif_neg]
      intro hletter
      have hlow : 65 ≤ c.toNat := hletter.1
      omega
    · rintro rfl
      cases h
    · rintro rfl
      cases h
  · decide

/-- The sign of a numeral is split off. -/
theorem splitSign_text (n : Numeral) : splitSign n.text = (n.sign.isNegative, n.unsigned) := by
  obtain ⟨c, rest, hunsigned, hc⟩ := n.exists_unsigned_eq
  rw [text, hunsigned]
  refine Number.splitSign_text n.sign (List.cons_ne_nil c rest) fun d hd => ?_
  cases hd
  exact (symbol_of_isDigit_or hc).1

/-- A numeral is turned into a double as it is written. -/
theorem readFloat_text (n : Numeral) : readFloat n.text = .ok n.literal.toFloat := by
  obtain ⟨c, rest, hunsigned, hc⟩ := n.exists_unsigned_eq
  obtain ⟨-, hlower, hi, hn⟩ := symbol_of_isDigit_or hc
  have hempty : n.text.isEmpty = false := by
    rw [List.isEmpty_eq_false_iff, text, hunsigned]
    exact List.append_ne_nil_of_right_ne_nil _ (List.cons_ne_nil c rest)
  -- None of the words begins with a digit or a point.
  have hword : ∀ (first : Char) (more : List Char) (word : String),
      word.toList = first :: more → c ≠ first → String.ofList (lowerCase n.unsigned) ≠ word := by
    intro first more word hfirst hne heq
    have hlist := congrArg String.toList heq
    rw [String.toList_ofList, hfirst, hunsigned, lowerCase, List.map_cons, hlower] at hlist
    exact hne (List.cons.inj hlist).1
  have hinf := hword 'i' _ "inf" rfl hi
  have hinfinity := hword 'i' _ "infinity" rfl hi
  have hnan := hword 'n' _ "nan" rfl hn
  rw [readFloat, hempty, n.splitSign_text]
  simp only [Bool.false_eq_true, if_false, hinf, hinfinity, hnan, decide_false, Bool.or_false,
    readMagnitude?_unsigned]
  rfl

/-- The digits of what is read are digits. -/
theorem isDigit_of_mem_literal {c : Char} (h : c ∈ n.literal.whole ++ n.literal.fraction) :
    isDigit c = true := by
  rcases List.mem_append.mp h with h | h
  · exact n.whole_isDigit c h
  · rw [literal] at h
    cases hfraction : n.fraction with
    | none =>
      rw [hfraction] at h
      cases h
    | some fraction =>
      rw [hfraction] at h
      exact n.fraction_isDigit fraction hfraction c h

/-- The characters of a sign. -/
theorem mem_text_sign {sign : Sign} {c : Char} (h : c ∈ sign.text) :
    c ∈ ['+', '-', '.', 'e', 'E'] := by
  cases sign with
  | none => cases h
  | plus =>
    rw [List.mem_singleton.mp h]
    decide
  | minus =>
    rw [List.mem_singleton.mp h]
    decide

/-- The characters of a power of ten. -/
theorem mem_text_exponent {exponent : Exponent} {c : Char} (h : c ∈ exponent.text) :
    isDigit c = true ∨ c ∈ ['+', '-', '.', 'e', 'E'] := by
  rcases List.mem_cons.mp h with rfl | h
  · rcases exponent.letter_eq with heq | heq
    · exact .inr (by rw [heq]; decide)
    · exact .inr (by rw [heq]; decide)
  · rcases List.mem_append.mp h with h | h
    · exact .inr (mem_text_sign h)
    · exact .inl (exponent.isDigit c h)

/-- The characters of a numeral. -/
theorem mem_text {c : Char} (h : c ∈ n.text) :
    isDigit c = true ∨ c ∈ ['+', '-', '.', 'e', 'E'] := by
  rw [text, unsigned, tail, List.mem_append, List.mem_append, List.mem_append] at h
  rcases h with h | h | h | h
  · exact .inr (mem_text_sign h)
  · exact .inl (n.whole_isDigit c h)
  · cases hfraction : n.fraction with
    | none =>
      rw [hfraction] at h
      cases h
    | some fraction =>
      rw [hfraction] at h
      rcases List.mem_cons.mp h with rfl | h
      · exact .inr (by decide)
      · exact .inl (n.fraction_isDigit fraction hfraction c h)
  · cases hexponent : n.exponent with
    | none =>
      rw [hexponent] at h
      cases h
    | some exponent =>
      rw [hexponent] at h
      exact mem_text_exponent h

/-! ## Numerals that are read as integers -/

/-- The number that the digits before the point denote, with the sign. -/
def integer (n : Numeral) : ℤ :=
  if n.sign.isNegative then -(digitsValue n.whole : ℤ) else digitsValue n.whole

/-- It is the number that a plain numeral denotes. -/
theorem value_of_isPlain (h : n.IsPlain) : n.value = n.integer := by
  have hsize : n.literal.size = digitsValue n.whole := by
    rw [Literal.size, Literal.significand, Literal.power, literal, h.1, h.2]
    simp
  rw [value, Literal.value, hsize, integer, Int.cast_ite, Int.cast_neg, Int.cast_natCast]
  rfl

/-- The digits of a plain numeral are read, if the number is not too large. -/
theorem readDigits?_of_isPlain (h : n.IsPlain) (bound : ℕ) :
    Text.readDigits? bound n.unsigned =
      if digitsValue n.whole ≤ bound then some (digitsValue n.whole) else none := by
  have hunsigned : n.unsigned = n.whole := by
    rw [unsigned, tail, h.1, h.2]
    exact List.append_nil _
  have hempty : n.whole.isEmpty = false := by
    obtain ⟨c, rest, heq, -⟩ := n.exists_unsigned_eq
    rw [← hunsigned, heq]
    rfl
  have hall : n.whole.all isDigit = true := List.all_eq_true.mpr n.whole_isDigit
  rw [Text.readDigits?, hunsigned, hempty, hall]
  rfl

/-- Other numerals are not digits alone. -/
theorem readDigits?_of_not_isPlain (h : ¬ n.IsPlain) (bound : ℕ) :
    Text.readDigits? bound n.unsigned = none := by
  have hother : ∃ c ∈ n.tail, isDigit c = false := by
    rw [tail]
    cases hfraction : n.fraction with
    | some fraction => exact ⟨'.', List.mem_cons_self, by decide⟩
    | none =>
      cases hexponent : n.exponent with
      | none => exact absurd ⟨hfraction, hexponent⟩ h
      | some exponent =>
        refine ⟨exponent.letter, List.mem_cons_self, ?_⟩
        rcases exponent.letter_eq with heq | heq
        · rw [heq]
          decide
        · rw [heq]
          decide
  obtain ⟨c, hc, hother⟩ := hother
  have hall : n.unsigned.all isDigit = false :=
    List.all_eq_false.mpr ⟨c, List.mem_append_right _ hc, Bool.eq_false_iff.mp hother⟩
  rw [Text.readDigits?, hall, Bool.not_false, Bool.or_true, if_pos rfl]

/-- A sign says which bound holds for the digits of an integer. -/
theorem readInt?_text (n : Numeral) (bits : ℕ) : Text.readInt? bits n.text =
    if n.sign.isNegative then
      (Text.readDigits? (Nat.pow 2 (bits - 1)) n.unsigned).map fun m => -(m : ℤ)
    else (Text.readDigits? (Nat.pow 2 (bits - 1) - 1) n.unsigned).map Int.ofNat := by
  rw [text]
  cases n.sign with
  | plus => rfl
  | minus => rfl
  | none =>
    obtain ⟨c, rest, hunsigned, hc⟩ := n.exists_unsigned_eq
    obtain ⟨⟨hminus, hplus⟩, -⟩ := symbol_of_isDigit_or hc
    rw [Sign.text, List.nil_append, hunsigned]
    unfold Text.readInt?
    split
    · next heq => exact absurd (List.cons.inj heq).1 hminus
    · next heq => exact absurd (List.cons.inj heq).1 hplus
    · rfl

/-- A plain numeral is read as an integer exactly if the word has room for the number. -/
theorem readInt?_text_of_isPlain (h : n.IsPlain) (bits : ℕ) : Text.readInt? bits n.text =
    if -(Nat.pow 2 (bits - 1) : ℤ) ≤ n.integer ∧ n.integer < Nat.pow 2 (bits - 1) then
      some n.integer
    else none := by
  have hpos : 0 < Nat.pow 2 (bits - 1) := Nat.two_pow_pos _
  rw [readInt?_text, readDigits?_of_isPlain h, readDigits?_of_isPlain h, integer]
  split
  · split
    · next hle =>
      rw [if_pos (by omega)]
      rfl
    · next hgt =>
      rw [if_neg (by omega)]
      rfl
  · split
    · next hle =>
      rw [if_pos (by omega)]
      rfl
    · next hgt =>
      rw [if_neg (by omega)]
      rfl

/-- Other numerals are not read as integers. -/
theorem readInt?_text_of_not_isPlain (h : ¬ n.IsPlain) (bits : ℕ) :
    Text.readInt? bits n.text = none := by
  rw [readInt?_text, readDigits?_of_not_isPlain h, readDigits?_of_not_isPlain h]
  split
  · rfl
  · rfl

end Numeral

end Number

end SolverPortfolio
