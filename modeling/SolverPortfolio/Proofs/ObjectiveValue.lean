import SolverPortfolio.Proofs.Numerals
import SolverPortfolio.Proofs.Transcript

/-
# Objective values as they are printed

A value is read as an integer if it is written as one that fits 64 bits, and as a double if not:
then the number that is taken is the double nearest to the one printed, if that is whole, moved
into the range of 64 bits. So an integer that is printed with a point is taken as it is if it is a
double, and other integers of the range are not, but for the largest one, to which the double next
to it is moved back. Numbers that are no integers of the range are taken for one if the nearest
double is a whole number.

Main definitions: `rounded?`, `faithful?`, `ObjectiveLine`.
Main statements: `readObjective?_text`, `StreamReader.objective_read`.
-/

namespace SolverPortfolio

open Number (IsNearest IsDouble Denotes Numeral)

/-! ## Whole doubles -/

/-- The whole number that a significand and an exponent stand for is found if there is one. -/
theorem wholeSize_eq_some_iff {m n : ℕ} {e : ℤ} :
    (if 0 ≤ e then some (m * Nat.pow 2 e.toNat)
      else if m % Nat.pow 2 (-e).toNat = 0 then some (m / Nat.pow 2 (-e).toNat) else none) =
        some n ↔ (m : ℚ) * 2 ^ e = n := by
  split
  · next he =>
    obtain ⟨k, rfl⟩ := Int.eq_ofNat_of_zero_le he
    rw [Int.toNat_natCast, zpow_natCast, Option.some_inj, ← Nat.cast_inj (R := ℚ)]
    push_cast [Nat.pow_eq]
    rfl
  · next he =>
    obtain ⟨k, hk⟩ := Int.eq_ofNat_of_zero_le (show 0 ≤ -e by omega)
    have hpos : 0 < Nat.pow 2 k := Nat.two_pow_pos k
    have hvalue : (m : ℚ) * 2 ^ e = n ↔ m = n * Nat.pow 2 k := by
      rw [← neg_neg e, hk, zpow_neg, zpow_natCast, ← div_eq_mul_inv, div_eq_iff (by positivity),
        ← Nat.cast_inj (R := ℚ)]
      push_cast [Nat.pow_eq]
      rfl
    rw [hvalue, hk, Int.toNat_natCast]
    split
    · next hmod =>
      rw [Option.some_inj]
      exact Nat.div_eq_iff_eq_mul_left hpos (Nat.dvd_of_mod_eq_zero hmod)
    · next hmod =>
      refine iff_of_false (by simp) ?_
      rintro rfl
      exact hmod (Nat.mul_mod_left n _)

/-- The whole number that a double stands for is found. -/
theorem wholeOfDouble?_of_eq {x : Float} {negative : Bool} {y : ℚ} {n : ℕ}
    (h : Denotes negative y (Number.parts x)) (hn : y = n) (hlt : y < 2 ^ 1024) :
    wholeOfDouble? x = some (if negative then -(n : ℤ) else n) := by
  rw [wholeOfDouble?]
  cases hparts : Number.parts x with
  | nan =>
    rw [hparts] at h
    exact h.elim
  | infinite sign =>
    rw [hparts] at h
    exact absurd hlt (not_lt.mpr h.2)
  | finite sign m e =>
    rw [hparts] at h
    obtain ⟨rfl, hy, -⟩ := h
    dsimp only
    rw [wholeSize_eq_some_iff.mpr (hy.trans hn)]
    rfl

/-- A double that stands for no whole number, or is infinite, is none. -/
theorem wholeOfDouble?_eq_none {x : Float} {negative : Bool} {y : ℚ}
    (h : Denotes negative y (Number.parts x)) (hy : ¬ ((∃ n : ℕ, y = n) ∧ y < 2 ^ 1024)) :
    wholeOfDouble? x = none := by
  rw [wholeOfDouble?]
  cases hparts : Number.parts x with
  | nan => rfl
  | infinite sign => rfl
  | finite sign m e =>
    rw [hparts] at h
    obtain ⟨rfl, hvalue, hlt⟩ := h
    dsimp only
    rw [Option.eq_none_iff_forall_ne_some.mpr fun n hn =>
      hy ⟨⟨n, hvalue.symm.trans (wholeSize_eq_some_iff.mp hn)⟩, hlt⟩]
    rfl

/-! ## What is read from a numeral -/

open StreamReader (FitsWord)

instance (v : Objective) : Decidable (FitsWord v) := inferInstanceAs (Decidable (_ ∧ _))

/-- The integer that a number is, if it is one that fits 64 bits. -/
def faithful? (x : ℚ) : Option Objective :=
  if x.den = 1 ∧ FitsWord x.num then some x.num else none

/-- The integer that is taken for a finite double, if that is whole. -/
def rounded? (y : ℚ) : Option Objective :=
  if y.den = 1 ∧ |y| < 2 ^ 1024 then some (saturate y.num) else none

/-- A number with a sign is taken as the double that stands for it. -/
theorem saturate_wholeOfDouble? {x : Float} {negative : Bool} {y : ℚ} (hnonneg : 0 ≤ y)
    (h : Denotes negative y (Number.parts x)) :
    (wholeOfDouble? x).map saturate = rounded? (if negative then -y else y) := by
  have habs : |if negative then -y else y| = y := by
    split
    · rw [abs_neg, abs_of_nonneg hnonneg]
    · exact abs_of_nonneg hnonneg
  rw [rounded?, habs]
  by_cases hwhole : (∃ n : ℕ, y = n) ∧ y < 2 ^ 1024
  · obtain ⟨⟨n, hn⟩, hlt⟩ := hwhole
    have hint : (if negative then -y else y) = ((if negative then -(n : ℤ) else n : ℤ) : ℚ) := by
      rw [hn]
      push_cast
      rfl
    rw [wholeOfDouble?_of_eq h hn hlt, hint, Rat.den_intCast, Rat.num_intCast]
    exact (if_pos ⟨rfl, hlt⟩).symm
  · rw [wholeOfDouble?_eq_none h hwhole, if_neg]
    · rfl
    · rintro ⟨hden, hlt⟩
      refine hwhole ⟨?_, hlt⟩
      refine ⟨(if negative then -y else y).num.natAbs, ?_⟩
      rw [Nat.cast_natAbs, Int.cast_abs, (Rat.den_eq_one_iff _).mp hden, habs]

/-- A numeral that is a 64-bit integer is read as it is, and any other one as the nearest double. -/
theorem readObjective?_text (n : Numeral) :
    ∃ y, IsNearest n.value y ∧ readObjective? n.text =
      if n.IsPlain ∧ FitsWord n.integer then some n.integer else rounded? y := by
  obtain ⟨y, hy, hnonneg, hdenotes⟩ :=
    Number.Literal.exists_isNearest_toFloat fun _ hd => n.isDigit_of_mem_literal hd
  refine ⟨if n.literal.negative then -y else y, ?_, ?_⟩
  · rw [Numeral.value, Number.Literal.value]
    split
    · exact hy.neg
    · exact hy
  · have hread : Text.readInt? 64 n.text =
        if n.IsPlain ∧ FitsWord n.integer then some n.integer else none := by
      by_cases hplain : n.IsPlain
      · rw [Numeral.readInt?_text_of_isPlain hplain]
        exact if_congr (and_iff_right hplain).symm rfl rfl
      · rw [Numeral.readInt?_text_of_not_isPlain hplain, if_neg fun h => hplain h.1]
    rw [readObjective?, hread, n.readFloat_text, ← saturate_wholeOfDouble? hnonneg hdenotes]
    by_cases hfits : n.IsPlain ∧ FitsWord n.integer
    · rw [if_pos hfits, if_pos hfits]
    · rw [if_neg hfits, if_neg hfits]

/-! ## Where the double is the number -/

/-- The largest integer of 64 bits is rounded to the power of two above it. -/
theorem isNearest_largest : IsNearest ((2 ^ 63 - 1 : ℤ) : ℚ) ((2 ^ 63 : ℤ) : ℚ) := by
  have hquotient : ((2 ^ 63 - 1 : ℤ) : ℚ) / 2 ^ (10 : ℤ) = 2 ^ 53 - 1 / 2 ^ 10 := by norm_num
  have hdist : |((2 ^ 63 - 1 : ℤ) : ℚ) / 2 ^ (10 : ℤ) - ((2 ^ 53 : ℤ) : ℚ)| = 1 / 2 ^ 10 := by
    rw [hquotient]
    norm_num
  have hnearest : Number.IsNearestInt (((2 ^ 63 - 1 : ℤ) : ℚ) / 2 ^ (10 : ℤ)) (2 ^ 53) :=
    ⟨by rw [hdist]; norm_num, fun heq => by rw [hdist] at heq; norm_num at heq⟩
  have hscaled := Number.isNearest_of_multiple (by norm_num) hnearest (by norm_num) le_rfl
    fun _ => by norm_num
  have hvalue : (((2 ^ 53 : ℤ) : ℚ)) * 2 ^ (10 : ℤ) = ((2 ^ 63 : ℤ) : ℚ) := by norm_num
  rwa [hvalue] at hscaled

/-- An integer of 64 bits is taken as it is if it is a double, or the largest one. -/
theorem rounded?_eq_some_iff {v : ℤ} {y : ℚ} (h : IsNearest v y) (hv : FitsWord v) :
    rounded? y = some v ↔ IsDouble v ∨ v = 2 ^ 63 - 1 := by
  obtain ⟨k, rfl⟩ := h.exists_int
  obtain ⟨hlow, hhigh⟩ : -2 ^ 63 ≤ v ∧ v < 2 ^ 63 := by simpa [FitsWord] using hv
  have hle : k ≤ 2 ^ 63 := by
    have hle := h.le_of_le (Number.isDouble_two_pow 63) (by exact_mod_cast hhigh.le)
    exact_mod_cast hle
  have hge : -2 ^ 63 ≤ k := by
    have hge := h.ge_of_ge (Number.isDouble_two_pow 63).neg (by exact_mod_cast hlow)
    exact_mod_cast hge
  have hsize : |(k : ℚ)| < 2 ^ 1024 := by
    have habs : |(k : ℚ)| ≤ 2 ^ 63 := by exact_mod_cast abs_le.mpr ⟨hge, hle⟩
    exact habs.trans_lt (pow_lt_pow_right₀ one_lt_two (by norm_num))
  have hrounded : rounded? k = some (saturate k) := by
    rw [rounded?, Rat.den_intCast, Rat.num_intCast]
    exact if_pos ⟨rfl, hsize⟩
  have hsaturate : saturate k = min (2 ^ 63 - 1) k := by
    rw [saturate]
    simp only [Nat.pow_eq]
    omega
  rw [hrounded, Option.some_inj, hsaturate]
  constructor
  · intro hmin
    rcases eq_or_lt_of_le hle with heq | hlt
    · exact .inr (by omega)
    · have hk : k = v := by omega
      exact .inl (hk ▸ h.isDouble)
  · rintro (hdouble | rfl)
    · have hk : k = v := by exact_mod_cast h.eq_of_isDouble hdouble
      omega
    · -- The nearest double is out of range here, and moved back by one.
      have hk : k = 2 ^ 63 := by exact_mod_cast h.unique isNearest_largest
      omega

/-- What is taken for the nearest double is the number exactly if the number is a double, or the
largest integer of 64 bits, or else no integer of 64 bits while the double is not whole. -/
theorem rounded?_eq_faithful?_iff {x y : ℚ} (h : IsNearest x y) : rounded? y = faithful? x ↔
    if x.den = 1 ∧ FitsWord x.num then IsDouble x ∨ x = 2 ^ 63 - 1
    else ¬ (y.den = 1 ∧ |y| < 2 ^ 1024) := by
  rw [faithful?]
  split
  · next hx =>
    have hnum : x = x.num := ((Rat.den_eq_one_iff x).mp hx.1).symm
    rw [rounded?_eq_some_iff (hnum ▸ h) hx.2, ← hnum]
    refine or_congr_right ?_
    constructor
    · intro heq
      rw [hnum, heq]
      norm_num
    · intro heq
      rw [heq]
      norm_num [Rat.num_ofNat]
  · rw [rounded?]
    split
    · next hy => exact iff_of_false (by simp) (not_not.mpr hy)
    · next hy => exact iff_of_true rfl hy

/-! ## Lines with a numeral -/

/-- What is assigned to the tracked variable: a numeral with white space around it, followed by
semicolons. -/
structure ObjectiveLine where
  indent : List Char
  numeral : Numeral
  space : List Char
  semicolons : ℕ
  trail : List Char
  indent_blank : ∀ c ∈ indent, Text.isBlank c = true
  space_blank : ∀ c ∈ space, Text.isBlank c = true
  trail_blank : ∀ c ∈ trail, Text.isBlank c = true

/-- A numeral has no white space and no semicolons. -/
theorem isBlank_of_mem_numeral {n : Numeral} {c : Char} (h : c ∈ n.text) :
    Text.isBlank c = false ∧ c ≠ ';' := by
  rcases Numeral.mem_text h with hdigit | hsymbol
  · obtain ⟨hlow, hhigh⟩ := Bool.and_eq_true_iff.mp hdigit
    have hlow : 48 ≤ c.toNat := of_decide_eq_true hlow
    have hhigh : c.toNat ≤ 57 := of_decide_eq_true hhigh
    refine ⟨?_, fun hc => absurd (hc ▸ hhigh) (by decide)⟩
    simp [Text.isBlank]
    omega
  · simp only [List.mem_cons, List.not_mem_nil, or_false] at hsymbol
    rcases hsymbol with rfl | rfl | rfl | rfl | rfl <;> decide

namespace ObjectiveLine

variable (line : ObjectiveLine)

/-- The line that assigns to a variable. -/
def text (tracked : String) : List Char :=
  tracked.toList ++ " = ".toList ++
    (line.indent ++ line.numeral.text ++ line.space ++ List.replicate line.semicolons ';' ++
      line.trail)

/-- The assignment without the white space at the end of the line. -/
def kept : List Char :=
  line.indent ++ line.numeral.text ++
    if line.semicolons = 0 then [] else line.space ++ List.replicate line.semicolons ';'

/-- A numeral is not empty. -/
theorem text_numeral_ne_nil : line.numeral.text ≠ [] := by
  obtain ⟨c, rest, hunsigned, -⟩ := line.numeral.exists_unsigned_eq
  rw [Numeral.text, hunsigned]
  exact List.append_ne_nil_of_right_ne_nil _ (List.cons_ne_nil c rest)

/-- White space at the end of the line is dropped. -/
theorem trimEnd_text (tracked : String) :
    Text.trimEnd (line.text tracked) = tracked.toList ++ " = ".toList ++ line.kept := by
  rw [text, kept, ← List.append_assoc (tracked.toList ++ " = ".toList), Text.trimEnd,
    Text.dropEnd_append line.trail_blank]
  split
  · next hnone =>
    rw [hnone, List.replicate_zero, List.append_nil, List.append_nil, ← List.append_assoc,
      Text.dropEnd_append line.space_blank]
    refine Text.dropEnd_eq_self fun c hc => ?_
    rw [← List.append_assoc, List.getLast?_append_of_ne_nil _ line.text_numeral_ne_nil] at hc
    exact (isBlank_of_mem_numeral (List.mem_of_getLast? hc)).1
  · next hsome =>
    obtain ⟨k, hk⟩ := Nat.exists_eq_succ_of_ne_zero hsome
    rw [hk, List.replicate_succ', ← List.append_assoc, ← List.append_assoc,
      Text.dropEnd_append_singleton, if_neg (by decide)]
    simp only [List.append_assoc]

/-- No semicolons are dropped behind white space and a numeral. -/
theorem dropEnd_eq_self {after : List Char} (h : ∀ c ∈ after, Text.isBlank c = true) :
    Text.dropEnd (· = ';') (line.indent ++ line.numeral.text ++ after) =
      line.indent ++ line.numeral.text ++ after := by
  refine Text.dropEnd_eq_self fun c hc => decide_eq_false ?_
  rintro rfl
  rcases List.mem_append.mp (List.mem_of_getLast? hc) with hc | hc
  · rcases List.mem_append.mp hc with hc | hc
    · exact absurd (line.indent_blank _ hc) (by decide)
    · exact (isBlank_of_mem_numeral hc).2 rfl
  · exact absurd (h _ hc) (by decide)

/-- White space around the numeral is trimmed. -/
theorem trim_eq {after : List Char} (h : ∀ c ∈ after, Text.isBlank c = true) :
    Text.trim (line.indent ++ line.numeral.text ++ after) = line.numeral.text :=
  Text.trim_append_append line.indent_blank h line.text_numeral_ne_nil
    (fun _ hc => (isBlank_of_mem_numeral (List.mem_of_head? hc)).1)
    (fun _ hc => (isBlank_of_mem_numeral (List.mem_of_getLast? hc)).1)

/-- What is left without semicolons and white space around is the numeral. -/
theorem trim_kept : Text.trim (Text.dropEnd (· = ';') line.kept) = line.numeral.text := by
  rw [kept]
  split
  · rw [line.dropEnd_eq_self Text.isBlank_of_mem_nil, line.trim_eq Text.isBlank_of_mem_nil]
  · have hsemicolons : ∀ c ∈ List.replicate line.semicolons ';', decide (c = ';') = true :=
      fun c hc => decide_eq_true (List.eq_of_mem_replicate hc)
    rw [← List.append_assoc, Text.dropEnd_append hsemicolons,
      line.dropEnd_eq_self line.space_blank, line.trim_eq line.space_blank]

end ObjectiveLine

/-! ## What is answered to a line -/

namespace StreamReader

/-- The answer to a line, given what is taken for its value. -/
def answer (line : List Char) : Option Objective → Except BadObjective (Option StreamEvent)
  | some v => .ok (some (.bound v))
  | none => .error ⟨String.ofList line⟩

/-- Answers tell what was taken for the value. -/
theorem answer_inj {line : List Char} {v? w? : Option Objective} :
    answer line v? = answer line w? ↔ v? = w? := by
  cases v? with
  | none =>
    cases w? with
    | none => exact iff_of_true rfl rfl
    | some w => simp [answer]
  | some v =>
    cases w? with
    | none => simp [answer]
    | some w => simp [answer]

/-- A line that assigns to the tracked variable is answered with what is read from the numeral. -/
theorem feed_objectiveLine {r : StreamReader} {tracked : String}
    (hr : r.tracked = tracked.toList ++ " = ".toList) (line : ObjectiveLine) :
    (r.feed (line.text tracked)).2 =
      answer (Text.trimEnd (line.text tracked)) (readObjective? line.numeral.text) := by
  have htrim := line.trimEnd_text tracked
  have hspace : ' ' ∈ Text.trimEnd (line.text tracked) := by simp [htrim]
  obtain ⟨hterminator, hstatus⟩ := SearchStatus.ofLine?_of_mem_space hspace
  have hstrip : Text.stripStart? r.tracked (Text.trimEnd (line.text tracked)) = some line.kept := by
    rw [hr, htrim, Text.stripStart?_append]
  cases hread : readObjective? line.numeral.text with
  | some v => simp [feed, hterminator, hstatus, hstrip, objectiveOfLine, line.trim_kept, hread, answer]
  | none => simp [feed, hterminator, hstatus, hstrip, objectiveOfLine, line.trim_kept, hread, answer]

/-- Whatever was read before, a line with a numeral is answered with the number, if that is written
as an integer of 64 bits, and with what is taken for the nearest double if not. So the answer is
the number, or a complaint if it is no integer of 64 bits, exactly as said by the last part: an
integer must be written plainly, or be a double or the largest one, and the double nearest to
another number must not be whole. -/
theorem objective_read (tracked : String) (history : List (List Char)) (line : ObjectiveLine) :
    ∃ y, IsNearest line.numeral.value y ∧
      (((start tracked).after history).feed (line.text tracked)).2 =
        answer (Text.trimEnd (line.text tracked))
          (if line.numeral.IsPlain ∧ FitsWord line.numeral.integer then some line.numeral.integer
            else rounded? y) ∧
      ((((start tracked).after history).feed (line.text tracked)).2 =
          answer (Text.trimEnd (line.text tracked)) (faithful? line.numeral.value) ↔
        if line.numeral.value.den = 1 ∧ FitsWord line.numeral.value.num then
          line.numeral.IsPlain ∨ IsDouble line.numeral.value ∨ line.numeral.value = 2 ^ 63 - 1
        else ¬ (y.den = 1 ∧ |y| < 2 ^ 1024)) := by
  obtain ⟨y, hy, hread⟩ := readObjective?_text line.numeral
  have hfeed := feed_objectiveLine (r := (start tracked).after history) tracked_after line
  rw [hread] at hfeed
  refine ⟨y, hy, hfeed, ?_⟩
  rw [hfeed, answer_inj]
  have hinteger : line.numeral.IsPlain →
      line.numeral.value.den = 1 ∧ line.numeral.value.num = line.numeral.integer := by
    intro hplain
    rw [Numeral.value_of_isPlain hplain]
    exact ⟨Rat.den_intCast _, Rat.num_intCast _⟩
  by_cases hfits : line.numeral.IsPlain ∧ FitsWord line.numeral.integer
  · obtain ⟨hden, hnum⟩ := hinteger hfits.1
    have hvalue : line.numeral.value.den = 1 ∧ FitsWord line.numeral.value.num :=
      ⟨hden, hnum ▸ hfits.2⟩
    rw [if_pos hfits, if_pos hvalue, faithful?, if_pos hvalue, hnum]
    exact iff_of_true rfl (.inl hfits.1)
  · rw [if_neg hfits, rounded?_eq_faithful?_iff hy]
    split
    · next hvalue =>
      have hplain : ¬ line.numeral.IsPlain := fun hplain =>
        hfits ⟨hplain, (hinteger hplain).2 ▸ hvalue.2⟩
      rw [or_iff_right hplain]
    · exact Iff.rfl

/-- An integer of 64 bits that needs 54 binary digits, printed with a point. -/
def pointedLine : ObjectiveLine where
  indent := []
  numeral :=
    { sign := .none
      whole := "9007199254740993".toList
      fraction := some ['0']
      exponent := none
      whole_isDigit := List.all_eq_true.mp rfl
      fraction_isDigit := by
        rintro ds ⟨⟩
        exact List.all_eq_true.mp rfl
      ne_nil := by decide }
  space := []
  semicolons := 1
  trail := []
  indent_blank := Text.isBlank_of_mem_nil
  space_blank := Text.isBlank_of_mem_nil
  trail_blank := Text.isBlank_of_mem_nil

/-- The integer below it is answered. -/
theorem integer_distorted :
    pointedLine.text "_objective" = "_objective = 9007199254740993.0;".toList ∧
      pointedLine.numeral.value = 9007199254740993 ∧
      ((start "_objective").feed (pointedLine.text "_objective")).2 =
        .ok (some (.bound 9007199254740992)) := by
  have hsignificand : pointedLine.numeral.literal.significand = 90071992547409930 := by
    decide +kernel
  have hvalue : pointedLine.numeral.value = 90071992547409930 * 10 ^ (-1 : ℤ) := by
    rw [← Nat.cast_ofNat, ← hsignificand]
    rfl
  refine ⟨by decide +kernel, ?_, by decide +kernel⟩
  rw [hvalue]
  norm_num

end StreamReader

end SolverPortfolio
