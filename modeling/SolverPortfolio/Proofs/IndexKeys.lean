import Mathlib.Data.List.Induction
import SolverPortfolio.Limits
import SolverPortfolio.Proofs.JsonText

/-
# Keys for indexes

A dictionary of limits names an index by its decimal digits, which may stand behind zeros and a plus
sign and have white space around them. Just these texts are read as the index, as long as it fits
into a word; so one key names one index only.

Main definitions: `Text.padded`, `Limits.KeyForm`, `Limits.IsKey`.
Main statements: `Text.readDigits?_eq_some_iff`, `Limits.readIndex?_eq_some_iff`,
`Limits.IsKey.unique`.
-/

namespace SolverPortfolio

namespace Text

/-! ## Digits with zeros in front -/

/-- A digit more counts tenfold all digits before. -/
theorem digitsValue_concat (ds : List Char) (d : Char) :
    digitsValue (ds ++ [d]) = 10 * digitsValue ds + digitValue d := by
  rw [digitsValue, digitsValueFrom, List.foldl_concat]
  rfl

/-- The decimal digits of a number behind zeros. -/
def padded (zeros n : ℕ) : List Char := List.replicate zeros '0' ++ Nat.toDigits 10 n

/-- Zeros in front do not count. -/
@[simp] theorem digitsValue_padded (zeros n : ℕ) : digitsValue (padded zeros n) = n := by
  rw [padded]
  induction zeros with
  | zero => exact digitsValue_toDigits n
  | succ k ih =>
    rw [List.replicate_succ, List.cons_append]
    exact ih

/-- Zeros and decimal digits are digits. -/
theorem isDigit_of_mem_padded {zeros n : ℕ} {c : Char} (h : c ∈ padded zeros n) :
    isDigit c = true := by
  rcases List.mem_append.mp h with hzero | hdigit
  · exact List.eq_of_mem_replicate hzero ▸ rfl
  · exact isDigit_of_mem_toDigits hdigit

/-- There is at least one digit. -/
theorem padded_ne_nil (zeros n : ℕ) : padded zeros n ≠ [] :=
  List.append_ne_nil_of_right_ne_nil _ Nat.toDigits_ne_nil

/-- A digit is the decimal text of what it stands for. -/
theorem toDigits_digitValue {d : Char} (h : isDigit d = true) :
    Nat.toDigits 10 (digitValue d) = [d] := by
  have hlow : 48 ≤ d.toNat := of_decide_eq_true (Bool.and_eq_true_iff.mp h).1
  have hhigh : d.toNat ≤ 57 := of_decide_eq_true (Bool.and_eq_true_iff.mp h).2
  have hvalue : digitValue d = d.toNat - 48 := rfl
  have hchar : Nat.digitChar (d.toNat - 48) = d := by
    apply Char.toNat_inj.mp
    rw [Nat.toNat_digitChar_of_lt_ten (by omega)]
    omega
  rw [hvalue, Nat.toDigits_of_lt_base (by omega), hchar]

/-- A row of digits is the decimal text of a number, with zeros in front. -/
theorem exists_eq_padded {ds : List Char} (hne : ds ≠ []) (h : ∀ d ∈ ds, isDigit d = true) :
    ∃ zeros, ds = padded zeros (digitsValue ds) := by
  induction ds using List.reverseRecOn with
  | nil => exact absurd rfl hne
  | append_singleton ds d ih =>
    have hd : isDigit d = true := h d (by simp)
    have hone := toDigits_digitValue hd
    rw [digitsValue_concat]
    by_cases hnil : ds = []
    · subst hnil
      refine ⟨0, ?_⟩
      show [d] = Nat.toDigits 10 (10 * 0 + digitValue d)
      rw [Nat.mul_zero, Nat.zero_add, hone]
    · obtain ⟨zeros, hzeros⟩ := ih hnil fun c hc => h c (List.mem_append_left _ hc)
      rw [padded] at hzeros
      by_cases hvalue : digitsValue ds = 0
      · -- The digits so far are all zeros, and the last of them stands in front now, too.
        rw [hvalue, Nat.toDigits_zero] at hzeros
        refine ⟨zeros + 1, ?_⟩
        rw [padded, hvalue, Nat.mul_zero, Nat.zero_add, hone, hzeros, List.replicate_succ']
      · refine ⟨zeros, ?_⟩
        have hlt : digitValue d < 10 := by
          have hhigh : d.toNat ≤ 57 := of_decide_eq_true (Bool.and_eq_true_iff.mp hd).2
          show d.toNat - 48 < 10
          omega
        rw [padded, ← Nat.toDigits_append_toDigits (by decide) (Nat.pos_of_ne_zero hvalue) hlt,
          hone, ← List.append_assoc, ← hzeros]

/-- Just the decimal text of a number within the bound is read, with any zeros in front. -/
theorem readDigits?_eq_some_iff {bound n : ℕ} {ds : List Char} :
    readDigits? bound ds = some n ↔ (∃ zeros, ds = padded zeros n) ∧ n ≤ bound := by
  rw [readDigits?]
  constructor
  · intro h
    split at h
    · cases h
    · next hdigits =>
      rw [Bool.or_eq_true, not_or, List.isEmpty_iff, Bool.not_eq_true', Bool.not_eq_false,
        List.all_eq_true] at hdigits
      dsimp only at h
      split at h
      · next hle =>
        cases h
        exact ⟨exists_eq_padded hdigits.1 hdigits.2, hle⟩
      · cases h
  · rintro ⟨⟨zeros, rfl⟩, hle⟩
    have hne : (padded zeros n).isEmpty = false :=
      List.isEmpty_eq_false_iff.mpr (padded_ne_nil zeros n)
    have hall : (padded zeros n).all isDigit = true :=
      List.all_eq_true.mpr fun c => isDigit_of_mem_padded
    simp [hne, hall, hle]

/-- A plus sign, or nothing. -/
def plusSign (plus : Bool) : List Char := if plus then ['+'] else []

/-- A plus sign may stand in front of the digits. -/
theorem readNat?_eq_some_iff {bound n : ℕ} {s : List Char} :
    readNat? bound s = some n ↔
      (∃ plus zeros, s = plusSign plus ++ padded zeros n) ∧ n ≤ bound := by
  rw [readNat?.eq_def]
  split
  · next ds =>
    rw [readDigits?_eq_some_iff]
    refine and_congr_left fun _ => ⟨?_, ?_⟩
    · rintro ⟨zeros, rfl⟩
      exact ⟨true, zeros, rfl⟩
    · rintro ⟨plus, zeros, heq⟩
      cases plus with
      | true => exact ⟨zeros, (List.cons.inj heq).2⟩
      | false =>
        have hmem : '+' ∈ padded zeros n := by
          rw [show padded zeros n = '+' :: ds from heq.symm]
          exact List.mem_cons_self
        cases isDigit_of_mem_padded hmem
  · next hplus =>
    rw [readDigits?_eq_some_iff]
    refine and_congr_left fun _ => ⟨?_, ?_⟩
    · rintro ⟨zeros, rfl⟩
      exact ⟨false, zeros, rfl⟩
    · rintro ⟨plus, zeros, heq⟩
      cases plus with
      | true => exact absurd heq (hplus _)
      | false => exact ⟨zeros, heq⟩

end Text

namespace Limits

/-! ## Keys -/

/-- How the decimal digits of an index may be written in a key: with white space at both ends, a
plus sign, and zeros. -/
structure KeyForm where
  before : List Char
  after : List Char
  blank : ∀ c ∈ before ++ after, Text.isBlank c = true
  plus : Bool
  zeros : ℕ

/-- The text of an index. -/
def KeyForm.text (form : KeyForm) (i : ℕ) : List Char :=
  form.before ++ (Text.plusSign form.plus ++ Text.padded form.zeros i) ++ form.after

/-- The key is the text of an index in some form. -/
def IsKey (i : ℕ) (key : String) : Prop := ∃ form : KeyForm, key.toList = form.text i

variable {i j : ℕ} {key : String}

/-- Just the keys of an index within the bound are read as the index. -/
theorem readNat?_trim_iff {bound : ℕ} :
    Text.readNat? bound (Text.trim key.toList) = some i ↔ IsKey i key ∧ i ≤ bound := by
  rw [Text.readNat?_eq_some_iff]
  refine and_congr_left fun _ => ⟨?_, ?_⟩
  · rintro ⟨plus, zeros, htrim⟩
    obtain ⟨before, after, hkey, hbefore, hafter⟩ := Text.exists_eq_append_trim key.toList
    refine ⟨⟨before, after, List.forall_mem_append.mpr ⟨hbefore, hafter⟩, plus, zeros⟩, ?_⟩
    rw [KeyForm.text, ← htrim]
    exact hkey
  · rintro ⟨form, hkey⟩
    obtain ⟨hbefore, hafter⟩ := List.forall_mem_append.mp form.blank
    refine ⟨form.plus, form.zeros, ?_⟩
    have hsolid (c : Char) (hc : c ∈ Text.plusSign form.plus ++ Text.padded form.zeros i) :
        Text.isBlank c = false := by
      rcases List.mem_append.mp hc with hsign | hdigit
      · rw [Text.plusSign] at hsign
        split at hsign
        · exact List.mem_singleton.mp hsign ▸ rfl
        · cases hsign
      · exact Json.isBlank_of_isDigit (Text.isDigit_of_mem_padded hdigit)
    rw [hkey, KeyForm.text]
    exact Text.trim_append_append hbefore hafter
      (List.append_ne_nil_of_right_ne_nil _ (Text.padded_ne_nil form.zeros i))
      (fun c hc => hsolid c (List.mem_of_head? hc)) fun c hc => hsolid c (List.mem_of_getLast? hc)

/-- Just the keys of an index that fits into a word are read as the index. -/
theorem readIndex?_eq_some_iff : readIndex? key = some i ↔ IsKey i key ∧ i < wordCount := by
  have hpos : 0 < wordCount := by decide
  rw [readIndex?, readNat?_trim_iff]
  exact and_congr_right fun _ => by omega

/-- A key names one index only. -/
theorem IsKey.unique (h : IsKey i key) (h' : IsKey j key) : i = j := by
  have hi := readNat?_trim_iff.mpr ⟨h, Nat.le_max_left i j⟩
  have hj := readNat?_trim_iff.mpr ⟨h', Nat.le_max_right i j⟩
  exact Option.some.inj (hi.symm.trans hj)

end Limits

end SolverPortfolio
