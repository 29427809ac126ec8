import Mathlib.Data.List.Forall2
import SolverPortfolio.Proofs.Rewriting

/-
# What is read from rewritten JSON

When the word `nan` is replaced in a string literal, the literal denotes another text, with the
letters of the other word in it. Neither text is the name of a field of an outcome, the end of a run
or a goal, for none of these names has the letters of one of the two words. So an outcome is read
from a value as it was before words in string literals were replaced.

Main definitions: `Json.IsFixed`, `Json.Alike`, `Json.Renames`.
Main statements: `Json.StringText.rel_alike`, `Json.Renames.rel_asRecord?`, `Outcome.ofJson?_eq`.
-/

namespace SolverPortfolio

namespace Json

/-! ## Words that stay -/

/-- Replacing words in a literal neither makes nor unmakes this word. -/
def IsFixed (word : String) : Prop :=
  ¬ ('a' ∈ word.toList ∧ 'n' ∈ word.toList) ∧ ¬ ('u' ∈ word.toList ∧ 'l' ∈ word.toList)

/-- Whether a word stays is decided by its letters. -/
instance (word : String) : Decidable (IsFixed word) := inferInstanceAs (Decidable (_ ∧ _))

/-- Two texts are the same, as far as they are compared with words that stay. -/
def Alike (a b : String) : Prop := ∀ word, IsFixed word → (a = word ↔ b = word)

/-- A text before and after words in it are replaced is the same in this sense. -/
theorem Reworded.alike {k : ℕ} {a b : String} (h : Reworded k a.toList b.toList) : Alike a b := by
  intro word hword
  rcases Nat.eq_zero_or_pos k with hk | hk
  · rw [String.toList_inj.mp (h.eq_of_zero hk)]
  · obtain ⟨hold, hnew⟩ := h.letters hk
    refine iff_of_false ?_ ?_
    · rintro rfl
      exact hword.1 hold
    · rintro rfl
      exact hword.2 hnew

/-- Both are in a list of such words, or none of them is. -/
theorem Alike.mem_iff {a b : String} (h : Alike a b) {words : List String}
    (hwords : ∀ word ∈ words, IsFixed word) : a ∈ words ↔ b ∈ words :=
  ⟨fun ha => (h a (hwords a ha)).mp rfl ▸ ha, fun hb => (h b (hwords b hb)).mpr rfl ▸ hb⟩

/-- What literals denote before and after words in them are replaced. -/
theorem StringText.rel_value? (s : StringText) : ∃ k,
    Option.Rel (fun a b : String => Reworded k a.toList b.toList) s.value? s.replaced.value? ∧
      (k = 0 → s.replaced = s) := by
  obtain ⟨k, hrel, hsame⟩ := s.rel_replaced
  refine ⟨k, ?_, hsame⟩
  rw [value?, value?]
  generalize textOfUnits? (units s.content) = o at hrel ⊢
  generalize textOfUnits? (units s.replaced.content) = o' at hrel ⊢
  cases hrel with
  | none => exact .none
  | some h => exact .some (by rwa [String.toList_ofList, String.toList_ofList])

/-- What literals denote before and after words in them are replaced is alike. -/
theorem StringText.rel_alike (s : StringText) : Option.Rel Alike s.value? s.replaced.value? := by
  obtain ⟨k, hrel, -⟩ := s.rel_value?
  generalize s.value? = o at hrel ⊢
  generalize s.replaced.value? = o' at hrel ⊢
  cases hrel with
  | none => exact .none
  | some h => exact .some h.alike

/-- The same is found in a list of such words. -/
theorem Alike.lookup_eq {β : Type} {words : List (String × β)} (hwords : ∀ p ∈ words, IsFixed p.1)
    {a b : String} (h : Alike a b) : words.lookup a = words.lookup b := by
  induction words with
  | nil => rfl
  | cons p words ih =>
    have hfirst : (a == p.1) = (b == p.1) := by
      rw [Bool.eq_iff_iff, beq_iff_eq, beq_iff_eq]
      exact h p.1 (hwords p List.mem_cons_self)
    have hrest := ih fun q hq => hwords q (List.mem_cons_of_mem p hq)
    rw [List.lookup_cons, List.lookup_cons, hfirst, hrest]

/-- The same field is found among fields with such names. -/
theorem Alike.fieldIndex?_eq {fields : List (List String)}
    (hfields : ∀ names ∈ fields, ∀ name ∈ names, IsFixed name) {a b : String} (h : Alike a b) :
    fieldIndex? fields a = fieldIndex? fields b := by
  unfold fieldIndex?
  induction fields with
  | nil => rfl
  | cons names fields ih =>
    have hfirst : names.contains a = names.contains b := by
      rw [Bool.eq_iff_iff, List.contains_iff_mem, List.contains_iff_mem]
      exact h.mem_iff (hfields names List.mem_cons_self)
    rw [List.findIdx?_cons, List.findIdx?_cons, hfirst,
      ih fun names' hnames => hfields names' (List.mem_cons_of_mem names hnames)]

/-! ## What is read from rewritten values -/

/-- A value before and after words in its string literals are replaced. -/
def Renames (v w : Json) : Prop := ∃ source : Source, source.value = v ∧ source.replaced.value = w

section

variable {α : Type} [Quantity α] {v w : Json}

/-- The same number is read. -/
theorem Renames.asNumber?_eq (h : Renames v w) : (asNumber? v : Option α) = asNumber? w := by
  obtain ⟨source, rfl, rfl⟩ := h
  cases source <;> rfl

/-- An object with more than one member is no word. -/
theorem asWord?_object_cons_cons {β : Type} (words : List (String × β)) (p q : Option String × Json)
    (members : List (Option String × Json)) :
    asWord? words (.object (p :: q :: members)) = none := by
  obtain ⟨_ | name, v⟩ := p
  · rfl
  · cases v <;> rfl

/-- The same word is read, from a list of words that stay. -/
theorem Renames.asWord?_eq {β : Type} {words : List (String × β)}
    (hwords : ∀ p ∈ words, IsFixed p.1) (h : Renames v w) : asWord? words v = asWord? words w := by
  obtain ⟨source, rfl, rfl⟩ := h
  cases source with
  | string s =>
    have halike := s.rel_alike
    simp only [Source.value, Source.replaced]
    generalize s.value? = o at halike ⊢
    generalize s.replaced.value? = o' at halike ⊢
    cases halike with
    | none => rfl
    | some h => exact h.lookup_eq hwords
  | object members =>
    cases members with
    | last outer name inner before item after =>
      have halike := name.rel_alike
      simp only [Source.value, Source.replaced, Members.values, Members.replaced]
      generalize name.value? = o at halike ⊢
      generalize name.replaced.value? = o' at halike ⊢
      cases halike with
      | none => cases item <;> rfl
      | some h =>
        cases item with
        | null => exact h.lookup_eq hwords
        | _ => rfl
    | more outer name inner before item after rest =>
      cases rest <;>
      · simp only [Source.value, Source.replaced, Members.values, Members.replaced]
        rw [asWord?_object_cons_cons, asWord?_object_cons_cons]
  | _ => rfl

/-- Where `null` may stand, the same is read. -/
theorem Renames.asOption?_eq {β : Type} {read? : Json → Option β} (hread : read? v = read? w)
    (h : Renames v w) : asOption? read? v = asOption? read? w := by
  obtain ⟨source, rfl, rfl⟩ := h
  cases source with
  | null => rfl
  | _ => exact congrArg (Option.map some) hread

/-- The same is read from a field that may be missing. -/
theorem optionalField?_eq {β : Type} {read? : Json → Option β}
    (hread : ∀ v w, Renames v w → read? v = read? w) {v w : Option Json}
    (h : Option.Rel Renames v w) : optionalField? read? v = optionalField? read? w := by
  cases h with
  | none => rfl
  | some h => exact h.asOption?_eq (hread _ _ h)

/-- Places of the same fields hold the same values up to words in string literals. -/
abbrev SameFields : List (Option Json) → List (Option Json) → Prop :=
  List.Forall₂ (Option.Rel Renames)

/-- The places of one field hold the same. -/
theorem rel_getElem? {filled filled' : List (Option Json)} (h : SameFields filled filled') (i : ℕ) :
    Option.Rel (Option.Rel Renames) filled[i]? filled'[i]? := by
  induction h generalizing i with
  | nil => exact .none
  | cons hfirst hrest ih =>
    cases i with
    | zero => exact .some hfirst
    | succ i => exact ih i

/-- A value is put into the places of one field. -/
theorem SameFields.set {filled filled' : List (Option Json)} (h : SameFields filled filled')
    (i : ℕ) (hvalue : Renames v w) :
    SameFields (filled.set i (some v)) (filled'.set i (some w)) := by
  induction h generalizing i with
  | nil => exact .nil
  | cons hfirst hrest ih =>
    cases i with
    | zero => exact .cons (.some hvalue) hrest
    | succ i => exact .cons hfirst (ih i)

/-- One member is put into its field, if the rest of the members are. -/
theorem rel_fillFields_cons {fields : List (List String)}
    (hfields : ∀ names ∈ fields, ∀ name ∈ names, IsFixed name) {name name' : Option String}
    (hname : Option.Rel Alike name name') (hvalue : Renames v w)
    {members members' : List (Option String × Json)}
    (hrest : ∀ filled filled', SameFields filled filled' → Option.Rel SameFields
      (fillFields fields members filled) (fillFields fields members' filled'))
    {filled filled' : List (Option Json)} (h : SameFields filled filled') :
    Option.Rel SameFields (fillFields fields ((name, v) :: members) filled)
      (fillFields fields ((name', w) :: members') filled') := by
  cases hname with
  | none => exact .none
  | some hname =>
    simp only [fillFields, hname.fieldIndex?_eq hfields]
    split
    · exact hrest _ _ h
    · next i hi =>
      have hplace := rel_getElem? h i
      generalize filled[i]? = o at hplace ⊢
      generalize filled'[i]? = o' at hplace ⊢
      cases hplace with
      | none => exact .none
      | some hplace =>
        cases hplace with
        | none => exact hrest _ _ (h.set i hvalue)
        | some _ => exact .none

/-- The same fields are filled, with the same values up to words in string literals. -/
theorem Members.rel_fillFields {fields : List (List String)}
    (hfields : ∀ names ∈ fields, ∀ name ∈ names, IsFixed name) (members : Members) :
    ∀ filled filled', SameFields filled filled' → Option.Rel SameFields
      (fillFields fields members.values filled)
      (fillFields fields members.replaced.values filled') := by
  cases members with
  | last outer name inner before item after =>
    intro filled filled' h
    exact rel_fillFields_cons hfields name.rel_alike ⟨item, rfl, rfl⟩ (fun _ _ => .some) h
  | more outer name inner before item after rest =>
    intro filled filled' h
    exact rel_fillFields_cons hfields name.rel_alike ⟨item, rfl, rfl⟩
      (rest.rel_fillFields hfields) h

/-- The items of an array are the same up to words in string literals. -/
theorem Items.forall₂_values (items : Items) :
    List.Forall₂ Renames items.values items.replaced.values := by
  cases items with
  | last before item after => exact .cons ⟨item, rfl, rfl⟩ .nil
  | more before item after rest => exact .cons ⟨item, rfl, rfl⟩ rest.forall₂_values

/-- The items of an array are put into the fields in their order. -/
theorem rel_asRecord?_array (fields : List (List String)) {items items' : List Json}
    (h : List.Forall₂ Renames items items') :
    Option.Rel SameFields (asRecord? fields (.array items)) (asRecord? fields (.array items')) := by
  simp only [asRecord?, ← h.length_eq]
  split
  · exact .none
  · refine .some (List.rel_append ?_ (List.forall₂_same.mpr fun field hfield => ?_))
    · exact List.forall₂_map_left_iff.mpr (List.forall₂_map_right_iff.mpr (h.imp fun _ _ => .some))
    · rw [List.eq_of_mem_replicate hfield]
      exact .none

/-- The same record is read, with the same values up to words in string literals. -/
theorem Renames.rel_asRecord? {fields : List (List String)}
    (hfields : ∀ names ∈ fields, ∀ name ∈ names, IsFixed name) (h : Renames v w) :
    Option.Rel SameFields (asRecord? fields v) (asRecord? fields w) := by
  have hempty : SameFields (fields.map fun _ => none) (fields.map fun _ => none) :=
    List.forall₂_map_left_iff.mpr (List.forall₂_map_right_iff.mpr
      (List.forall₂_same.mpr fun _ _ => .none))
  obtain ⟨source, rfl, rfl⟩ := h
  cases source with
  | array items => exact rel_asRecord?_array fields items.forall₂_values
  | object members => exact members.rel_fillFields hfields _ _ hempty
  | emptyArray gap => exact rel_asRecord?_array fields .nil
  | emptyObject gap => exact .some hempty
  | _ => exact .none

/-- The same list is read, if the same items are. -/
theorem Renames.asList?_eq {β : Type} {item : Json → Option β}
    (hitem : ∀ v w, Renames v w → item v = item w) (h : Renames v w) :
    asList? item v = asList? item w := by
  obtain ⟨source, rfl, rfl⟩ := h
  cases source with
  | array items =>
    have hvalues := items.forall₂_values
    simp only [Source.value, Source.replaced, asList?]
    generalize items.values = vs at hvalues ⊢
    generalize items.replaced.values = ws at hvalues ⊢
    induction hvalues with
    | nil => rfl
    | cons hfirst hrest ih => rw [List.mapM_cons, List.mapM_cons, hitem _ _ hfirst, ih]
  | _ => rfl

end

end Json

/-- An outcome is read as before words in string literals are replaced. -/
theorem Outcome.ofJson?_eq {α : Type} [Quantity α] {v w : Json} (h : Json.Renames v w) :
    (Outcome.ofJson? v : Option (Outcome α)) = Outcome.ofJson? w := by
  have hrecord : Option.Rel Json.SameFields (v.asRecord? fields) (w.asRecord? fields) :=
    h.rel_asRecord? (by decide)
  unfold ofJson?
  generalize v.asRecord? Outcome.fields = o at hrecord ⊢
  generalize w.asRecord? Outcome.fields = o' at hrecord ⊢
  cases hrecord with
  | none => rfl
  | some hfields =>
    -- Only lists of six fields are read.
    rcases hfields with _ | ⟨htime, _ | ⟨hstatus, _ | ⟨hgoal, _ | ⟨hscore, _ |
      ⟨harea, _ | ⟨hvalue, _ | _⟩⟩⟩⟩⟩⟩
    · rfl
    · rfl
    · rfl
    · rfl
    · rfl
    · rfl
    · have hnumber : ∀ v w, Json.Renames v w → (v.asNumber? : Option α) = w.asNumber? :=
        fun _ _ h => h.asNumber?_eq
      have hstatusWord : ∀ v w, Json.Renames v w →
          v.asWord? RunStatus.words = w.asWord? RunStatus.words := fun _ _ h =>
        h.asWord?_eq (by decide)
      have hgoalWord : ∀ v w, Json.Renames v w →
          v.asWord? Goal.shortNames = w.asWord? Goal.shortNames := fun _ _ h =>
        h.asWord?_eq (by decide)
      simp only [Option.bind_eq_bind, Option.bind_some]
      rw [Json.optionalField?_eq hstatusWord hstatus, Json.optionalField?_eq hgoalWord hgoal,
        Json.optionalField?_eq hnumber hscore, Json.optionalField?_eq hnumber harea,
        Json.optionalField?_eq hnumber hvalue]
      cases htime with
      | none => rfl
      | some htime => simp only [Option.bind_some, hnumber _ _ htime]
    · rfl

end SolverPortfolio
