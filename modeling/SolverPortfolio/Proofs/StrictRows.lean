import SolverPortfolio.Proofs.Apostrophes
import SolverPortfolio.Proofs.Dictionaries
import SolverPortfolio.Proofs.Renaming

/-
# Rows written in JSON

A row may have its columns in JSON as it stands. The features are then read as they are written. The
outcomes are read as they are written, too, but not always under the names of their solvers: the
rewriting of single quotes and of the word `nan`, which is meant for rows that are no JSON, does not
leave out string literals. Where no apostrophes stand in the column, the solvers are those that the
literals denote when the word in them is replaced; where their number is odd, the row is refused.

Main definitions: `Records`, `recorded`, `rowText`.
Main statements: `Json.Source.exists_records`, `readFeatures?_text`, `readRow_json`.
-/

namespace SolverPortfolio

/-! ## Names -/

/-- The names of the members of an object. -/
def Json.Members.names : Json.Members → List Json.StringText
  | .last _ name _ _ _ _ => [name]
  | .more _ name _ _ _ _ rest => name :: rest.names

/-- The names in a text: those of its members if it is an object. -/
def Json.Source.names : Json.Source → List Json.StringText
  | .object members => members.names
  | _ => []

/-- The name that a literal denotes; the empty one if it denotes none. -/
def Json.StringText.name (s : Json.StringText) : String := s.value?.getD ""

/-- Names and outcomes as they are written: literals that denote names, and outcomes. -/
structure Records {α : Type} (names : List Json.StringText)
    (records : List (Json.StringText × Outcome α)) : Prop where
  names_eq : records.map (·.1) = names
  denotes : ∀ r ∈ records, r.1.value? = some r.1.name

/-- The dictionary of names and outcomes. -/
def recorded {α : Type} (name : Json.StringText → String)
    (records : List (Json.StringText × Outcome α)) : List (String × Outcome α) :=
  Json.dictionary (records.map fun r => (name r.1, r.2))

/-- A name in which words are replaced stays if it denotes the same. -/
theorem Json.StringText.replaced_eq {s : Json.StringText} (hs : s.value? = some s.name)
    (h : s.replaced.name = s.name) : s.replaced = s := by
  obtain ⟨k, hrel, hsame⟩ := s.rel_value?
  rw [Json.StringText.name] at h
  rw [hs] at hrel
  generalize s.replaced.value? = o at hrel h
  cases hrel with
  | some hreworded =>
    refine hsame ?_
    have hlength := hreworded.length_eq
    have heq : _ = s.name := h
    rw [Option.getD_some] at heq
    rw [heq] at hlength
    omega

section

variable {α : Type} {names : List Json.StringText} {records : List (Json.StringText × Outcome α)}

/-- The dictionary is the same when words are replaced if no name has one. -/
theorem Records.recorded_eq (h : Records names records)
    (hall : ∀ name ∈ names, name.replaced = name) :
    recorded (·.replaced.name) records = recorded (·.name) records := by
  refine congrArg Json.dictionary (List.map_congr_left fun r hr => ?_)
  have hsame := hall r.1 (h.names_eq ▸ List.mem_map_of_mem hr)
  exact congrArg (fun name => (name.name, r.2)) hsame

/-- If the dictionary of different names is the same when words are replaced, no name has one. -/
theorem Records.replaced_eq (h : Records names records) (hnames : (names.map (·.name)).Nodup)
    (heq : recorded (·.replaced.name) records = recorded (·.name) records) :
    ∀ name ∈ names, name.replaced = name := by
  intro name hname
  have hwritten : recorded (·.name) records = records.map fun r => (r.1.name, r.2) := by
    refine Json.dictionary_eq_self ?_
    rw [← h.names_eq, List.map_map] at hnames
    rw [List.map_map]
    exact hnames
  have hlength : (recorded (·.replaced.name) records).length =
      (records.map fun r => (r.1.replaced.name, r.2)).length := by
    rw [heq, hwritten, List.length_map, List.length_map]
  have hreplaced : recorded (·.replaced.name) records =
      records.map fun r => (r.1.replaced.name, r.2) :=
    Json.dictionary_eq_self (Json.nodup_of_length_dictionary (Nat.le_of_eq hlength.symm))
  rw [← h.names_eq] at hname
  obtain ⟨r, hr, rfl⟩ := List.mem_map.mp hname
  have hpairs := List.map_inj_left.mp (hreplaced.symm.trans (heq.trans hwritten)) r hr
  exact Json.StringText.replaced_eq (h.denotes r hr) (congrArg Prod.fst hpairs)

end

/-! ## Outcomes -/

section

variable {α : Type} [Quantity α]

/-- Reads one member of an object of outcomes. -/
def readMember? (p : Option String × Json) : Option (String × Outcome α) := do
  return (← p.1, ← Outcome.ofJson? p.2)

/-- A dictionary of outcomes is read from the members of an object. -/
theorem asDictionary?_object (members : List (Option String × Json)) :
    (Json.object members).asDictionary? (Outcome.ofJson? (α := α)) =
      (members.mapM readMember?).map Json.dictionary := by
  change (members.mapM (readMember? (α := α))).bind (fun pairs => some (Json.dictionary pairs)) = _
  cases members.mapM (readMember? (α := α)) <;> rfl

/-- A member is read with its outcome before and after words in string literals are replaced. -/
theorem readMember?_replaced {name : Json.StringText} {item : Json.Source} {p : String × Outcome α}
    (h : readMember? (name.value?, item.value) = some p) :
    name.value? = some name.name ∧ p = (name.name, p.2) ∧
      readMember? (name.replaced.value?, item.replaced.value) =
        some (name.replaced.name, p.2) := by
  have halike := name.rel_alike
  have houtcome := Outcome.ofJson?_eq (α := α) ⟨item, rfl, rfl⟩
  rw [Json.StringText.name, Json.StringText.name]
  rw [readMember?] at h ⊢
  generalize name.value? = o at halike h ⊢
  generalize name.replaced.value? = o' at halike ⊢
  rw [← houtcome]
  cases halike with
  | none => cases h
  | some _ =>
    obtain ⟨_, hname, hrest⟩ := Option.bind_eq_some_iff.mp h
    obtain ⟨outcome, hread, hp⟩ := Option.bind_eq_some_iff.mp hrest
    cases hname
    cases hp
    rw [hread]
    exact ⟨rfl, rfl, rfl⟩

/-- The members of an object of outcomes are read with their outcomes before and after words in
string literals are replaced. -/
theorem Json.Members.exists_records (members : Json.Members) {pairs : List (String × Outcome α)}
    (h : members.values.mapM readMember? = some pairs) :
    ∃ records, Records members.names records ∧ pairs = records.map (fun r => (r.1.name, r.2)) ∧
      members.replaced.values.mapM readMember? =
        some (records.map fun r => (r.1.replaced.name, r.2)) := by
  match members with
  | .last outer name inner before item after =>
    rw [Members.values, List.mapM_cons, List.mapM_nil] at h
    obtain ⟨p, hp, hpairs⟩ := Option.bind_eq_some_iff.mp h
    cases hpairs
    obtain ⟨hname, hpname, hreplaced⟩ := readMember?_replaced hp
    refine ⟨[(name, p.2)], ⟨rfl, by simpa using hname⟩, congrArg ([·]) hpname, ?_⟩
    rw [Members.replaced, Members.values, List.mapM_cons, hreplaced]
    rfl
  | .more outer name inner before item after rest =>
    rw [Members.values, List.mapM_cons] at h
    obtain ⟨p, hp, hrest⟩ := Option.bind_eq_some_iff.mp h
    obtain ⟨others, hothers, hpairs⟩ := Option.bind_eq_some_iff.mp hrest
    cases hpairs
    obtain ⟨hname, hpname, hreplaced⟩ := readMember?_replaced hp
    obtain ⟨records, hrecords, rfl, hrest'⟩ := rest.exists_records hothers
    refine ⟨(name, p.2) :: records, ⟨congrArg (name :: ·) hrecords.names_eq, ?_⟩, ?_, ?_⟩
    · exact List.forall_mem_cons.mpr ⟨hname, hrecords.denotes⟩
    · rw [List.map_cons, ← hpname]
    · rw [Members.replaced, Members.values, List.mapM_cons, hreplaced, hrest']
      rfl

/-- The outcomes in a text are read with the names that their literals denote, also when words in
them are replaced. -/
theorem Json.Source.exists_records {source : Json.Source} {outcomes : List (String × Outcome α)}
    (h : source.value.asDictionary? Outcome.ofJson? = some outcomes) :
    ∃ records, Records source.names records ∧ outcomes = recorded (·.name) records ∧
      source.replaced.value.asDictionary? Outcome.ofJson? =
        some (recorded (·.replaced.name) records) := by
  cases source with
  | object members =>
    rw [Source.value, asDictionary?_object] at h
    obtain ⟨pairs, hpairs, rfl⟩ := Option.map_eq_some_iff.mp h
    obtain ⟨records, hrecords, rfl, hreplaced⟩ := members.exists_records hpairs
    refine ⟨records, hrecords, rfl, ?_⟩
    rw [Source.replaced, Source.value, asDictionary?_object, hreplaced]
    rfl
  | emptyObject gap =>
    cases h
    exact ⟨[], ⟨rfl, fun r hr => absurd hr List.not_mem_nil⟩, rfl, rfl⟩
  | null | bool _ | number _ | string _ | emptyArray _ | array _ => cases h

/-! ## Rows -/

/-- A text that is a number or `null` is inert. -/
theorem Json.Source.isInert {source : Json.Source} {feature : Option α}
    (h : source.value.asOption? Json.asNumber? = some feature) : ∀ c ∈ source.text, IsInert c := by
  cases source with
  | null => exact isInert_of_all (by decide)
  | number n => exact n.isInert
  | bool _ | string _ | emptyArray _ | array _ | emptyObject _ | object _ => cases h

/-- A list of numbers is inert. -/
theorem Json.Items.isInert (items : Json.Items) {features : List (Option α)}
    (h : items.values.mapM (Json.asOption? Json.asNumber?) = some features) :
    ∀ c ∈ items.text, IsInert c := by
  match items with
  | .last before item after =>
    rw [Items.values, List.mapM_cons] at h
    obtain ⟨feature, hfeature, -⟩ := Option.bind_eq_some_iff.mp h
    intro c hc
    rw [Items.text, List.mem_append, List.mem_append] at hc
    rcases hc with hc | hc | hc
    · exact before.isInert c hc
    · exact item.isInert hfeature c hc
    · exact after.isInert c hc
  | .more before item after rest =>
    rw [Items.values, List.mapM_cons] at h
    obtain ⟨feature, hfeature, hrest⟩ := Option.bind_eq_some_iff.mp h
    obtain ⟨others, hothers, -⟩ := Option.bind_eq_some_iff.mp hrest
    intro c hc
    rw [Items.text, List.mem_append, List.mem_append, List.mem_append, List.mem_cons] at hc
    rcases hc with hc | hc | hc | rfl | hc
    · exact before.isInert c hc
    · exact item.isInert hfeature c hc
    · exact after.isInert c hc
    · decide
    · exact rest.isInert hothers c hc

/-- A column of numbers is inert. -/
theorem Json.Column.isInert (column : Json.Column) {features : List (Option α)}
    (h : column.source.value.asList? (Json.asOption? Json.asNumber?) = some features) :
    ∀ c ∈ column.text, IsInert c := by
  have hwrapped : ∀ {s : List Char}, (∀ c ∈ s, IsInert c) →
      ∀ c ∈ '[' :: (s ++ [']']), IsInert c := by
    intro s hs c hc
    rw [List.mem_cons, List.mem_append, List.mem_singleton] at hc
    rcases hc with rfl | hc | rfl
    · decide
    · exact hs c hc
    · decide
  intro c hc
  rw [Column.text, List.mem_append, List.mem_append] at hc
  rcases hc with hc | hc | hc
  · exact column.before.isInert c hc
  · cases hsource : column.source with
    | array items =>
      rw [hsource] at h hc
      exact hwrapped (items.isInert h) c hc
    | emptyArray gap =>
      rw [hsource] at hc
      exact hwrapped gap.isInert c hc
    | null | bool _ | number _ | string _ | emptyObject _ | object _ =>
      rw [hsource] at h
      cases h
  · exact column.after.isInert c hc

/-- A column of numbers is read as it is written. -/
theorem readFeatures?_text (column : Json.Column) {features : List (Option α)}
    (h : column.source.value.asList? (Json.asOption? Json.asNumber?) = some features) :
    readFeatures? column.text = some features := by
  have hquotes : '\'' ∉ column.text := fun hmem => (column.isInert h _ hmem).2.1 rfl
  have hitem : ∀ v w, Json.Renames v w →
      (v.asOption? Json.asNumber? : Option (Option α)) = w.asOption? Json.asNumber? :=
    fun v w hvw => hvw.asOption?_eq hvw.asNumber?_eq
  have hsame := Json.Renames.asList?_eq hitem ⟨column.source, rfl, rfl⟩
  rw [readFeatures?, column.read?_columnJson hquotes]
  exact hsame.symm.trans h

/-- A text is cut at its first bar. -/
theorem cutAt_append {sep : Char} {s : List Char} (h : sep ∉ s) (t : List Char) :
    Text.cutAt sep (s ++ sep :: t) = some (s, t) := by
  induction s with
  | nil => exact if_pos rfl
  | cons c s ih =>
    rw [List.mem_cons, not_or] at h
    rw [List.cons_append, Text.cutAt, if_neg (Ne.symm h.1), ih h.2]
    rfl

/-- The columns of a row. -/
theorem splitColumns?_append {id features : List Char} (hid : '|' ∉ id) (hfeatures : '|' ∉ features)
    (outcomes : List Char) :
    splitColumns? (id ++ '|' :: (features ++ '|' :: outcomes)) = some (id, features, outcomes) := by
  rw [splitColumns?, cutAt_append hid]
  simp only [Option.bind_eq_bind, Option.bind_some, cutAt_append hfeatures]
  rfl

/-- The text of a row in JSON. -/
def rowText (id : List Char) (features outcomes : Json.Column) : List Char :=
  id ++ '|' :: (features.text ++ '|' :: outcomes.text)

section

variable {id : List Char} (hid : '|' ∉ id) {features outcomes : Json.Column} {fs : List (Option α)}
  (hfeatures : features.source.value.asList? (Json.asOption? Json.asNumber?) = some fs)

include hid hfeatures

/-- The columns of a row in JSON. -/
theorem splitColumns?_rowText :
    splitColumns? (rowText id features outcomes) = some (id, features.text, outcomes.text) :=
  splitColumns?_append hid (fun h => (features.isInert hfeatures _ h).2.2.2 rfl) outcomes.text

/-- A row is read with its outcomes. -/
theorem readRow_of_outcomes {os : List (String × Outcome α)}
    (h : readOutcomes? outcomes.text = some os) :
    readRow (rowText id features outcomes) = .ok ⟨String.ofList (Text.trim id), fs, os⟩ := by
  have hcolumns : splitColumns? (rowText id features outcomes) = _ :=
    splitColumns?_rowText hid hfeatures
  simp only [readRow, hcolumns, readFeatures?_text features hfeatures, h]

/-- A row is refused without outcomes. -/
theorem readRow_of_no_outcomes
    (h : (readOutcomes? outcomes.text : Option (List (String × Outcome α))) = none) :
    readRow (rowText id features outcomes) = (.error .outcomes : Except RowError (Entry α)) := by
  have hcolumns : splitColumns? (rowText id features outcomes) = _ :=
    splitColumns?_rowText hid hfeatures
  simp only [readRow, hcolumns, readFeatures?_text features hfeatures, h]

/-- Rows in JSON. The features of a row, which are numbers or `null`, are read as they are written.
If there are no apostrophes in the other column, its outcomes are read as well, under the names that
their literals denote when the word `nan` in them is replaced. So the row is read as it is written
if no name has that word in its literal, and only then if the names are different. If the number of
apostrophes is odd, the row is refused. -/
theorem readRow_json {os : List (String × Outcome α)}
    (houtcomes : outcomes.source.value.asDictionary? Outcome.ofJson? = some os) :
    readFeatures? features.text = some fs ∧
    ('\'' ∉ outcomes.text →
      (∃ records, Records outcomes.source.names records ∧ os = recorded (·.name) records ∧
        readRow (rowText id features outcomes) =
          .ok ⟨String.ofList (Text.trim id), fs, recorded (·.replaced.name) records⟩) ∧
      ((∀ name ∈ outcomes.source.names, name.replaced = name) →
        readRow (rowText id features outcomes) = .ok ⟨String.ofList (Text.trim id), fs, os⟩) ∧
      ((outcomes.source.names.map (·.name)).Nodup →
        readRow (rowText id features outcomes) = .ok ⟨String.ofList (Text.trim id), fs, os⟩ →
        ∀ name ∈ outcomes.source.names, name.replaced = name)) ∧
    (outcomes.text.count '\'' % 2 = 1 →
      readRow (rowText id features outcomes) =
        (.error .outcomes : Except RowError (Entry α))) := by
  refine ⟨readFeatures?_text features hfeatures, fun hquotes => ?_, fun hodd => ?_⟩
  · obtain ⟨records, hrecords, rfl, hreplaced⟩ := Json.Source.exists_records houtcomes
    have hread : readOutcomes? outcomes.text = some (recorded (·.replaced.name) records) := by
      rw [readOutcomes?, outcomes.read?_columnJson hquotes]
      exact hreplaced
    have hrow := readRow_of_outcomes hid hfeatures hread
    refine ⟨⟨records, hrecords, rfl, hrow⟩, fun hall => ?_, fun hnames hsame => ?_⟩
    · rw [hrow, hrecords.recorded_eq hall]
    · rw [hrow] at hsame
      exact hrecords.replaced_eq hnames (congrArg Entry.outcomes (Except.ok.inj hsame))
  · apply readRow_of_no_outcomes hid hfeatures
    rw [readOutcomes?, outcomes.read?_columnJson_of_odd hodd]
    rfl

end

end

/-- A blank. -/
def blankGap : Json.Gap := ⟨[' '], List.all_eq_true.mp rfl⟩

/-- A digit on its own. -/
def oneDigit (c : Char) (h : [c].all Text.isDigit = true) : Json.Digits :=
  ⟨[c], List.all_eq_true.mp h, List.cons_ne_nil c []⟩

/-- A column with the feature 0.5. -/
def halfColumn : Json.Column :=
  ⟨.none, .array (.last .none (.number ⟨false, oneDigit '0' rfl, .inl rfl,
    some (oneDigit '5' rfl), none⟩) .none), .none⟩

/-- A string literal without escapes. -/
def plainLiteral (s : List Char) (h : s.all Json.isPlain = true) : Json.StringText where
  content := s
  isContent := by
    induction s with
    | nil => exact .nil
    | cons c s ih =>
      rw [List.all_cons, Bool.and_eq_true] at h
      exact .plain h.1 (ih h.2)

/-- A column with a solver that took one second. -/
def secondColumn (solver : Json.StringText) : Json.Column :=
  ⟨.none, .object (.last .none solver .none blankGap (.object (.last .none
    (plainLiteral "time".toList (by decide)) .none blankGap
    (.number ⟨false, oneDigit '1' rfl, .inr (by decide), none, none⟩) .none)) .none), .none⟩

/-- Without the word in the name of its solver a row is read as it is written. -/
theorem plain_row_read : ∃ (fs : List (Option Float)) (os : List (String × Outcome Float)),
    halfColumn.source.value.asList? (Json.asOption? Json.asNumber?) = some fs ∧
    (secondColumn (plainLiteral "solver".toList (by decide))).source.value.asDictionary?
      Outcome.ofJson? = some os ∧
    readRow "i1|[0.5]|\x7b\"solver\": \x7b\"time\": 1\x7d\x7d".toList = .ok ⟨"i1", fs, os⟩ := by
  have hfeatures : (halfColumn.source.value.asList?
      (Json.asOption? (Json.asNumber? (α := Float)))).isSome = true := by decide +kernel
  have houtcomes : ((secondColumn
      (plainLiteral "solver".toList (by decide))).source.value.asDictionary?
        (Outcome.ofJson? (α := Float))).isSome = true := by decide +kernel
  obtain ⟨fs, hfs⟩ := Option.isSome_iff_exists.mp hfeatures
  obtain ⟨os, hos⟩ := Option.isSome_iff_exists.mp houtcomes
  have hid : '|' ∉ "i1".toList := by decide
  have hread := (readRow_json hid hfs hos).2.1 (by decide)
  refine ⟨fs, os, hfs, hos, hread.2.1 ?_⟩
  exact List.forall_mem_singleton.mpr (Json.StringText.ext (by decide))

/-- With it another solver is read, and with an apostrophe no outcomes are. -/
theorem nan_row_renamed :
    rowText "i1".toList halfColumn (secondColumn (plainLiteral "x-nan".toList (by decide))) =
      "i1|[0.5]|\x7b\"x-nan\": \x7b\"time\": 1\x7d\x7d".toList ∧
    ((secondColumn (plainLiteral "x-nan".toList (by decide))).source.value.asDictionary?
      (Outcome.ofJson? (α := Float))).map (·.map (·.1)) = some ["x-nan"] ∧
    (readRow (α := Float) "i1|[0.5]|\x7b\"x-nan\": \x7b\"time\": 1\x7d\x7d".toList).toOption.map
      (·.outcomes.map (·.1)) = some ["x-null"] ∧
    (readRow (α := Float) "i1|[0.5]|\x7b\"o'b\": \x7b\"time\": 1\x7d\x7d".toList).map
      (fun _ => ()) = .error .outcomes := by
  refine ⟨by decide, ?_, ?_, ?_⟩ <;> decide +kernel

end SolverPortfolio
