import Mathlib.Data.List.Forall2
import Mathlib.Data.List.OfFn
import SolverPortfolio.Neighborhood

/-
# Loading a knowledge base

A knowledge base is loaded line by line, and loading is a filter: the entries are the lines
that are not blank, each read as a row, and the checks decide only whether there is a
knowledge base, never what is in it. All entries have as many features as the first one, so
that a query of that length meets every component of every entry. Where loading fails, the
error is that of the first line at fault; of one line, first the syntax of the row counts,
then the rules for recorded runs, then the number of features.

Main definitions: `Entry.Passes`, `KnowledgeBase.rows`, `KnowledgeBase.Tabulates`,
`KnowledgeBase.Faulty`.
Main statements: `KnowledgeBase.readEntries_eq_ok_iff`,
`KnowledgeBase.exists_faulty_of_readEntries`, `KnowledgeBase.nearest_eq_ok_iff`,
`KnowledgeBase.distance_of_nearest`, `KnowledgeBase.parse_filters`.
-/

namespace SolverPortfolio

section

variable {α : Type} [Quantity α] {options : LoadOptions α}

/-- The rules are not checked, or no outcome violates one. -/
def Entry.Passes (options : LoadOptions α) (entry : Entry α) : Prop :=
  options.checked = true → ∀ p ∈ entry.outcomes, p.2.violated? options.timeout = none

/-- An entry without violations violates no rule with any outcome. -/
theorem Entry.violation?_eq_none_iff {entry : Entry α} {timeout : Option α} :
    entry.violation? timeout = none ↔ ∀ p ∈ entry.outcomes, p.2.violated? timeout = none := by
  simp only [violation?, List.findSome?_eq_none_iff, Option.map_eq_none_iff]

/-- The violation found is one of an outcome of the entry. -/
theorem Entry.exists_of_violation? {entry : Entry α} {timeout : Option α} {v : Violation}
    (h : entry.violation? timeout = some v) :
    ∃ solver outcome invariant, (solver, outcome) ∈ entry.outcomes ∧
      outcome.violated? timeout = some invariant ∧ v = ⟨invariant, solver, entry.id⟩ := by
  obtain ⟨⟨solver, outcome⟩, hmem, hv⟩ := List.exists_of_findSome?_eq_some h
  obtain ⟨invariant, hinvariant, rfl⟩ := Option.map_eq_some_iff.mp hv
  exact ⟨solver, outcome, invariant, hmem, hinvariant, rfl⟩

namespace KnowledgeBase

/-! ## Rows and entries -/

/-- The lines that are not blank, with their numbers; the first line has the number `first`. -/
def numbered (first : Nat) (lines : List (List Char)) : List (List Char × Nat) :=
  (lines.zipIdx first).filter fun row => !Text.allBlank row.1

/-- The lines of a text that are not blank, with their numbers in the text. -/
def rows (text : List Char) : List (List Char × Nat) := numbered 1 (Text.lines text)

/-- The entries are the rows, read one by one, pass the checks, and all have the same number of
features. -/
structure Tabulates (options : LoadOptions α) (rows : List (List Char × Nat))
    (entries : List (Entry α)) : Prop where
  read : List.Forall₂ (fun row entry => readRow row.1 = .ok entry) rows entries
  passes : ∀ entry ∈ entries, entry.Passes options
  shape : ∀ entry ∈ entries, ∀ other ∈ entries, entry.features.length = other.features.length

/-- The number of features that the first of the entries settles. -/
def settled (entries : List (Entry α)) : Option Nat := entries.head?.map (·.features.length)

/-- What is wrong with a row, if the rows before it have settled that there are `expected` features:
it cannot be read; or it violates a rule that is checked; or it is in order but has another number
of features. -/
inductive Faulty (options : LoadOptions α) (expected : Option Nat) (row : List Char × Nat) :
    KnowledgeBaseError → Prop where
  | syntactic {cause : RowError} (h : readRow (α := α) row.1 = .error cause) :
      Faulty options expected row (.row row.2 cause)
  | violating {entry : Entry α} {solver : String} {outcome : Outcome α} {invariant : Invariant}
      (hread : readRow row.1 = .ok entry) (hchecked : options.checked = true)
      (hmem : (solver, outcome) ∈ entry.outcomes)
      (hviolated : outcome.violated? options.timeout = some invariant) :
      Faulty options expected row (.violation ⟨invariant, solver, entry.id⟩)
  | misshapen {entry : Entry α} {n : Nat} (hread : readRow row.1 = .ok entry)
      (hpasses : entry.Passes options) (hexpected : expected = some n)
      (hne : entry.features.length ≠ n) :
      Faulty options expected row (.dimension entry.id entry.features.length n)

/-- A blank line is no row. -/
theorem numbered_cons_of_blank {line : List Char} (h : Text.allBlank line = true) (first : Nat)
    (lines : List (List Char)) : numbered first (line :: lines) = numbered (first + 1) lines := by
  simp [numbered, List.zipIdx_cons, h]

/-- Any other line is a row. -/
theorem numbered_cons_of_not_blank {line : List Char} (h : ¬ Text.allBlank line = true)
    (first : Nat) (lines : List (List Char)) :
    numbered first (line :: lines) = (line, first) :: numbered (first + 1) lines := by
  simp [numbered, List.zipIdx_cons, h]

/-- No rows make no entries. -/
theorem tabulates_nil {entries : List (Entry α)} :
    Tabulates options [] entries ↔ entries = [] := by
  constructor
  · intro h
    exact List.forall₂_nil_left_iff.mp h.read
  · rintro rfl
    exact ⟨.nil, by simp, by simp⟩

/-- One more row in front makes one more entry, whose number of features all others have. -/
theorem tabulates_cons {row : List Char × Nat} {rows : List (List Char × Nat)} {entry : Entry α}
    {entries : List (Entry α)} :
    Tabulates options (row :: rows) (entry :: entries) ↔
      readRow row.1 = .ok entry ∧ entry.Passes options ∧ Tabulates options rows entries ∧
        ∀ other ∈ entries, other.features.length = entry.features.length := by
  constructor
  · rintro ⟨hread, hpasses, hshape⟩
    obtain ⟨hfirst, hrest⟩ := List.forall₂_cons.mp hread
    obtain ⟨hpass, hpasses⟩ := List.forall_mem_cons.mp hpasses
    refine ⟨hfirst, hpass, ⟨hrest, hpasses, ?_⟩, ?_⟩
    · intro e he other hother
      exact hshape e (List.mem_cons_of_mem _ he) other (List.mem_cons_of_mem _ hother)
    · intro other hother
      exact hshape other (List.mem_cons_of_mem _ hother) entry List.mem_cons_self
  · rintro ⟨hfirst, hpass, ⟨hrest, hpasses, -⟩, hlengths⟩
    refine ⟨.cons hfirst hrest, List.forall_mem_cons.mpr ⟨hpass, hpasses⟩, ?_⟩
    have hall : ∀ e ∈ entry :: entries, e.features.length = entry.features.length :=
      List.forall_mem_cons.mpr ⟨rfl, hlengths⟩
    intro e he other hother
    rw [hall e he, hall other hother]

/-! ## One line -/

/-- The check finds nothing just where an entry passes. -/
theorem checked_violation?_eq_none_iff {entry : Entry α} :
    (if options.checked then entry.violation? options.timeout else none) = none ↔
      entry.Passes options := by
  unfold Entry.Passes
  split
  · next hchecked => rw [Entry.violation?_eq_none_iff, imp_iff_right hchecked]
  · next hunchecked => exact iff_of_true rfl fun hchecked => absurd hchecked hunchecked

/-- A line that can be read, passes the checks and has the number of features expected is read as
its row. -/
theorem readEntry_eq_ok_iff {expected : Option Nat} {number : Nat} {line : List Char}
    {entry : Entry α} :
    readEntry options expected number line = .ok entry ↔
      readRow line = .ok entry ∧ entry.Passes options ∧
        ∀ n ∈ expected, entry.features.length = n := by
  constructor
  · intro h
    unfold readEntry at h
    cases hread : readRow (α := α) line with
    | error cause =>
      rw [hread] at h
      cases h
    | ok read =>
      rw [hread] at h
      dsimp only at h
      split at h
      · cases h
      · next hnone =>
        have hpasses := checked_violation?_eq_none_iff.mp hnone
        cases expected with
        | none =>
          cases h
          exact ⟨rfl, hpasses, by simp⟩
        | some n =>
          dsimp only at h
          split at h
          · next hn =>
            cases h
            exact ⟨rfl, hpasses, by simpa using hn⟩
          · cases h
  · rintro ⟨hread, hpasses, hlength⟩
    simp only [readEntry, hread, checked_violation?_eq_none_iff.mpr hpasses]
    cases expected with
    | none => rfl
    | some n => exact if_pos (hlength n rfl)

/-- Where a line is not read as an entry, something is wrong with it. -/
theorem faulty_of_readEntry {expected : Option Nat} {number : Nat} {line : List Char}
    {e : KnowledgeBaseError} (h : readEntry options expected number line = .error e) :
    Faulty options expected (line, number) e := by
  unfold readEntry at h
  cases hread : readRow (α := α) line with
  | error cause =>
    rw [hread] at h
    cases h
    exact Faulty.syntactic hread
  | ok entry =>
    rw [hread] at h
    dsimp only at h
    split at h
    · next v hv =>
      cases h
      obtain ⟨hchecked, hv⟩ : options.checked = true ∧ entry.violation? options.timeout = some v :=
        by simpa using hv
      obtain ⟨solver, outcome, invariant, hmem, hviolated, rfl⟩ := Entry.exists_of_violation? hv
      exact .violating hread hchecked hmem hviolated
    · next hnone =>
      have hpasses := checked_violation?_eq_none_iff.mp hnone
      cases expected with
      | none => cases h
      | some n =>
        dsimp only at h
        split at h
        · cases h
        · next hne =>
          cases h
          exact .misshapen hread hpasses rfl hne

/-! ## All lines -/

/-- Lines are read as entries just where these are their rows, pass the checks, and have the number
of features expected, which the first of them settles if none is expected. -/
theorem readEntries_eq_ok_iff {expected : Option Nat} {number : Nat} {lines : List (List Char)}
    {entries : List (Entry α)} :
    readEntries options expected number lines = .ok entries ↔
      Tabulates options (numbered number lines) entries ∧
        ∀ n ∈ expected, ∀ entry ∈ entries, entry.features.length = n := by
  -- The induction is on the lines; a row settles the number of features for those behind it.
  induction lines generalizing expected number entries with
  | nil =>
    have hnone :
        Except.ok [] = (Except.ok entries : Except KnowledgeBaseError _) ↔ entries = [] := by
      rw [Except.ok.injEq, eq_comm]
    rw [readEntries, hnone, numbered, List.zipIdx_nil, List.filter_nil, tabulates_nil]
    constructor
    · rintro rfl
      exact ⟨rfl, by simp⟩
    · exact And.left
  | cons line lines ih =>
    unfold readEntries
    split
    · next hblank => rw [numbered_cons_of_blank hblank, ih]
    · next hrow =>
      rw [numbered_cons_of_not_blank hrow]
      constructor
      · intro h
        split at h
        · cases h
        · next first hfirst =>
          obtain ⟨hread, hpasses, hlength⟩ := readEntry_eq_ok_iff.mp hfirst
          split at h
          · cases h
          · next others hothers =>
            cases h
            obtain ⟨htabulates, hlengths⟩ := ih.mp hothers
            have hsame := hlengths first.features.length rfl
            refine ⟨tabulates_cons.mpr ⟨hread, hpasses, htabulates, hsame⟩, fun n hn => ?_⟩
            refine List.forall_mem_cons.mpr ⟨hlength n hn, fun other hother => ?_⟩
            rw [hsame other hother, hlength n hn]
      · rintro ⟨htabulates, hlengths⟩
        cases entries with
        | nil => cases htabulates.read
        | cons first others =>
          obtain ⟨hread, hpasses, hothers, hsame⟩ := tabulates_cons.mp htabulates
          have hfirst : readEntry options expected number line = .ok first :=
            readEntry_eq_ok_iff.mpr
              ⟨hread, hpasses, fun n hn => hlengths n hn first List.mem_cons_self⟩
          have hrest := ih.mpr ⟨hothers, fun n hn other hother =>
            (Option.some.inj hn) ▸ hsame other hother⟩
          rw [hfirst]
          dsimp only
          rw [hrest]

/-- Where lines are not read, something is wrong with the first row that cannot follow the rows
before it, which are read. -/
theorem exists_faulty_of_readEntries {expected : Option Nat} {number : Nat}
    {lines : List (List Char)} {e : KnowledgeBaseError}
    (h : readEntries options expected number lines = .error e) :
    ∃ before row after entries, numbered number lines = before ++ row :: after ∧
      Tabulates options before entries ∧
      (∀ n ∈ expected, ∀ entry ∈ entries, entry.features.length = n) ∧
      Faulty options (expected.or (settled entries)) row e := by
  induction lines generalizing expected number with
  | nil => cases h
  | cons line lines ih =>
    unfold readEntries at h
    split at h
    · next hblank =>
      rw [numbered_cons_of_blank hblank]
      exact ih h
    · next hrow =>
      rw [numbered_cons_of_not_blank hrow]
      split at h
      · next hfirst =>
        cases h
        refine ⟨[], _, _, [], rfl, tabulates_nil.mpr rfl, by simp, ?_⟩
        rw [settled, List.head?_nil, Option.map_none, Option.or_none]
        exact faulty_of_readEntry hfirst
      · next first hfirst =>
        obtain ⟨hread, hpasses, hlength⟩ := readEntry_eq_ok_iff.mp hfirst
        split at h
        · next hrest =>
          cases h
          obtain ⟨before, row, after, entries, hsplit, htabulates, hlengths, hfaulty⟩ := ih hrest
          have hsame := hlengths first.features.length rfl
          refine ⟨(line, number) :: before, row, after, first :: entries, ?_,
            tabulates_cons.mpr ⟨hread, hpasses, htabulates, hsame⟩, fun n hn => ?_, ?_⟩
          · rw [hsplit, List.cons_append]
          · refine List.forall_mem_cons.mpr ⟨hlength n hn, fun other hother => ?_⟩
            rw [hsame other hother, hlength n hn]
          · have hsettled : expected.or (settled (first :: entries)) =
                some first.features.length := by
              cases expected with
              | none => rfl
              | some n => exact congrArg some (hlength n rfl).symm
            rw [hsettled]
            exact hfaulty
        · cases h

/-! ## The whole text -/

/-- A text is loaded as a knowledge base just where its rows make the entries. -/
theorem parse_eq_ok_iff {text : List Char} {kb : KnowledgeBase α} :
    parse options text = .ok kb ↔ Tabulates options (rows text) kb.entries := by
  have hentries : readEntries options none 1 (Text.lines text) = .ok kb.entries ↔
      Tabulates options (numbered 1 (Text.lines text)) kb.entries := by
    rw [readEntries_eq_ok_iff, and_iff_left (by simp)]
  rw [rows, ← hentries, parse]
  cases readEntries options none 1 (Text.lines text) with
  | error e => exact iff_of_false (by simp [Except.map]) (by simp)
  | ok entries =>
    constructor
    · intro h
      cases h
      rfl
    · intro h
      cases h
      rfl

/-- Where a text is not loaded, something is wrong with the first row that cannot follow the rows
before it. -/
theorem exists_faulty_of_parse {text : List Char} {e : KnowledgeBaseError}
    (h : parse options text = .error e) :
    ∃ before row after entries, rows text = before ++ row :: after ∧
      Tabulates options before entries ∧ Faulty options (settled entries) row e := by
  have hread : readEntries options none 1 (Text.lines text) = .error e := by
    unfold parse at h
    cases hcase : readEntries options none 1 (Text.lines text) with
    | error e' =>
      rw [hcase] at h
      cases h
      rfl
    | ok entries =>
      rw [hcase] at h
      cases h
  obtain ⟨before, row, after, entries, hsplit, htabulates, -, hfaulty⟩ :=
    exists_faulty_of_readEntries hread
  exact ⟨before, row, after, entries, hsplit, htabulates, hfaulty⟩

/-- A text that is read as something with a property is read. -/
theorem exists_of_any {text : List Char} {p : KnowledgeBase α → Bool}
    (h : (parse options text).toOption.any p = true) :
    ∃ kb, parse options text = .ok kb ∧ p kb = true := by
  cases hparse : parse options text with
  | error e =>
    rw [hparse] at h
    cases h
  | ok kb =>
    rw [hparse] at h
    exact ⟨kb, rfl, h⟩

/-- Entries of one shape have the number of features of the knowledge base. -/
theorem Tabulates.length_features {rows : List (List Char × Nat)} {kb : KnowledgeBase α}
    (h : Tabulates options rows kb.entries) :
    ∀ entry ∈ kb.entries, entry.features.length = kb.dimension := by
  intro entry hentry
  unfold dimension
  split
  · next hnil =>
    rw [hnil] at hentry
    cases hentry
  · next first others hcons =>
    exact h.shape entry hentry first (hcons ▸ List.mem_cons_self)

/-- Without checks the same rows make the same entries. -/
theorem Tabulates.unchecked {rows : List (List Char × Nat)} {entries : List (Entry α)}
    (h : Tabulates options rows entries) (timeout : Option α) :
    Tabulates ⟨timeout, false⟩ rows entries where
  read := h.read
  passes := fun _ _ hchecked => by cases hchecked
  shape := h.shape

end KnowledgeBase

end

namespace KnowledgeBase

/-! ## Queries -/

/-- Nothing is left out of two lists that are paired just where they are equally long. -/
theorem unzip_zip_eq_iff {α β : Type} (xs : List α) (ys : List β) :
    (xs.zip ys).unzip = (xs, ys) ↔ xs.length = ys.length := by
  constructor
  · intro h
    have hxs := congrArg (fun p => p.1.length) h
    have hys := congrArg (fun p => p.2.length) h
    simp only [List.unzip_fst, List.unzip_snd, List.length_map, List.length_zip] at hxs hys
    omega
  · exact List.unzip_zip

/-- If all entries have the number of features of the knowledge base, a query is answered just where
each of its components meets one of every entry, and none of an entry is left over. -/
theorem nearest_eq_ok_iff {kb : KnowledgeBase Float}
    (h : ∀ entry ∈ kb.entries, entry.features.length = kb.dimension) (query : List Float)
    (k : Nat) :
    (∃ found, kb.nearest query k = .ok found) ↔ ∀ entry ∈ kb.entries,
      (query.zip (Neighborhood.featureVector entry)).unzip =
        (query, Neighborhood.featureVector entry) := by
  have hlengths : (∀ entry ∈ kb.entries, (query.zip (Neighborhood.featureVector entry)).unzip =
      (query, Neighborhood.featureVector entry)) ↔
        ∀ entry ∈ kb.entries, query.length = kb.dimension := by
    refine forall₂_congr fun entry hentry => ?_
    rw [unzip_zip_eq_iff, Neighborhood.featureVector, List.length_map, h entry hentry]
  rw [hlengths]
  unfold nearest
  split
  · next hmismatch =>
    obtain ⟨hentries, hdimension⟩ : kb.entries ≠ [] ∧ kb.dimension ≠ query.length := by
      simpa using hmismatch
    obtain ⟨first, others, hcons⟩ := List.exists_cons_of_ne_nil hentries
    refine iff_of_false (by simp) fun hall => hdimension ?_
    exact (hall first (hcons ▸ List.mem_cons_self)).symm
  · next hmatch =>
    refine iff_of_true ⟨_, rfl⟩ fun entry hentry => ?_
    have hentries : kb.entries ≠ [] := List.ne_nil_of_mem hentry
    have hdimension : kb.dimension = query.length := by simpa [hentries] using hmatch
    exact hdimension.symm

/-- The distance of vectors with the same number of components is over all of them. -/
theorem distance_ofFn {n : ℕ} (a b : Fin n → Float) :
    Neighborhood.distance (List.ofFn a) (List.ofFn b) =
      (Quantity.sum (List.ofFn fun i => (a i - b i) * (a i - b i))).sqrt := by
  have hzip : (List.ofFn a).zipWith (fun x y => (x - y) * (x - y)) (List.ofFn b) =
      List.ofFn fun i => (a i - b i) * (a i - b i) :=
    List.ext_getElem (by simp) fun i _ _ => by simp
  rw [Neighborhood.distance, hzip]

/-- A list of a known length is the list of its components. -/
theorem exists_eq_ofFn {β : Type} {xs : List β} {n : ℕ} (h : xs.length = n) :
    ∃ a : Fin n → β, xs = List.ofFn a := by
  subst h
  exact ⟨xs.get, (List.ofFn_get xs).symm⟩

/-- If all entries have the number of features of the knowledge base, then so has a query that is
answered, and its distance to an entry is over all components of both. -/
theorem distance_of_nearest {kb : KnowledgeBase Float}
    (h : ∀ entry ∈ kb.entries, entry.features.length = kb.dimension) {query : List Float} {k : ℕ}
    {found : List (Entry Float)} (hfound : kb.nearest query k = .ok found) {entry : Entry Float}
    (hentry : entry ∈ kb.entries) :
    ∃ a b : Fin kb.dimension → Float, query = List.ofFn a ∧
      Neighborhood.featureVector entry = List.ofFn b ∧
      Neighborhood.distance query (Neighborhood.featureVector entry) =
        (Quantity.sum (List.ofFn fun i => (a i - b i) * (a i - b i))).sqrt := by
  have hfeatures : (Neighborhood.featureVector entry).length = kb.dimension := by
    rw [Neighborhood.featureVector, List.length_map, h entry hentry]
  have hquery : query.length = kb.dimension := by
    have hmeets := (nearest_eq_ok_iff h query k).mp ⟨found, hfound⟩ entry hentry
    exact ((unzip_zip_eq_iff _ _).mp hmeets).trans hfeatures
  obtain ⟨a, ha⟩ := exists_eq_ofFn hquery
  obtain ⟨b, hb⟩ := exists_eq_ofFn hfeatures
  refine ⟨a, b, ha, hb, ?_⟩
  rw [ha, hb]
  exact distance_ofFn a b

/-- Loading is a filter. A text is loaded just where its lines that are not blank can be read, pass
the checks and have one number of features, and the entries are these lines as they are read, in
their order. Without checks the same entries are loaded. They all have the number of features of the
knowledge base, so that a query is answered just where it meets every component of every entry, and
its distances are over all components. Otherwise the error is that of the first line at fault. -/
theorem parse_filters (options : LoadOptions Float) (text : List Char) :
    (∀ kb, parse options text = .ok kb ↔ Tabulates options (rows text) kb.entries) ∧
    (∀ kb, parse options text = .ok kb →
      (∀ timeout, parse ⟨timeout, false⟩ text = .ok kb) ∧
      (∀ entry ∈ kb.entries, entry.features.length = kb.dimension) ∧
      (∀ query k, (∃ found, kb.nearest query k = .ok found) ↔ ∀ entry ∈ kb.entries,
        (query.zip (Neighborhood.featureVector entry)).unzip =
          (query, Neighborhood.featureVector entry)) ∧
      ∀ query k found, kb.nearest query k = .ok found → ∀ entry ∈ kb.entries,
        ∃ a b : Fin kb.dimension → Float, query = List.ofFn a ∧
          Neighborhood.featureVector entry = List.ofFn b ∧
          Neighborhood.distance query (Neighborhood.featureVector entry) =
            (Quantity.sum (List.ofFn fun i => (a i - b i) * (a i - b i))).sqrt) ∧
    ∀ e, parse options text = .error e →
      ∃ before row after entries, rows text = before ++ row :: after ∧
        Tabulates options before entries ∧ Faulty options (settled entries) row e := by
  refine ⟨fun kb => parse_eq_ok_iff, fun kb hload => ?_, fun e => exists_faulty_of_parse⟩
  have htabulates := parse_eq_ok_iff.mp hload
  have hshape := htabulates.length_features
  refine ⟨fun timeout => ?_, hshape, nearest_eq_ok_iff hshape, fun query k found hfound => ?_⟩
  · exact parse_eq_ok_iff.mpr (htabulates.unchecked timeout)
  · exact fun entry hentry => distance_of_nearest hshape hfound hentry

/-- Two rows with a blank line between them. -/
def spacedRows : List Char :=
  ("i1|[0.5, nan]|\x7b'a': \x7b'time': 1.5, 'info': 'sat'\x7d\x7d\n \n" ++
    "i2|[1.5, 2.5]|\x7b\x7d\n").toList

/-- The same rows, and one with a single feature behind them. -/
def unevenRows : List Char := spacedRows ++ "i3|[1.5]|\x7b\x7d".toList

/-- The rules that need no timeout are checked. -/
def rulesOnly : LoadOptions Float := ⟨none, true⟩

/-- The two rows are loaded with and without checks; one more row with a single feature is the first
at fault. -/
theorem spaced_filters : ∃ kb, parse rulesOnly spacedRows = .ok kb ∧ kb.entries.length = 2 ∧
    Tabulates rulesOnly (rows spacedRows) kb.entries ∧
    parse ⟨none, false⟩ spacedRows = .ok kb ∧
    (∀ entry ∈ kb.entries, entry.features.length = kb.dimension) ∧
    ∃ before row after entries, rows unevenRows = before ++ row :: after ∧
      Tabulates rulesOnly before entries ∧
      Faulty rulesOnly (settled entries) row (.dimension "i3" 1 2) := by
  have hread : (parse rulesOnly spacedRows).toOption.any (fun kb => kb.entries.length == 2) =
      true := by
    decide +kernel
  have hfails : (parse rulesOnly unevenRows).map (fun _ => ()) = .error (.dimension "i3" 1 2) := by
    decide +kernel
  obtain ⟨kb, hload, hlength⟩ := exists_of_any hread
  have herror : parse rulesOnly unevenRows = .error (.dimension "i3" 1 2) := by
    cases hparse : parse rulesOnly unevenRows with
    | error e =>
      rw [hparse] at hfails
      exact congrArg Except.error (Except.error.inj hfails)
    | ok kb =>
      rw [hparse] at hfails
      cases hfails
  obtain ⟨htabulates, hloaded, -⟩ := parse_filters rulesOnly spacedRows
  obtain ⟨hunchecked, hshape, -⟩ := hloaded kb hload
  obtain ⟨-, -, hfaulty⟩ := parse_filters rulesOnly unevenRows
  exact ⟨kb, hload, eq_of_beq hlength, (htabulates kb).mp hload, hunchecked none, hshape,
    hfaulty _ herror⟩

end KnowledgeBase

end SolverPortfolio
