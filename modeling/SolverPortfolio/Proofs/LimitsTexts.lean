import SolverPortfolio.Proofs.Dictionaries
import SolverPortfolio.Proofs.IndexKeys
import SolverPortfolio.Proofs.IndexTable
import SolverPortfolio.Proofs.JsonGrammar

/-
# Texts of limits

Limits are written as an array, in which every bound stands at its own position, or as an object,
whose keys name the positions. Both say the same: an object that names every position once is read
as the limits of the array, whatever the order of its members and the form of its keys.

A text covers the indexes that its keys name, or the positions of its items. The check of the
dimension compares a vector with the largest of them and one more, counted in a word. So the check
is right for a text unless a key names the last number of a word: then the sum is zero, and no
vector is refused.

Main definitions: `Json.Denotes`, `Limits.IsPositional`, `Limits.IsIndexed`, `Limits.NamesIndex`,
`Limits.Guards`.
Main statements: `Limits.formats_agree`, `Limits.mem_indexes_iff`, `Limits.guards_iff`.
-/

namespace SolverPortfolio

namespace Json

/-- A text of the grammar, with white space around it, that denotes a value. -/
def Denotes (text : List Char) (v : Json) : Prop :=
  ∃ (before : Gap) (source : Source) (after : Gap),
    text = before.text ++ (source.text ++ after.text) ∧ source.value = v

/-- A text that denotes a value is read as the value. -/
theorem Denotes.read? {text : List Char} {v : Json} (h : Denotes text v) :
    Json.read? text = some v := read?_eq_some_iff.mpr h

/-- A text denotes one value only. -/
theorem Denotes.unique {text : List Char} {v w : Json} (hv : Denotes text v)
    (hw : Denotes text w) : v = w := Option.some.inj (hv.read?.symm.trans hw.read?)

/-- The items of an array take more characters than there are items. -/
theorem Items.length_values_le (items : Items) : items.values.length ≤ items.text.length := by
  match items with
  | .last before item after =>
    obtain ⟨c, s, hs, -⟩ := item.exists_cons
    simp only [Items.values, Items.text, hs, List.length_append, List.length_cons, List.length_nil]
    omega
  | .more before item after rest =>
    have hrest := rest.length_values_le
    simp only [Items.values, Items.text, List.length_append, List.length_cons]
    omega

/-- An array has fewer items than characters. -/
theorem Denotes.length_lt {text : List Char} {items : List Json} (h : Denotes text (.array items)) :
    items.length < text.length := by
  obtain ⟨before, source, after, rfl, hvalue⟩ := h
  cases source with
  | array parts =>
    cases hvalue
    have hparts := parts.length_values_le
    simp only [Source.text, List.length_append, List.length_cons]
    omega
  | emptyArray gap =>
    cases hvalue
    simp only [Source.text, List.length_append, List.length_cons, List.length_nil]
    omega
  | null | bool _ | number _ | string _ | emptyObject _ | object _ => cases hvalue

end Json

namespace Limits

variable {α : Type} [Quantity α] {text : List Char} {bounds : List (Option (Bounds α))}
  {limits : Limits α} {i : ℕ}

/-! ## Reading bounds -/

/-- A value that denotes bounds: an array of two numbers, or `null` for no bounds. -/
inductive DenotesBounds : Json → Option (Bounds α) → Prop where
  | unknown : DenotesBounds .null none
  | known {l h : Number.Literal} {low high : α} (hlow : Quantity.ofLiteral? l = some low)
      (hhigh : Quantity.ofLiteral? h = some high) :
      DenotesBounds (.array [.number l, .number h]) (some (low, high))

/-- Bounds are read as they are denoted. -/
theorem DenotesBounds.asOption? {v : Json} {b : Option (Bounds α)} (h : DenotesBounds v b) :
    v.asOption? boundsOfJson? = some b := by
  cases h with
  | unknown => rfl
  | known hlow hhigh => simp [Json.asOption?, boundsOfJson?, Json.asNumber?, hlow, hhigh]

/-- An array of limits is read position by position. -/
theorem parse_array {items : List Json} (htext : Json.Denotes text (.array items))
    (h : items.mapM (Json.asOption? boundsOfJson?) = some bounds) :
    parse text = .ok (ofList bounds) := by
  have hlist : (Json.array items).asList? (Json.asOption? boundsOfJson?) = some bounds := h
  have hdict : (Json.array items).asDictionary? (Json.asOption? (boundsOfJson? (α := α))) = none :=
    rfl
  rw [parse, htext.read?]
  simp only [hdict, hlist]

/-- An object of limits is read as the dictionary of its members. -/
theorem parse_object {members : List (Option String × Json)}
    {pairs : List (String × Option (Bounds α))} (htext : Json.Denotes text (.object members))
    (h : Json.ReadsMembers (Json.asOption? boundsOfJson?) members pairs) :
    parse text = ofDictionary (Json.dictionary pairs) := by
  have hdict := Json.asDictionary?_object_iff.mpr ⟨pairs, h, rfl⟩
  rw [parse, htext.read?]
  simp only [hdict]

/-- Limits are read from an array or from an object, and from nothing else. -/
theorem exists_of_parse (h : parse text = .ok limits) :
    (∃ items bounds, Json.Denotes text (.array items) ∧
      items.mapM (Json.asOption? boundsOfJson?) = some bounds ∧ limits = ofList bounds) ∨
    ∃ members pairs, Json.Denotes text (.object members) ∧
      Json.ReadsMembers (Json.asOption? boundsOfJson?) members pairs ∧
      ofDictionary (Json.dictionary pairs) = .ok limits := by
  rw [parse] at h
  split at h
  · cases h
  · next v hv =>
    have htext : Json.Denotes text v := Json.read?_eq_some_iff.mp hv
    split at h
    · next dict hdict =>
      cases v with
      | object members =>
        obtain ⟨pairs, hpairs, rfl⟩ := Json.asDictionary?_object_iff.mp hdict
        exact .inr ⟨members, pairs, htext, hpairs, h⟩
      | null | bool _ | number _ | string _ | array _ => cases hdict
    · split at h
      · next bounds hbounds =>
        cases h
        cases v with
        | array items => exact .inl ⟨items, bounds, htext, hbounds, rfl⟩
        | null | bool _ | number _ | string _ | object _ => cases hbounds
      · cases h

/-! ## The two formats -/

/-- An array that lists the bounds by position. -/
def IsPositional (text : List Char) (bounds : List (Option (Bounds α))) : Prop :=
  ∃ items, Json.Denotes text (.array items) ∧ List.Forall₂ DenotesBounds items bounds

/-- A member of an object that gives the bounds of a position, under a key of the position. -/
def IsMember (m : Option String × Json) (e : ℕ × Option (Bounds α)) : Prop :=
  (∃ key, m.1 = some key ∧ IsKey e.1 key) ∧ DenotesBounds m.2 e.2

/-- An object that gives the bounds of every position once, in any order. -/
def IsIndexed (text : List Char) (bounds : List (Option (Bounds α))) : Prop :=
  ∃ members entries, Json.Denotes text (.object members) ∧
    entries.Perm ((List.range bounds.length).zip bounds) ∧
    List.Forall₂ IsMember members entries

/-- The members of an object say keys of the positions and their bounds. -/
theorem exists_readsMembers {members : List (Option String × Json)}
    {entries : List (ℕ × Option (Bounds α))} (h : List.Forall₂ IsMember members entries)
    (hfits : ∀ e ∈ entries, e.1 < wordCount) :
    ∃ pairs, Json.ReadsMembers (Json.asOption? boundsOfJson?) members pairs ∧
      Lists pairs entries := by
  induction h with
  | nil => exact ⟨[], .nil, .nil⟩
  | @cons m e ms es hm hrest ih =>
    obtain ⟨⟨key, hname, hkey⟩, hbounds⟩ := hm
    obtain ⟨he, hes⟩ := List.forall_mem_cons.mp hfits
    obtain ⟨pairs, hpairs, hlists⟩ := ih hes
    have hindex : readIndex? key = some e.1 := readIndex?_eq_some_iff.mpr ⟨hkey, he⟩
    exact ⟨(key, e.2) :: pairs, .cons ⟨hname, hbounds.asOption?⟩ hpairs,
      .cons ⟨hindex, rfl⟩ hlists⟩

/-- The two formats of limits agree. An array that lists bounds by position and an object that gives
the bounds of every position once are read as the same limits, those of the list of bounds; so they
scale every vector alike. -/
theorem formats_agree (hfits : bounds.length ≤ wordCount) {array object : List Char}
    (harray : IsPositional array bounds) (hobject : IsIndexed object bounds) :
    parse array = .ok (ofList bounds) ∧ parse object = .ok (ofList bounds) ∧
    ∀ (s : Scaling α) (raw : List (Option α)),
      (parse array).map (fun limits => limits.normalize s raw) =
        (parse object).map fun limits => limits.normalize s raw := by
  have hpositional : parse array = .ok (ofList bounds) := by
    obtain ⟨items, htext, hitems⟩ := harray
    exact parse_array htext (Json.mapM_eq_some_iff.mpr (hitems.imp fun _ _ h => h.asOption?))
  have hindexed : parse object = .ok (ofList bounds) := by
    obtain ⟨members, entries, htext, hperm, hmembers⟩ := hobject
    -- The members name each position once, so no key replaces another and all of them fit.
    have hindexes : (entries.map (·.1)).Perm (List.range bounds.length) :=
      indexes_ofList bounds ▸ hperm.map (·.1)
    have hfits' (e : ℕ × Option (Bounds α)) (he : e ∈ entries) : e.1 < wordCount :=
      (List.mem_range.mp (hindexes.subset (List.mem_map_of_mem he))).trans_le hfits
    obtain ⟨pairs, hpairs, hlists⟩ := exists_readsMembers hmembers hfits'
    have hkeys : (pairs.map (·.1)).Nodup :=
      hlists.nodup (hindexes.nodup_iff.mpr List.nodup_range)
    rw [parse_object htext hpairs, Json.dictionary_eq_self hkeys]
    exact ofDictionary_eq hlists hperm
  exact ⟨hpositional, hindexed, fun s raw => by rw [hpositional, hindexed]⟩

/-- The array of zero and one. -/
def unitBounds : Json := .array [.number ⟨false, ['0'], [], 0⟩, .number ⟨false, ['1'], [], 0⟩]

/-- It denotes these bounds. -/
theorem denotesBounds_unit : DenotesBounds unitBounds (some ((0 : Rat), 1)) :=
  .known (by decide +kernel) (by decide +kernel)

/-- The bounds of three features, of which the second is unknown. -/
def threeBounds : List (Option (Bounds Rat)) := [some (0, 1), none, some (2, 4)]

/-- Three bounds in order, and backwards under keys in different forms. -/
theorem three_formats_agree :
    threeBounds.length ≤ wordCount ∧ IsPositional "[[0, 1], null, [2, 4]]".toList threeBounds ∧
    IsIndexed "\x7b\" 2\": [2, 4], \"+1\": null, \"00\": [0, 1]\x7d".toList threeBounds ∧
    parse "[[0, 1], null, [2, 4]]".toList = .ok (ofList threeBounds) ∧
    parse "\x7b\" 2\": [2, 4], \"+1\": null, \"00\": [0, 1]\x7d".toList =
      .ok (ofList threeBounds) := by
  have hfits : threeBounds.length ≤ wordCount := by decide
  have hlast : DenotesBounds
      (.array [.number ⟨false, ['2'], [], 0⟩, .number ⟨false, ['4'], [], 0⟩])
      (some ((2 : Rat), (4 : Rat))) := .known (by decide +kernel) (by decide +kernel)
  have harray : IsPositional "[[0, 1], null, [2, 4]]".toList threeBounds :=
    ⟨_, Json.read?_eq_some_iff.mp (by cbv),
      .cons denotesBounds_unit (.cons .unknown (.cons hlast .nil))⟩
  have hobject : IsIndexed "\x7b\" 2\": [2, 4], \"+1\": null, \"00\": [0, 1]\x7d".toList
      threeBounds := by
    refine ⟨_, [(2, some (2, 4)), (1, none), (0, some (0, 1))],
      Json.read?_eq_some_iff.mp (by cbv), List.reverse_perm [_, _, _], ?_⟩
    have htwo : IsKey 2 " 2" :=
      ⟨⟨[' '], [], List.forall_mem_singleton.mpr rfl, false, 0⟩, by decide +kernel⟩
    have hone : IsKey 1 "+1" := ⟨⟨[], [], List.forall_mem_nil _, true, 0⟩, by decide +kernel⟩
    have hzero : IsKey 0 "00" := ⟨⟨[], [], List.forall_mem_nil _, false, 1⟩, by decide +kernel⟩
    exact .cons ⟨⟨_, rfl, htwo⟩, hlast⟩ (.cons ⟨⟨_, rfl, hone⟩, .unknown⟩
      (.cons ⟨⟨_, rfl, hzero⟩, denotesBounds_unit⟩ .nil))
  obtain ⟨hpositional, hindexed, -⟩ := formats_agree hfits harray hobject
  exact ⟨hfits, harray, hobject, hpositional, hindexed⟩

/-! ## The check of the dimension -/

/-- The indexes that a text names: those of its keys if it is an object, and the positions of its
items if it is an array. -/
inductive NamesIndex (text : List Char) : ℕ → Prop where
  | key {members : List (Option String × Json)} {key : String} {v : Json} {i : ℕ}
      (htext : Json.Denotes text (.object members)) (hmember : (some key, v) ∈ members)
      (hkey : IsKey i key) : NamesIndex text i
  | position {items : List Json} {i : ℕ} (htext : Json.Denotes text (.array items))
      (hi : i < items.length) : NamesIndex text i

/-- Limits cover the indexes that their text names. -/
theorem mem_indexes_iff (h : parse text = .ok limits) : i ∈ limits.indexes ↔ NamesIndex text i := by
  obtain ⟨items, bounds, htext, hitems, rfl⟩ | ⟨members, pairs, htext, hpairs, hdict⟩ :=
    exists_of_parse h
  · have hlength : items.length = bounds.length := (Json.mapM_eq_some_iff.mp hitems).length_eq
    rw [indexes_ofList, List.mem_range, ← hlength]
    constructor
    · exact .position htext
    · rintro (⟨hother, -, -⟩ | ⟨hother, hi⟩)
      · cases hother.unique htext
      · cases hother.unique htext
        exact hi
  · rw [mem_indexes_ofDictionary hdict]
    constructor
    · rintro ⟨p, hp, hindex⟩
      obtain ⟨v, hmember⟩ := hpairs.mem_names_iff.mp
        ((Json.mem_dictionary_iff pairs p.1).mp (List.mem_map_of_mem hp))
      exact .key htext hmember (readIndex?_eq_some_iff.mp hindex).1
    · rintro (⟨hother, hmember, hkey⟩ | ⟨hother, -⟩)
      · cases hother.unique htext
        obtain ⟨p, hp, rfl⟩ := List.mem_map.mp
          ((Json.mem_dictionary_iff pairs _).mpr (hpairs.mem_names_iff.mpr ⟨_, hmember⟩))
        -- The text is accepted, so the key is read as some index, which is the one it names.
        obtain ⟨j, hj⟩ := exists_index_of_ofDictionary hdict p hp
        obtain rfl := hkey.unique (readIndex?_eq_some_iff.mp hj).1
        exact ⟨p, hp, hj⟩
      · cases hother.unique htext

/-- The indexes of a text that fits into memory are numbers of a word. -/
theorem lt_of_mem_indexes (hfits : text.length < wordCount) (h : parse text = .ok limits)
    (hi : i ∈ limits.indexes) : i < wordCount := by
  obtain ⟨items, bounds, htext, hitems, rfl⟩ | ⟨members, pairs, htext, hpairs, hdict⟩ :=
    exists_of_parse h
  · have hlength : items.length = bounds.length := (Json.mapM_eq_some_iff.mp hitems).length_eq
    have hitemsFit := htext.length_lt
    rw [indexes_ofList, List.mem_range] at hi
    omega
  · obtain ⟨p, -, hindex⟩ := (mem_indexes_ofDictionary hdict).mp hi
    exact (readIndex?_eq_some_iff.mp hindex).2

/-- The limits of a text are in order. -/
theorem increasing_of_parse (h : parse text = .ok limits) : Increasing limits.bounds := by
  obtain ⟨items, bounds, -, -, rfl⟩ | ⟨members, pairs, -, -, hdict⟩ := exists_of_parse h
  · exact increasing_ofList bounds
  · exact increasing_ofDictionary hdict

/-- The check of the dimension is right for a text: the size is the least number above all indexes
that the text names, and just the vectors are refused that have no component for one of them. -/
structure Guards (limits : Limits α) (text : List Char) : Prop where
  size_isLeast : IsLeast {n | ∀ i, NamesIndex text i → i < n} limits.size
  refused_iff : ∀ (s : Scaling α) (raw : List (Option α)),
    (∃ e, limits.normalize s raw = .error e) ↔ ∃ i, NamesIndex text i ∧ raw.length ≤ i

/-- Of the texts that fit into memory and are read, the check of the dimension is right for just
those that do not name the last number of a word. If a text names it, the size is zero and no vector
is refused. -/
theorem guards_iff (hfits : text.length < wordCount) (h : parse text = .ok limits) :
    (limits.Guards text ↔ ¬ NamesIndex text (wordCount - 1)) ∧
    (NamesIndex text (wordCount - 1) → limits.size = 0 ∧
      ∀ (s : Scaling α) (raw : List (Option α)), ∃ scaled, limits.normalize s raw = .ok scaled) := by
  have hincreasing := increasing_of_parse h
  have hmem (i : ℕ) : i ∈ limits.indexes ↔ NamesIndex text i := mem_indexes_iff h
  have hindexes (i : ℕ) (hi : i ∈ limits.indexes) : i < wordCount := lt_of_mem_indexes hfits h hi
  have hleast := isLeast_size_iff hincreasing
  simp only [hmem] at hleast hindexes
  refine ⟨⟨fun hguards hlast => ?_, fun hlast => ?_⟩, fun hlast => ?_⟩
  · have hbelow := hleast.mp hguards.size_isLeast _ hlast
    omega
  · have hbelow : ∀ i, NamesIndex text i → i + 1 < wordCount := by
      intro i hi
      have hne : i ≠ wordCount - 1 := fun heq => hlast (heq ▸ hi)
      have hlt := hindexes i hi
      omega
    refine ⟨hleast.mpr hbelow, fun s raw => ?_⟩
    simpa only [hmem] using exists_normalize_error_iff 
      (isLeast_size hincreasing fun i hi => hbelow i ((hmem i).mp hi))
  · have hzero : limits.size = 0 := size_eq_zero hincreasing
      (fun i hi => hindexes i ((hmem i).mp hi)) ((hmem _).mpr hlast)
    refine ⟨hzero, fun s raw => ⟨limits.scaleFrom s 0 raw, ?_⟩⟩
    rw [normalize, hzero, if_neg (Nat.not_lt_zero _)]

/-- Two bounds by position: no vector of fewer than two components is scaled. -/
theorem two_positions_guard :
    "[[0, 1], null]".toList.length < wordCount ∧
    parse "[[0, 1], null]".toList = .ok (ofList [some ((0 : Rat), (1 : Rat)), none]) ∧
    (ofList [some ((0 : Rat), (1 : Rat)), none]).Guards "[[0, 1], null]".toList := by
  have hfits : "[[0, 1], null]".toList.length < wordCount := by decide
  have hparse : parse "[[0, 1], null]".toList =
      .ok (ofList [some ((0 : Rat), (1 : Rat)), none]) :=
    parse_array (Json.read?_eq_some_iff.mp (by cbv)) (by decide +kernel)
  refine ⟨hfits, hparse, (guards_iff hfits hparse).1.mpr fun hlast => ?_⟩
  rw [← mem_indexes_iff hparse, indexes_ofList, List.mem_range] at hlast
  exact absurd hlast (by decide)

/-- The last number of a word as a key defeats the check: the size is zero, and a vector of one
component is scaled to the empty one. -/
theorem last_index_unguarded :
    ∃ limits : Limits Rat,
      parse "\x7b\"18446744073709551615\": [0, 1]\x7d".toList = .ok limits ∧
      NamesIndex "\x7b\"18446744073709551615\": [0, 1]\x7d".toList (wordCount - 1) ∧
      limits.size = 0 ∧ limits.normalize Scaling.standard [some (1 / 2)] = .ok [] ∧
      ¬ limits.Guards "\x7b\"18446744073709551615\": [0, 1]\x7d".toList := by
  have hread : Json.Denotes "\x7b\"18446744073709551615\": [0, 1]\x7d".toList
      (.object [(some "18446744073709551615", unitBounds)]) :=
    Json.read?_eq_some_iff.mp (by cbv)
  have hmember : Json.ReadsMembers (Json.asOption? boundsOfJson?)
      [(some "18446744073709551615", unitBounds)] [("18446744073709551615", some ((0 : Rat), 1))] :=
    .cons ⟨rfl, denotesBounds_unit.asOption?⟩ .nil
  have hindex : readIndex? "18446744073709551615" = some (wordCount - 1) := by decide +kernel
  have hparse : parse "\x7b\"18446744073709551615\": [0, 1]\x7d".toList =
      .ok ⟨[(wordCount - 1, some ((0 : Rat), (1 : Rat)))]⟩ := by
    rw [parse_object hread hmember]
    exact ofDictionary_singleton hindex _
  have hnames := NamesIndex.key hread (List.mem_singleton_self _)
    (readIndex?_eq_some_iff.mp hindex).1
  refine ⟨_, hparse, hnames, by decide, by decide +kernel, fun hguards => ?_⟩
  have hbelow := hguards.size_isLeast.1 _ hnames
  exact absurd hbelow (by decide)

end Limits

end SolverPortfolio
