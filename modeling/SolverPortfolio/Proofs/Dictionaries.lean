import Mathlib.Data.List.Forall2
import Mathlib.Data.List.Induction
import SolverPortfolio.Json.Decode

/-
# Dictionaries

A dictionary is made of names and values one after another: a name that is new goes to the end, and
one that is there gets the later value. So a dictionary has the names of the list it is made of, and
a list of different names is its own dictionary. The members of an object are read as a dictionary
if every one of them is read.

Main definitions: `Json.dictionary`, `Json.ReadsMembers`.
Main statements: `Json.mem_dictionary_iff`, `Json.dictionary_eq_self`,
`Json.nodup_of_length_dictionary`, `Json.asDictionary?_object_iff`.
-/

namespace SolverPortfolio.Json

/-- The dictionary of a list of names and values: of two values of one name the later is kept. -/
def dictionary {β : Type} (pairs : List (String × β)) : List (String × β) :=
  pairs.foldl (fun dict (name, v) => put name v dict) []

section

variable {β : Type}

/-- One value more is put into a dictionary. -/
theorem dictionary_concat (pairs : List (String × β)) (p : String × β) :
    dictionary (pairs ++ [p]) = put p.1 p.2 (dictionary pairs) := by
  rw [dictionary, List.foldl_concat, dictionary]

/-- A name that is new is put behind all others. -/
theorem put_of_not_mem {name : String} {dict : List (String × β)} (h : name ∉ dict.map (·.1))
    (v : β) : put name v dict = dict ++ [(name, v)] := by
  induction dict with
  | nil => rfl
  | cons p dict ih =>
    rw [List.map_cons, List.mem_cons, not_or] at h
    rw [put, if_neg (Ne.symm h.1), ih h.2, List.cons_append]

/-- A name that is there keeps its place. -/
theorem map_put_of_mem {name : String} {dict : List (String × β)} (h : name ∈ dict.map (·.1))
    (v : β) : (put name v dict).map (·.1) = dict.map (·.1) := by
  induction dict with
  | nil => cases h
  | cons p dict ih =>
    rw [put]
    split
    · next heq => rw [List.map_cons, List.map_cons, heq]
    · next hne =>
      have hrest := (List.mem_cons.mp h).resolve_left fun heq => hne heq.symm
      rw [List.map_cons, List.map_cons, ih hrest]

/-- A dictionary has the names of the list it is made of. -/
theorem mem_dictionary_iff (pairs : List (String × β)) (name : String) :
    name ∈ (dictionary pairs).map (·.1) ↔ name ∈ pairs.map (·.1) := by
  induction pairs using List.reverseRecOn with
  | nil => rfl
  | append_singleton pairs p ih =>
    rw [dictionary_concat, List.map_append, List.mem_append, ← ih]
    by_cases hp : p.1 ∈ (dictionary pairs).map (·.1)
    · rw [map_put_of_mem hp]
      refine ⟨.inl, fun h => h.elim id fun hname => ?_⟩
      rwa [List.mem_singleton.mp hname]
    · rw [put_of_not_mem hp, List.map_append, List.mem_append]

/-- A list of different names is its dictionary. -/
theorem dictionary_eq_self {pairs : List (String × β)} (h : (pairs.map (·.1)).Nodup) :
    dictionary pairs = pairs := by
  induction pairs using List.reverseRecOn with
  | nil => rfl
  | append_singleton pairs p ih =>
    rw [List.map_append, List.nodup_append] at h
    have hp : p.1 ∉ (dictionary pairs).map (·.1) := fun hmem =>
      h.2.2 _ ((mem_dictionary_iff pairs p.1).mp hmem) _ (List.mem_singleton_self _) rfl
    rw [dictionary_concat, put_of_not_mem hp, ih h.1]

/-- A dictionary is at most as long as the list it is made of. -/
theorem length_dictionary_le (pairs : List (String × β)) :
    (dictionary pairs).length ≤ pairs.length := by
  induction pairs using List.reverseRecOn with
  | nil => exact Nat.le_refl _
  | append_singleton pairs p ih =>
    rw [dictionary_concat, List.length_append, List.length_singleton]
    by_cases hp : p.1 ∈ (dictionary pairs).map (·.1)
    · have hlength := congrArg List.length (map_put_of_mem hp p.2)
      rw [List.length_map, List.length_map] at hlength
      omega
    · rw [put_of_not_mem hp, List.length_append, List.length_singleton]
      omega

/-- The names are different in a list that is as long as its dictionary. -/
theorem nodup_of_length_dictionary {pairs : List (String × β)}
    (h : pairs.length ≤ (dictionary pairs).length) : (pairs.map (·.1)).Nodup := by
  induction pairs using List.reverseRecOn with
  | nil => exact List.nodup_nil
  | append_singleton pairs p ih =>
    have hle := length_dictionary_le pairs
    rw [dictionary_concat, List.length_append, List.length_singleton] at h
    by_cases hp : p.1 ∈ (dictionary pairs).map (·.1)
    · have hlength := congrArg List.length (map_put_of_mem hp p.2)
      rw [List.length_map, List.length_map] at hlength
      omega
    · rw [put_of_not_mem hp, List.length_append, List.length_singleton] at h
      rw [mem_dictionary_iff] at hp
      rw [List.map_append, List.nodup_append]
      refine ⟨ih (by omega), by simp, ?_⟩
      rintro name hname other hother rfl
      have heq : name = p.1 := List.mem_singleton.mp hother
      exact hp (heq ▸ hname)

end

/-! ## Objects -/

/-- A list is read item by item. -/
theorem mapM_eq_some_iff {β γ : Type} {f : β → Option γ} {xs : List β} {ys : List γ} :
    xs.mapM f = some ys ↔ List.Forall₂ (fun x y => f x = some y) xs ys := by
  induction xs generalizing ys with
  | nil => simp [eq_comm]
  | cons x xs ih =>
    rw [List.mapM_cons]
    constructor
    · intro h
      obtain ⟨y, hy, hrest⟩ := Option.bind_eq_some_iff.mp h
      obtain ⟨zs, hzs, hpure⟩ := Option.bind_eq_some_iff.mp hrest
      cases hpure
      exact .cons hy (ih.mp hzs)
    · intro h
      cases h with
      | cons hy hrest => rw [hy, ih.mpr hrest]; rfl

/-- What a member of an object says: a name and a value, if the name is a text and the value is
read. -/
def pairOf? {β : Type} (value : Json → Option β) (m : Option String × Json) :
    Option (String × β) :=
  m.1.bind fun name => (value m.2).bind fun v => some (name, v)

/-- All members of an object say something. -/
def ReadsMembers {β : Type} (value : Json → Option β) (members : List (Option String × Json))
    (pairs : List (String × β)) : Prop :=
  List.Forall₂ (fun m p => m.1 = some p.1 ∧ value m.2 = some p.2) members pairs

/-- The names that are said are those of the members. -/
theorem ReadsMembers.mem_names_iff {β : Type} {value : Json → Option β}
    {members : List (Option String × Json)} {pairs : List (String × β)}
    (h : ReadsMembers value members pairs) {name : String} :
    name ∈ pairs.map (·.1) ↔ ∃ v, (some name, v) ∈ members := by
  induction h with
  | nil => simp
  | @cons m p ms ps hm hrest ih =>
    obtain ⟨key, v⟩ := m
    obtain ⟨rfl, -⟩ : key = some p.1 ∧ value v = some p.2 := hm
    simp only [List.map_cons, List.mem_cons, ih, Prod.mk.injEq, Option.some.injEq, exists_or,
      exists_and_left, exists_eq, and_true]

/-- An object is read as the dictionary of what its members say. -/
theorem asDictionary?_object_iff {β : Type} {value : Json → Option β}
    {members : List (Option String × Json)} {dict : List (String × β)} :
    (Json.object members).asDictionary? value = some dict ↔
      ∃ pairs, ReadsMembers value members pairs ∧ dict = dictionary pairs := by
  have hpair (m : Option String × Json) (p : String × β) :
      pairOf? value m = some p ↔ m.1 = some p.1 ∧ value m.2 = some p.2 := by
    obtain ⟨name, v⟩ := p
    simp [pairOf?, Option.bind_eq_some_iff]
  show (members.mapM (pairOf? value)).bind (fun pairs => some (dictionary pairs)) = some dict ↔ _
  simp only [Option.bind_eq_some_iff, mapM_eq_some_iff, hpair, ReadsMembers, Option.some.injEq,
    @eq_comm _ dict]

end SolverPortfolio.Json
