import Mathlib.Data.List.Forall2
import Mathlib.Data.List.Nodup
import Mathlib.Data.List.Perm.Basic
import Mathlib.Order.Bounds.Basic
import SolverPortfolio.Limits

/-
# Limits as tables

The bounds of features stand in a table whose indexes increase, however the limits come about. So a
table is determined by its entries alone, and the order in which a dictionary names them does not
matter. The size of the limits is one more than the last index, and thus the least number above all
indexes, as long as this number fits into a word; a vector is refused if it is shorter.

Main definitions: `Limits.Increasing`, `Limits.indexes`, `Limits.Lists`.
Main statements: `Limits.ofDictionary_eq`, `Limits.mem_indexes_ofDictionary`,
`Limits.isLeast_size_iff`, `Limits.exists_normalize_error_iff`.
-/

namespace SolverPortfolio.Limits

variable {α : Type}

/-! ## Increasing tables -/

section

variable {i j : ℕ} {b : Option (Bounds α)} {l l' : List (ℕ × Option (Bounds α))}

/-- The indexes of a table increase. -/
def Increasing (l : List (ℕ × Option (Bounds α))) : Prop := l.Pairwise fun e f => e.1 < f.1

/-- Two tables of the same entries are one. -/
theorem Increasing.eq_of_perm (h : Increasing l) (h' : Increasing l') (hperm : l.Perm l') :
    l = l' :=
  hperm.eq_of_pairwise (fun _ _ _ _ hlt hgt => absurd hlt hgt.asymm) h h'

/-- The last index is the largest. -/
theorem Increasing.le_of_getLast? (h : Increasing l) {e f : ℕ × Option (Bounds α)}
    (hlast : l.getLast? = some e) (hf : f ∈ l) : f.1 ≤ e.1 := by
  obtain ⟨front, rfl⟩ := List.getLast?_eq_some_iff.mp hlast
  rcases List.mem_append.mp hf with hfront | hsingle
  · exact (List.pairwise_append.mp h).2.2 f hfront e (List.mem_singleton_self e) |>.le
  · exact (List.mem_singleton.mp hsingle ▸ le_rfl)

/-- A table covers one index more after an entry is set. -/
theorem mem_map_insert : j ∈ (insert i b l).map (·.1) ↔ j = i ∨ j ∈ l.map (·.1) := by
  induction l with
  | nil => simp [insert]
  | cons e rest ih =>
    unfold insert
    split
    · simp
    · split
      · next heq => simp [heq]
      · rw [List.map_cons, List.mem_cons, ih, List.map_cons, List.mem_cons, or_left_comm]

/-- A table stays in order when an entry is set. -/
theorem Increasing.insert (h : Increasing l) : Increasing (insert i b l) := by
  induction l with
  | nil => exact List.pairwise_singleton _ _
  | cons e rest ih =>
    obtain ⟨hfirst, hrest⟩ := List.pairwise_cons.mp h
    unfold Limits.insert
    split
    · next hlt =>
      refine List.pairwise_cons.mpr ⟨fun f hf => ?_, h⟩
      rcases List.mem_cons.mp hf with rfl | hf
      · exact hlt
      · exact hlt.trans (hfirst f hf)
    · next hge =>
      split
      · next heq => exact List.pairwise_cons.mpr ⟨fun f hf => heq ▸ hfirst f hf, hrest⟩
      · next hne =>
        refine List.pairwise_cons.mpr ⟨fun f hf => ?_, ih hrest⟩
        rcases mem_map_insert.mp (List.mem_map_of_mem hf) with heq | hmem
        · show e.1 < f.1
          omega
        · obtain ⟨g, hg, heq⟩ := List.mem_map.mp hmem
          exact heq ▸ hfirst g hg

/-- Setting an entry at a new index adds the entry and nothing else. -/
theorem insert_perm (h : i ∉ l.map (·.1)) : (insert i b l).Perm ((i, b) :: l) := by
  induction l with
  | nil => exact List.Perm.refl _
  | cons e rest ih =>
    rw [List.map_cons, List.mem_cons, not_or] at h
    unfold insert
    rw [if_neg h.1]
    split
    · exact List.Perm.refl _
    · exact ((ih h.2).cons e).trans (List.Perm.swap (i, b) e rest)

end

/-! ## Tables of dictionaries -/

section

variable {pairs : List (String × Option (Bounds α))}
  {entries acc l : List (ℕ × Option (Bounds α))} {limits : Limits α}

/-- The keys of a dictionary name the indexes of the entries, and the values are theirs. -/
def Lists (pairs : List (String × Option (Bounds α))) (entries : List (ℕ × Option (Bounds α))) :
    Prop :=
  List.Forall₂ (fun p e => readIndex? p.1 = some e.1 ∧ p.2 = e.2) pairs entries

/-- Keys of different indexes are different. -/
theorem Lists.nodup (h : Lists pairs entries) (hdistinct : (entries.map (·.1)).Nodup) :
    (pairs.map (·.1)).Nodup := by
  have hindexes : (pairs.map (·.1)).map readIndex? = (entries.map (·.1)).map some := by
    induction h with
    | nil => rfl
    | cons hp hrest ih =>
      simp only [List.map_cons] at hdistinct ⊢
      rw [hp.1, ih (List.nodup_cons.mp hdistinct).2]
  refine List.Nodup.of_map readIndex? ?_
  rw [hindexes]
  exact hdistinct.map (Option.some_injective ℕ)

/-- Setting the entries of a dictionary covers the indexes that its keys name, and no others. -/
theorem mem_map_insertAll {j : ℕ} (h : insertAll acc pairs = .ok l) :
    j ∈ l.map (·.1) ↔ (∃ p ∈ pairs, readIndex? p.1 = some j) ∨ j ∈ acc.map (·.1) := by
  induction pairs generalizing acc with
  | nil =>
    cases h
    simp
  | cons p rest ih =>
    rw [insertAll.eq_def] at h
    split at h
    · next hnil => cases hnil
    · next key b _ heq =>
      cases heq
      split at h
      · next i hi =>
        rw [ih h, mem_map_insert]
        simp only [List.mem_cons, exists_eq_or_imp, hi, Option.some.injEq, @eq_comm ℕ i j]
        rw [or_assoc, or_left_comm]
      · cases h

/-- Entries are set only if every key of the dictionary names an index. -/
theorem exists_index_of_insertAll (h : insertAll acc pairs = .ok l) :
    ∀ p ∈ pairs, ∃ i, readIndex? p.1 = some i := by
  induction pairs generalizing acc with
  | nil => exact List.forall_mem_nil _
  | cons p rest ih =>
    rw [insertAll.eq_def] at h
    split at h
    · next hnil => cases hnil
    · next heq =>
      cases heq
      split at h
      · next i hi => exact List.forall_mem_cons.mpr ⟨⟨i, hi⟩, ih h⟩
      · cases h

/-- A table stays in order when the entries of a dictionary are set. -/
theorem Increasing.insertAll (hacc : Increasing acc) (h : insertAll acc pairs = .ok l) :
    Increasing l := by
  induction pairs generalizing acc with
  | nil =>
    cases h
    exact hacc
  | cons p rest ih =>
    rw [Limits.insertAll.eq_def] at h
    split at h
    · next hnil => cases hnil
    · next heq =>
      cases heq
      split at h
      · exact ih hacc.insert h
      · cases h

/-- The entries of a dictionary with different indexes are added, in whatever order. -/
theorem exists_insertAll_perm (acc : List (ℕ × Option (Bounds α))) (h : Lists pairs entries)
    (hdistinct : ((entries ++ acc).map (·.1)).Nodup) :
    ∃ l, insertAll acc pairs = .ok l ∧ l.Perm (entries ++ acc) := by
  induction h generalizing acc with
  | nil => exact ⟨acc, rfl, List.Perm.refl _⟩
  | @cons p e ps es hp hrest ih =>
    obtain ⟨key, b⟩ := p
    obtain ⟨i, c⟩ := e
    obtain ⟨hindex, rfl⟩ : readIndex? key = some i ∧ b = c := hp
    rw [List.cons_append, List.map_cons, List.nodup_cons, List.map_append, List.mem_append,
      not_or] at hdistinct
    have hperm : (insert i b acc).Perm ((i, b) :: acc) := insert_perm hdistinct.1.2
    have hmiddle : (es ++ insert i b acc).Perm ((i, b) :: es ++ acc) :=
      (hperm.append_left es).trans List.perm_middle
    have hdistinct' : ((es ++ insert i b acc).map (·.1)).Nodup := by
      rw [(hmiddle.map (·.1)).nodup_iff]
      exact List.nodup_cons.mpr ⟨by simpa using hdistinct.1, by simpa using hdistinct.2⟩
    obtain ⟨l, hl, hlperm⟩ := ih _ hdistinct'
    refine ⟨l, ?_, hlperm.trans hmiddle⟩
    rw [insertAll, hindex]
    exact hl

/-- The indexes that the limits cover. -/
def indexes (limits : Limits α) : List ℕ := limits.bounds.map (·.1)

/-- The entries of a dictionary are set one after another in the order of keys. -/
theorem insertAll_of_ofDictionary (h : ofDictionary pairs = .ok limits) :
    insertAll [] (pairs.mergeSort fun p q => byteOrder p.1 q.1) = .ok limits.bounds := by
  rw [ofDictionary] at h
  cases hl : insertAll [] (pairs.mergeSort fun p q => byteOrder p.1 q.1) with
  | error e =>
    rw [hl] at h
    cases h
  | ok l =>
    rw [hl] at h
    cases h
    rfl

/-- The limits of a dictionary cover the indexes that its keys name. -/
theorem mem_indexes_ofDictionary {j : ℕ} (h : ofDictionary pairs = .ok limits) :
    j ∈ limits.indexes ↔ ∃ p ∈ pairs, readIndex? p.1 = some j := by
  rw [indexes, mem_map_insertAll (insertAll_of_ofDictionary h)]
  simp only [List.mem_mergeSort, List.map_nil, List.not_mem_nil, or_false]

/-- Every key of a dictionary of limits names an index. -/
theorem exists_index_of_ofDictionary (h : ofDictionary pairs = .ok limits) :
    ∀ p ∈ pairs, ∃ i, readIndex? p.1 = some i := fun p hp =>
  exists_index_of_insertAll (insertAll_of_ofDictionary h) p (List.mem_mergeSort.mpr hp)

/-- The limits of a dictionary are in order. -/
theorem increasing_ofDictionary (h : ofDictionary pairs = .ok limits) :
    Increasing limits.bounds :=
  Increasing.insertAll List.Pairwise.nil (insertAll_of_ofDictionary h)

/-- A dictionary of one key gives limits with its index. -/
theorem ofDictionary_singleton {key : String} {i : ℕ} (h : readIndex? key = some i)
    (b : Option (Bounds α)) : ofDictionary [(key, b)] = .ok ⟨[(i, b)]⟩ := by
  rw [ofDictionary, List.mergeSort_singleton, insertAll, h]
  rfl

/-- The indexes of a list are its positions. -/
theorem indexes_ofList (bounds : List (Option (Bounds α))) :
    (ofList bounds).indexes = List.range bounds.length := by
  rw [indexes, ofList, List.map_fst_zip (Nat.le_of_eq List.length_range)]

/-- The limits of a list are in order. -/
theorem increasing_ofList (bounds : List (Option (Bounds α))) :
    Increasing (ofList bounds).bounds := by
  have hrange := List.pairwise_lt_range (n := bounds.length)
  rwa [← indexes_ofList, indexes, List.pairwise_map] at hrange

/-- A dictionary from the positions in a list, in any order, gives the limits of the list. -/
theorem ofDictionary_eq {bounds : List (Option (Bounds α))} (h : Lists pairs entries)
    (hperm : entries.Perm ((List.range bounds.length).zip bounds)) :
    ofDictionary pairs = .ok (ofList bounds) := by
  obtain ⟨sorted, hsorted, hsortedPerm⟩ :=
    List.perm_comp_forall₂ (List.mergeSort_perm pairs fun p q => byteOrder p.1 q.1) h
  have hall : sorted.Perm (ofList bounds).bounds := hsortedPerm.trans hperm
  have hpositions : (sorted.map (·.1)).Perm (ofList bounds).indexes := hall.map _
  have hdistinct : (sorted.map (·.1)).Nodup := by
    rw [hpositions.nodup_iff, indexes_ofList]
    exact List.nodup_range
  obtain ⟨l, hl, hlperm⟩ := exists_insertAll_perm [] hsorted (by rwa [List.append_nil])
  rw [List.append_nil] at hlperm
  have heq : l = (ofList bounds).bounds :=
    (Increasing.insertAll List.Pairwise.nil hl).eq_of_perm (increasing_ofList bounds)
      (hlperm.trans hall)
  rw [ofDictionary, hl, heq]
  rfl

end

/-! ## The size of limits -/

section

variable {limits : Limits α} {n : ℕ}

/-- The size is a number of a word. -/
theorem size_lt (limits : Limits α) : limits.size < wordCount := by
  rw [size]
  split
  · decide
  · exact Nat.mod_lt _ (by decide)

/-- The size is the least number above all indexes if no index is the last number of a word. -/
theorem isLeast_size (h : Increasing limits.bounds)
    (hbelow : ∀ i ∈ limits.indexes, i + 1 < wordCount) :
    IsLeast {n | ∀ i ∈ limits.indexes, i < n} limits.size := by
  rw [size]
  cases hlast : limits.bounds.getLast? with
  | none =>
    have hnil : limits.bounds = [] := List.getLast?_eq_none_iff.mp hlast
    refine ⟨fun i hi => ?_, fun n _ => n.zero_le⟩
    rw [indexes, hnil] at hi
    cases hi
  | some e =>
    have hmem : e.1 ∈ limits.indexes := List.mem_map_of_mem (List.mem_of_getLast? hlast)
    show IsLeast _ ((e.1 + 1) % wordCount)
    rw [Nat.mod_eq_of_lt (hbelow e.1 hmem)]
    refine ⟨fun i hi => ?_, fun n hn => hn e.1 hmem⟩
    obtain ⟨f, hf, rfl⟩ := List.mem_map.mp hi
    exact Nat.lt_succ_of_le (h.le_of_getLast? hlast hf)

/-- It is that number just then. -/
theorem isLeast_size_iff (h : Increasing limits.bounds) :
    IsLeast {n | ∀ i ∈ limits.indexes, i < n} limits.size ↔
      ∀ i ∈ limits.indexes, i + 1 < wordCount := by
  refine ⟨fun hleast i hi => ?_, isLeast_size h⟩
  have hi' : i < limits.size := hleast.1 i hi
  have hsize := limits.size_lt
  omega

/-- The size is zero if the last number of a word is an index. -/
theorem size_eq_zero (h : Increasing limits.bounds) (hfits : ∀ i ∈ limits.indexes, i < wordCount)
    (hlast : wordCount - 1 ∈ limits.indexes) : limits.size = 0 := by
  have hpos : 0 < wordCount := by decide
  rw [size]
  cases hend : limits.bounds.getLast? with
  | none => rfl
  | some e =>
    obtain ⟨f, hf, hfirst⟩ := List.mem_map.mp hlast
    have hle : f.1 ≤ e.1 := h.le_of_getLast? hend hf
    have hlt : e.1 < wordCount := hfits e.1 (List.mem_map_of_mem (List.mem_of_getLast? hend))
    have heq : e.1 + 1 = wordCount := by omega
    show (e.1 + 1) % wordCount = 0
    rw [heq, Nat.mod_self]

/-- A number is below the size if some index is not below the number. -/
theorem lt_size_iff (hleast : IsLeast {n | ∀ i ∈ limits.indexes, i < n} limits.size) :
    n < limits.size ↔ ∃ i ∈ limits.indexes, n ≤ i := by
  constructor
  · intro hlt
    by_contra hnone
    push Not at hnone
    exact absurd (hleast.2 hnone) (not_le.mpr hlt)
  · rintro ⟨i, hi, hle⟩
    exact hle.trans_lt (hleast.1 i hi)

/-- A vector is refused if it is shorter than the size, and for no other reason. -/
theorem normalize_eq_error_iff [Quantity α] {s : Scaling α} {raw : List (Option α)}
    {e : TooFewFeatures} : limits.normalize s raw = .error e ↔
      raw.length < limits.size ∧ e = ⟨limits.size, raw.length⟩ := by
  rw [normalize]
  split
  · next hlt => simp [hlt, eq_comm]
  · next hge => simp [hge]

/-- Just the vectors are refused that have no component for some index. -/
theorem exists_normalize_error_iff [Quantity α] {s : Scaling α} {raw : List (Option α)}
    (hleast : IsLeast {n | ∀ i ∈ limits.indexes, i < n} limits.size) :
    (∃ e, limits.normalize s raw = .error e) ↔ ∃ i ∈ limits.indexes, raw.length ≤ i := by
  simp only [normalize_eq_error_iff, exists_and_left, exists_eq, and_true]
  exact lt_size_iff hleast

end

end SolverPortfolio.Limits
