import SolverPortfolio.Neighborhood
import SolverPortfolio.Proofs.DoubleOrder

/-
# The nearest entries of a knowledge base

A query is answered by the first entries of a ranking: by distance, and by the order of the file
where distances are the same. What is first among candidates stays first when candidates are added,
unless some of these come before it. So the answer for fewer neighbours is the beginning of that for
more, and rows that are added displace only entries that are farther away. An undefined distance is
ranked as an infinite one: entries without a defined distance come after all others, except for
entries at an infinite distance, among which the order of the file decides.

Main definitions: `Leads`, `Neighborhood.Nearer`, `Neighborhood.ranking`,
`Neighborhood.UndefinedLast`.
Main statements: `Leads.of_append`, `Leads.displaced`, `Neighborhood.pairwise_ranking`,
`Neighborhood.nearest_leads`, `Neighborhood.undefined_last_iff`.
-/

namespace SolverPortfolio

/-! ## The first of many -/

/-- The first `k` of some candidates in an order: all of them if there are no more, each once, in
the order, and everything that is left out comes after them. -/
structure Leads {ρ : Type} (before : ρ → ρ → Prop) (k : ℕ) (candidates chosen : List ρ) :
    Prop where
  length_eq : chosen.length = min k candidates.length
  subset : ∀ a ∈ chosen, a ∈ candidates
  ordered : chosen.Pairwise before
  outranks : ∀ a ∈ chosen, ∀ b ∈ candidates, b ∉ chosen → before a b

section

variable {ρ : Type} {before : ρ → ρ → Prop} {k : ℕ} {candidates more ranked chosen chosen' : List ρ}

/-- The beginning of a list in order has the first ones. -/
theorem leads_take (hperm : ranked.Perm candidates) (hordered : ranked.Pairwise before) (k : ℕ) :
    Leads before k candidates (ranked.take k) where
  length_eq := by rw [List.length_take, hperm.length_eq]
  subset a ha := hperm.subset (List.mem_of_mem_take ha)
  ordered := hordered.sublist (List.take_sublist k ranked)
  outranks a ha b hb hnot := by
    have hsplit := hperm.symm.subset hb
    rw [← List.take_append_drop k ranked] at hsplit hordered
    have hdrop := (List.mem_append.mp hsplit).resolve_left hnot
    exact (List.pairwise_append.mp hordered).2.2 a ha b hdrop

/-- Nothing is chosen twice. -/
theorem Leads.nodup (h : Leads before k candidates chosen) (hirrefl : ∀ a, ¬ before a a) :
    chosen.Nodup := by
  refine h.ordered.imp ?_
  rintro a b hab rfl
  exact hirrefl a hab

/-- What is first in one order is first in any other one that says the same of the candidates. -/
theorem Leads.imp {before' : ρ → ρ → Prop} (h : Leads before k candidates chosen)
    (himp : ∀ a ∈ candidates, ∀ b ∈ candidates, before a b → before' a b) :
    Leads before' k candidates chosen where
  length_eq := h.length_eq
  subset := h.subset
  ordered := h.ordered.imp_of_mem fun ha hb => himp _ (h.subset _ ha) _ (h.subset _ hb)
  outranks a ha b hb hnot := himp a (h.subset a ha) b hb (h.outranks a ha b hb hnot)

/-- What holds of the chosen from front to back holds of any two of them in the order. -/
theorem Leads.pairwise_iff (h : Leads before k candidates chosen)
    (hasymm : ∀ a b, before a b → ¬ before b a) {r : ρ → ρ → Prop} :
    chosen.Pairwise r ↔ ∀ a ∈ chosen, ∀ b ∈ chosen, before a b → r a b := by
  constructor
  · intro hr a ha b hb
    let follows : ρ → ρ → Prop := fun a b => before a b → r a b
    have hsame : ∀ a ∈ chosen, follows a a := fun a _ haa => absurd haa (hasymm a a haa)
    have hlater : chosen.Pairwise follows := by
      refine hr.imp ?_
      intro a b hab _
      exact hab
    have hearlier : chosen.Pairwise (flip follows) := by
      refine h.ordered.imp ?_
      intro a b hab hba
      exact absurd hab (hasymm b a hba)
    exact List.Pairwise.forall_of_forall_of_flip hsame hlater hearlier ha hb
  · intro hr
    exact h.ordered.imp_of_mem fun ha hb => hr _ ha _ hb

/-- With more candidates one that was chosen is left out only for new ones, which come before it. -/
theorem Leads.displaced (h : Leads before k candidates chosen)
    (h' : Leads before k (candidates ++ more) chosen') (hasymm : ∀ a b, before a b → ¬ before b a)
    {a b : ρ} (ha : a ∈ chosen) (hnot : a ∉ chosen') (hb : b ∈ chosen') (hnew : b ∉ chosen) :
    b ∈ more ∧ before b a := by
  have hbefore := h'.outranks b hb a (List.mem_append_left more (h.subset a ha)) hnot
  refine ⟨(List.mem_append.mp (h'.subset b hb)).resolve_left fun hold => ?_, hbefore⟩
  exact hasymm b a hbefore (h.outranks a ha b hold hnew)

/-- With more candidates none of the others is chosen that was not chosen before. -/
theorem Leads.of_append (h : Leads before k candidates chosen)
    (h' : Leads before k (candidates ++ more) chosen') (hasymm : ∀ a b, before a b → ¬ before b a)
    (hdistinct : ∀ a ∈ candidates, a ∉ more) {b : ρ} (hb : b ∈ chosen') (hold : b ∈ candidates) :
    b ∈ chosen := by
  by_contra hnot
  have hirrefl : ∀ a, ¬ before a a := fun a haa => hasymm a a haa haa
  -- All that was chosen stays, so that there would be one too many.
  have hstays : chosen ⊆ chosen' := fun a ha => by
    by_contra hleft
    exact hdistinct b hold (h.displaced h' hasymm ha hleft hb hnot).1
  have hmore : (b :: chosen).length ≤ chosen'.length :=
    ((h.nodup hirrefl).cons hnot).length_le_of_subset (List.cons_subset.mpr ⟨hb, hstays⟩)
  have hfew : (b :: chosen).length ≤ candidates.length :=
    ((h.nodup hirrefl).cons hnot).length_le_of_subset (List.cons_subset.mpr ⟨hold, h.subset⟩)
  rw [List.length_cons, h.length_eq] at hfew
  rw [List.length_cons, h.length_eq, h'.length_eq] at hmore
  omega

end

namespace Neighborhood

open Number (level orderKey IsUnsigned)

/-! ## Distances -/

/-- An entry comes before another one if it measures less, or as much and stands before it in the
file. -/
def Nearer (measure : Entry Float → Float) (a b : Entry Float × ℕ) : Prop :=
  measure a.1 < measure b.1 ∨ (measure a.1 == measure b.1) = true ∧ a.2 < b.2

/-- The distance of an entry from a query. -/
def distanceFrom (query : List Float) (entry : Entry Float) : Float :=
  distance query (featureVector entry)

/-- A sum of numbers without sign has none. -/
theorem isUnsigned_foldl {x : Float} (hx : IsUnsigned x) {xs : List Float}
    (hxs : ∀ y ∈ xs, IsUnsigned y) : IsUnsigned (xs.foldl (· + ·) x) := by
  induction xs generalizing x with
  | nil => exact hx
  | cons y xs ih =>
    exact ih (hx.add (hxs y List.mem_cons_self)) fun z hz => hxs z (List.mem_cons_of_mem y hz)

/-- The distance in one or more components has no sign. -/
theorem isUnsigned_distance (x y : Float) (xs ys : List Float) :
    IsUnsigned (distance (x :: xs) (y :: ys)) := by
  refine IsUnsigned.sqrt (isUnsigned_foldl (Number.isUnsigned_mul_self _).negZero_add ?_)
  intro z hz
  rw [List.mem_iff_getElem] at hz
  obtain ⟨i, hi, rfl⟩ := hz
  rw [List.getElem_zipWith]
  exact Number.isUnsigned_mul_self _

/-- An entry with as many features as the query has components has no sign in its distance, unless
there are none. -/
theorem isUnsigned_distanceTo {x : Float} {xs : List Float} {entry : Entry Float}
    (h : entry.features.length = (x :: xs).length) : IsUnsigned (distanceTo (x :: xs) entry) := by
  obtain ⟨y, ys, hfeatures⟩ := List.exists_cons_of_length_eq_add_one h
  unfold distanceTo
  dsimp only
  split
  · exact (by decide : (1 / 0 : Float).toBits.toNat < 2 ^ 63)
  · rw [featureVector, hfeatures, List.map_cons]
    exact isUnsigned_distance _ _ _ _

/-- How far an entry is from a query is defined. -/
theorem isNaN_distanceTo (query : List Float) (entry : Entry Float) :
    (distanceTo query entry).isNaN = false := by
  unfold distanceTo
  dsimp only
  split
  · decide
  · next h => exact Bool.not_eq_true _ ▸ h

/-- An entry at a defined distance is as far from the query as the distance says. -/
theorem distanceTo_eq {query : List Float} {entry : Entry Float}
    (h : (distanceFrom query entry).isNaN = false) :
    distanceTo query entry = distanceFrom query entry := by
  rw [distanceFrom] at h
  rw [distanceTo, h, distanceFrom]
  rfl

/-- Entries of one shape are ordered by the bit patterns of their distances as by the levels. -/
theorem orderKey_le_iff {query : List Float} {a b : Entry Float}
    (ha : a.features.length = query.length) (hb : b.features.length = query.length) :
    orderKey (distanceTo query a) ≤ orderKey (distanceTo query b) ↔
      level (distanceTo query a) ≤ level (distanceTo query b) := by
  cases query with
  | nil =>
    -- Without components all distances are the same.
    have hsame : distanceTo [] a = distanceTo [] b := by
      rw [distanceTo, distanceTo, featureVector, featureVector, List.length_eq_zero_iff.mp ha,
        List.length_eq_zero_iff.mp hb]
    rw [hsame]
    exact iff_of_true le_rfl le_rfl
  | cons x xs => rw [(isUnsigned_distanceTo ha).orderKey_eq, (isUnsigned_distanceTo hb).orderKey_eq]

/-- One entry comes before another one if it is on a lower level, or on the same and before it in
the file. -/
theorem nearer_iff {query : List Float} {a b : Entry Float × ℕ} :
    Nearer (distanceTo query) a b ↔ level (distanceTo query a.1) < level (distanceTo query b.1) ∨
      level (distanceTo query a.1) = level (distanceTo query b.1) ∧ a.2 < b.2 := by
  rw [Nearer, Number.lt_iff (isNaN_distanceTo query a.1) (isNaN_distanceTo query b.1),
    Number.beq_iff (isNaN_distanceTo query a.1) (isNaN_distanceTo query b.1)]

/-- Of two entries at most one comes before the other. -/
theorem nearer_asymm (query : List Float) (a b : Entry Float × ℕ)
    (h : Nearer (distanceTo query) a b) : ¬ Nearer (distanceTo query) b a := by
  rw [nearer_iff] at h ⊢
  omega

/-- At defined distances an entry that comes before another one is less far away, or as far and
before it in the file. -/
theorem nearer_distanceFrom_iff {query : List Float} {a b : Entry Float × ℕ}
    (ha : (distanceFrom query a.1).isNaN = false) (hb : (distanceFrom query b.1).isNaN = false) :
    Nearer (distanceFrom query) a b ↔ Nearer (distanceTo query) a b := by
  rw [Nearer, Nearer, distanceTo_eq ha, distanceTo_eq hb]

/-! ## The ranking -/

/-- The entries with their positions, ranked by how far they are from a query. -/
def ranking (query : List Float) (entries : List (Entry Float)) : List (Entry Float × ℕ) :=
  ((entries.map fun entry => (orderKey (distanceTo query entry), entry)).zipIdx.mergeSort
    (List.zipIdxLE fun a b => decide (a.1 ≤ b.1))).map fun p => (p.1.2, p.2)

/-- All entries are ranked. -/
theorem ranking_perm (query : List Float) (entries : List (Entry Float)) :
    (ranking query entries).Perm entries.zipIdx := by
  have hplain : (entries.map fun entry => (orderKey (distanceTo query entry), entry)).zipIdx.map
      (fun p => (p.1.2, p.2)) = entries.zipIdx := by
    rw [List.zipIdx_map, List.map_map]
    exact List.map_id _
  have hperm := (List.mergeSort_perm
    (entries.map fun entry => (orderKey (distanceTo query entry), entry)).zipIdx
    (List.zipIdxLE fun a b => decide (a.1 ≤ b.1))).map fun p => (p.1.2, p.2)
  rw [hplain] at hperm
  exact hperm

/-- What is ranked is an entry with its place in the order of the bit patterns. -/
theorem exists_of_mem_zipIdx {query : List Float} {entries : List (Entry Float)}
    {p : (ℤ × Entry Float) × ℕ}
    (h : p ∈ (entries.map fun entry => (orderKey (distanceTo query entry), entry)).zipIdx) :
    p.1.2 ∈ entries ∧ p.1.1 = orderKey (distanceTo query p.1.2) := by
  have hmem := List.mem_of_getElem? (List.mem_zipIdx_iff_getElem?.mp h)
  obtain ⟨entry, hentry, heq⟩ := List.mem_map.mp hmem
  rw [← heq]
  exact ⟨hentry, rfl⟩

/-- Entries of one shape are ranked nearest first, and in the order of the file if they are equally
near. -/
theorem pairwise_ranking {query : List Float} {entries : List (Entry Float)}
    (h : ∀ entry ∈ entries, entry.features.length = query.length) :
    (ranking query entries).Pairwise (Nearer (distanceTo query)) := by
  let keyed := (entries.map fun entry => (orderKey (distanceTo query entry), entry)).zipIdx
  let le := List.zipIdxLE fun (a b : ℤ × Entry Float) => decide (a.1 ≤ b.1)
  have hperm : (keyed.mergeSort le).Perm keyed := List.mergeSort_perm keyed le
  have hsorted : (keyed.mergeSort le).Pairwise fun p q => le p q = true :=
    List.pairwise_mergeSort (List.zipIdxLE_trans (by simpa using fun a _ b _ c _ => le_trans))
      (List.zipIdxLE_total (by simpa using fun a _ b _ => le_total a b)) keyed
  have hdistinct : (keyed.mergeSort le).Pairwise fun p q => p.2 ≠ q.2 :=
    List.pairwise_map.mp ((hperm.map Prod.snd).nodup_iff.mpr (List.nodup_zipIdx_map_snd _))
  rw [ranking, List.pairwise_map]
  refine (hsorted.and hdistinct).imp_of_mem fun {p q} hp hq hpq => ?_
  obtain ⟨hp, hpkey⟩ := exists_of_mem_zipIdx (hperm.subset hp)
  obtain ⟨hq, hqkey⟩ := exists_of_mem_zipIdx (hperm.subset hq)
  obtain ⟨hle, hne⟩ := hpq
  have hpq := orderKey_le_iff (h _ hp) (h _ hq)
  have hqp := orderKey_le_iff (h _ hq) (h _ hp)
  rw [nearer_iff]
  dsimp only
  simp only [le, List.zipIdxLE, hpkey, hqkey, decide_eq_true_eq] at hle
  split at hle
  · split at hle
    · have hlt := of_decide_eq_true hle
      omega
    · omega
  · cases hle

/-- The entries nearest to a query are the first ones of the ranking. -/
theorem nearest_eq {kb : KnowledgeBase Float} {query : List Float} {k : ℕ}
    {found : List (Entry Float)} (h : kb.nearest query k = .ok found) :
    found = ((ranking query kb.entries).take k).map (·.1) := by
  unfold KnowledgeBase.nearest at h
  split at h
  · cases h
  · cases h
    rw [← List.mergeSort_zipIdx, ranking]
    simp only [← List.map_take, List.map_map]
    rfl

/-- The shape of the entries is that of the query if it is answered. -/
theorem length_of_nearest {kb : KnowledgeBase Float}
    (hkb : ∀ entry ∈ kb.entries, entry.features.length = kb.dimension) {query : List Float} {k : ℕ}
    {found : List (Entry Float)} (h : kb.nearest query k = .ok found) :
    ∀ entry ∈ kb.entries, entry.features.length = query.length := by
  unfold KnowledgeBase.nearest at h
  split at h
  · cases h
  · next hmatch =>
    intro entry hentry
    have hne : kb.entries ≠ [] := List.ne_nil_of_mem hentry
    rw [hkb entry hentry]
    simpa [hne] using hmatch

/-- The number of neighbours asked for does not decide whether there is an answer. -/
theorem nearest_of_nearest {kb : KnowledgeBase Float} {query : List Float} {k : ℕ}
    {found : List (Entry Float)} (h : kb.nearest query k = .ok found) (l : ℕ) :
    kb.nearest query l = .ok (((ranking query kb.entries).take l).map (·.1)) := by
  have hanswered : ∃ found', kb.nearest query l = .ok found' := by
    unfold KnowledgeBase.nearest at h ⊢
    split at h
    · cases h
    · next hmatch =>
      rw [if_neg hmatch]
      exact ⟨_, rfl⟩
  obtain ⟨found', hfound'⟩ := hanswered
  rw [hfound', nearest_eq hfound']

/-- The first entries of the ranking are the first ones in the order of their distances and
positions. -/
theorem leads_ranking {query : List Float} {entries : List (Entry Float)}
    (h : ∀ entry ∈ entries, entry.features.length = query.length) (k : ℕ) :
    Leads (Nearer (distanceTo query)) k entries.zipIdx ((ranking query entries).take k) :=
  leads_take (ranking_perm query entries) (pairwise_ranking h) k

/-! ## Defined distances -/

/-- An entry in a position is an entry. -/
theorem fst_mem_of_mem_zipIdx {entries : List (Entry Float)} {a : Entry Float × ℕ}
    (h : a ∈ entries.zipIdx) : a.1 ∈ entries :=
  List.mem_of_getElem? (List.mem_zipIdx_iff_getElem?.mp h)

/-- At defined distances they are the first ones in the order of these. -/
theorem leads_ranking_of_defined {query : List Float} {entries : List (Entry Float)}
    (h : ∀ entry ∈ entries, entry.features.length = query.length)
    (hdefined : ∀ entry ∈ entries, (distanceFrom query entry).isNaN = false) (k : ℕ) :
    Leads (Nearer (distanceFrom query)) k entries.zipIdx ((ranking query entries).take k) :=
  (leads_ranking h k).imp fun _ ha _ hb => (nearer_distanceFrom_iff
    (hdefined _ (fst_mem_of_mem_zipIdx ha)) (hdefined _ (fst_mem_of_mem_zipIdx hb))).mpr

/-- An entry behind another one in the file comes before it only if it is less far away. -/
theorem Nearer.lt {measure : Entry Float → Float} {a b : Entry Float × ℕ}
    (h : Nearer measure a b) (hle : b.2 ≤ a.2) : measure a.1 < measure b.1 :=
  h.resolve_right fun hequal => absurd hequal.2 (not_lt.mpr hle)

/-- With more rows the entries found are some of those found before, and rows that are nearer than
any of the others. -/
theorem displaced_ranking {query : List Float} {entries rows : List (Entry Float)}
    (h : ∀ entry ∈ entries ++ rows, entry.features.length = query.length) (k : ℕ) :
    (∀ b ∈ (ranking query (entries ++ rows)).take k, b.2 < entries.length →
      b ∈ (ranking query entries).take k) ∧
    ∀ a ∈ (ranking query entries).take k, a ∉ (ranking query (entries ++ rows)).take k →
      ∀ b ∈ (ranking query (entries ++ rows)).take k, b ∉ (ranking query entries).take k →
        distanceTo query b.1 < distanceTo query a.1 := by
  have hold := leads_ranking (fun entry hentry => h entry (List.mem_append_left rows hentry)) k
  have hnew := leads_ranking h k
  rw [List.zipIdx_append, Nat.zero_add] at hnew
  have hbehind : ∀ b ∈ rows.zipIdx entries.length, entries.length ≤ b.2 :=
    fun b => List.le_snd_of_mem_zipIdx
  have hbefore : ∀ a ∈ entries.zipIdx, a.2 < entries.length :=
    fun a ha => List.snd_lt_of_mem_zipIdx ha
  constructor
  · intro b hb hlt
    refine hold.of_append hnew (nearer_asymm query) (fun a ha hmore => ?_) hb ?_
    · exact absurd (hbefore a ha) (not_lt.mpr (hbehind a hmore))
    · refine (List.mem_append.mp (hnew.subset b hb)).resolve_right fun hmore => ?_
      exact absurd hlt (not_lt.mpr (hbehind b hmore))
  · intro a ha hleft b hb hnot
    obtain ⟨hmore, hnearer⟩ := hold.displaced hnew (nearer_asymm query) ha hleft hb hnot
    exact hnearer.lt ((hbefore a (hold.subset a ha)).le.trans (hbehind b hmore))

/-- The nearest entries. At defined distances a query that is answered is answered by the first `k`
entries in the order of the distances, and in that of the file where these are the same. So the
answer is the beginning of that for more neighbours, and rows that are added displace only entries
that are farther away than any of the rows in the answer. -/
theorem nearest_leads {kb : KnowledgeBase Float}
    (hkb : ∀ entry ∈ kb.entries, entry.features.length = kb.dimension) {query : List Float}
    (hdefined : ∀ entry ∈ kb.entries, (distanceFrom query entry).isNaN = false) {k : ℕ}
    {found : List (Entry Float)} (h : kb.nearest query k = .ok found) :
    ∃ chosen, found = chosen.map (·.1) ∧
      Leads (Nearer (distanceFrom query)) k kb.entries.zipIdx chosen ∧
      (∀ l, k ≤ l → ∃ more, kb.nearest query l = .ok (found ++ more)) ∧
      ∀ (rows found' : List (Entry Float)),
        (∀ entry ∈ rows, entry.features.length = query.length) →
        (∀ entry ∈ rows, (distanceFrom query entry).isNaN = false) →
        KnowledgeBase.nearest ⟨kb.entries ++ rows⟩ query k = .ok found' →
        ∃ chosen', found' = chosen'.map (·.1) ∧
          Leads (Nearer (distanceFrom query)) k (kb.entries ++ rows).zipIdx chosen' ∧
          (∀ b ∈ chosen', b.2 < kb.entries.length → b ∈ chosen) ∧
          ∀ a ∈ chosen, a ∉ chosen' → ∀ b ∈ chosen', b ∉ chosen →
            distanceFrom query b.1 < distanceFrom query a.1 := by
  have hfound := nearest_eq h
  have hshape := length_of_nearest hkb h
  refine ⟨_, hfound, leads_ranking_of_defined hshape hdefined k, fun l hl => ?_, ?_⟩
  · obtain ⟨more, hmore⟩ := List.take_prefix_take_left (l := ranking query kb.entries) hl
    refine ⟨more.map (·.1), ?_⟩
    rw [nearest_of_nearest h l, hfound, ← List.map_append, hmore]
  · intro rows found' hrows hrowsDefined h'
    have hshape' : ∀ entry ∈ kb.entries ++ rows, entry.features.length = query.length :=
      List.forall_mem_append.mpr ⟨hshape, hrows⟩
    have hdefined' : ∀ entry ∈ kb.entries ++ rows, (distanceFrom query entry).isNaN = false :=
      List.forall_mem_append.mpr ⟨hdefined, hrowsDefined⟩
    have hold := leads_ranking_of_defined hshape hdefined k
    have hnew := leads_ranking_of_defined hshape' hdefined' k
    obtain ⟨hstays, hdisplaced⟩ := displaced_ranking hshape' k
    refine ⟨_, nearest_eq h', hnew, hstays, fun a ha hleft b hb hnot => ?_⟩
    have hlt := hdisplaced a ha hleft b hb hnot
    rwa [distanceTo_eq (hdefined' _ (fst_mem_of_mem_zipIdx (hnew.subset b hb))),
      distanceTo_eq (hdefined _ (fst_mem_of_mem_zipIdx (hold.subset a ha)))] at hlt

/-- The entries found depend on the places of the distances in the order of the bit patterns. -/
theorem nearest_of_keys {kb : KnowledgeBase Float} {query : List Float} {keys : List ℤ}
    (hkeys : kb.entries.map (fun entry => orderKey (distanceTo query entry)) = keys)
    (hmatch : kb.dimension = query.length) (k : ℕ) :
    kb.nearest query k = .ok ((((keys.zip kb.entries).mergeSort
      fun a b => decide (a.1 ≤ b.1)).take k).map fun p => p.2) := by
  rw [KnowledgeBase.nearest, if_neg (by simp [hmatch]), ← hkeys, ← List.map_prod_right_eq_zip]

/-- Three entries at one distance from the origin. -/
def right : Entry Float := ⟨"right", [some 1, some 0], []⟩

@[inherit_doc right]
def up : Entry Float := ⟨"up", [some 0, some 1], []⟩

@[inherit_doc right]
def left : Entry Float := ⟨"left", [some (-1), some 0], []⟩

/-- An entry that is nearer to the origin. -/
def closer : Entry Float := ⟨"closer", [some 0.5, some 0], []⟩

/-- The order of the file decides among equal distances, and the nearer entry displaces the second
one. -/
theorem cross_leads :
    (∀ entry ∈ [right, up, left], entry.features.length = 2) ∧
      (∀ entry ∈ [right, up, left, closer], (distanceFrom [0, 0] entry).isNaN = false) ∧
      KnowledgeBase.nearest ⟨[right, up, left]⟩ [0, 0] 2 = .ok [right, up] ∧
      KnowledgeBase.nearest ⟨[right, up, left, closer]⟩ [0, 0] 2 = .ok [closer, right] ∧
      (∃ more, KnowledgeBase.nearest ⟨[right, up, left]⟩ [0, 0] 3 = .ok ([right, up] ++ more)) ∧
      ∃ chosen chosen', [right, up] = chosen.map (·.1) ∧ [closer, right] = chosen'.map (·.1) ∧
        Leads (Nearer (distanceFrom [0, 0])) 2 [(right, 0), (up, 1), (left, 2)] chosen ∧
        Leads (Nearer (distanceFrom [0, 0])) 2 [(right, 0), (up, 1), (left, 2), (closer, 3)]
          chosen' ∧
        ∀ a ∈ chosen, a ∉ chosen' → ∀ b ∈ chosen', b ∉ chosen →
          distanceFrom [0, 0] b.1 < distanceFrom [0, 0] a.1 := by
  have hkeys : [right, up, left, closer].map (fun entry => orderKey (distanceTo [0, 0] entry)) =
      [4607182418800017408, 4607182418800017408, 4607182418800017408, 4602678819172646912] := by
    decide +kernel
  have hthree : [right, up, left].map (fun entry => orderKey (distanceTo [0, 0] entry)) =
      [4607182418800017408, 4607182418800017408, 4607182418800017408] :=
    congrArg (List.take 3) hkeys
  have hfound : KnowledgeBase.nearest ⟨[right, up, left]⟩ [0, 0] 2 = .ok [right, up] := by
    rw [nearest_of_keys hthree rfl]
    simp [List.mergeSort, List.MergeSort.Internal.splitInTwo]
  have hfound' : KnowledgeBase.nearest ⟨[right, up, left, closer]⟩ [0, 0] 2 =
      .ok [closer, right] := by
    rw [nearest_of_keys hkeys rfl]
    simp [List.mergeSort, List.MergeSort.Internal.splitInTwo]
  have hshape : ∀ entry ∈ [right, up, left], entry.features.length = 2 := by decide
  have hdefined : ∀ entry ∈ [right, up, left, closer],
      (distanceFrom [0, 0] entry).isNaN = false := by decide +kernel
  obtain ⟨chosen, hchosen, hleads, hmore, happended⟩ := nearest_leads hshape
    (fun entry hentry => hdefined entry (List.mem_append_left [closer] hentry)) hfound
  obtain ⟨chosen', hchosen', hleads', -, hdisplaced⟩ := happended [closer] _ (by decide)
    (fun entry hentry => hdefined entry (List.mem_append_right [right, up, left] hentry)) hfound'
  exact ⟨hshape, hdefined, hfound, hfound', hmore 3 (by decide), chosen, chosen', hchosen, hchosen',
    hleads, hleads', hdisplaced⟩

/-! ## Undefined distances -/

/-- No entry at an undefined distance precedes one at a defined distance among the entries chosen,
and one is chosen only if all of the others are. -/
structure UndefinedLast (query : List Float) (candidates chosen : List (Entry Float × ℕ)) :
    Prop where
  follow : chosen.Pairwise fun a b =>
    (distanceFrom query a.1).isNaN = true → (distanceFrom query b.1).isNaN = true
  spare : ∀ a ∈ chosen, (distanceFrom query a.1).isNaN = true →
    ∀ b ∈ candidates, (distanceFrom query b.1).isNaN = false → b ∈ chosen

/-- An entry at an undefined distance comes before one at a defined distance only if this is
infinite, and then if it stands before it in the file. -/
theorem nearer_of_undefined {query : List Float} {a b : Entry Float × ℕ}
    (ha : (distanceFrom query a.1).isNaN = true) (hb : (distanceFrom query b.1).isNaN = false) :
    Nearer (distanceTo query) a b ↔ (distanceFrom query b.1 == 1 / 0) = true ∧ a.2 < b.2 := by
  have hfar : distanceTo query a.1 = 1 / 0 := if_pos ha
  have htop : (1 / 0 : Float).isNaN = false := by decide
  have hlevel := Number.level_le_infinity hb
  rw [nearer_iff, hfar, distanceTo_eq hb, Number.beq_iff hb htop]
  omega

/-- Undefined distances. A query that is answered is answered by the first `k` entries in the order
of the file and of the distances, of which an undefined one counts as infinite. So entries at
undefined distances come last exactly if none of those in the answer stands in the file before an
entry at an infinite distance. -/
theorem undefined_last_iff {kb : KnowledgeBase Float}
    (hkb : ∀ entry ∈ kb.entries, entry.features.length = kb.dimension) {query : List Float} {k : ℕ}
    {found : List (Entry Float)} (h : kb.nearest query k = .ok found) :
    ∃ chosen, found = chosen.map (·.1) ∧
      Leads (Nearer (distanceTo query)) k kb.entries.zipIdx chosen ∧
      (UndefinedLast query kb.entries.zipIdx chosen ↔
        ∀ a ∈ chosen, (distanceFrom query a.1).isNaN = true → ∀ b ∈ kb.entries.zipIdx,
          (distanceFrom query b.1 == 1 / 0) = true → b.2 ≤ a.2) := by
  have hleads := leads_ranking (length_of_nearest hkb h) k
  have hbefore : UndefinedLast query kb.entries.zipIdx ((ranking query kb.entries).take k) ↔
      ∀ a ∈ (ranking query kb.entries).take k, (distanceFrom query a.1).isNaN = true →
        ∀ b ∈ kb.entries.zipIdx, (distanceFrom query b.1).isNaN = false →
          ¬ Nearer (distanceTo query) a b := by
    constructor
    · intro hlast a ha hundefined b hb hdefined hnearer
      have hchosen := hlast.spare a ha hundefined b hb hdefined
      have hfollow := (hleads.pairwise_iff (nearer_asymm query)).mp hlast.follow
      exact Bool.false_ne_true (hdefined.symm.trans (hfollow a ha b hchosen hnearer hundefined))
    · intro hnone
      refine ⟨(hleads.pairwise_iff (nearer_asymm query)).mpr fun a ha b hb hnearer hundefined => ?_,
        fun a ha hundefined b hb hdefined => ?_⟩
      · by_contra hdefined
        exact hnone a ha hundefined b (hleads.subset b hb) (Bool.not_eq_true _ ▸ hdefined) hnearer
      · by_contra hnot
        exact hnone a ha hundefined b hb hdefined (hleads.outranks a ha b hb hnot)
  refine ⟨_, nearest_eq h, hleads, hbefore.trans ?_⟩
  refine forall₃_congr fun a ha hundefined => forall₂_congr fun b hb => ?_
  constructor
  · intro hnone hinfinite
    by_contra hbehind
    have hdefined : (distanceFrom query b.1).isNaN = false := by
      rw [Float.isNaN_eq_decide_eq_nan, decide_eq_false_iff_not]
      exact (Float.beq_iff_ne_nan_and_eq.mp hinfinite).1
    exact hnone hdefined ((nearer_of_undefined hundefined hdefined).mpr
      ⟨hinfinite, not_le.mp hbehind⟩)
  · intro hnone hdefined hnearer
    obtain ⟨hinfinite, hlt⟩ := (nearer_of_undefined hundefined hdefined).mp hnearer
    exact absurd hlt (not_lt.mpr (hnone hinfinite))

/-- An entry without its only feature. -/
def featureless : Entry Float := ⟨"featureless", [none], []⟩

/-- An entry whose squared difference to the origin is beyond the range of the numbers. -/
def remote : Entry Float := ⟨"remote", [some 1e200], []⟩

/-- Behind all entries at infinite distances an undefined one is last. -/
theorem featureless_behind_remote :
    KnowledgeBase.nearest ⟨[remote, featureless]⟩ [0] 2 = .ok [remote, featureless] ∧
      ∃ chosen, [remote, featureless] = chosen.map (·.1) ∧
        UndefinedLast [0] [(remote, 0), (featureless, 1)] chosen := by
  have hkeys : [remote, featureless].map (fun entry => orderKey (distanceTo [0] entry)) =
      [9218868437227405312, 9218868437227405312] := by decide +kernel
  have hfound : KnowledgeBase.nearest ⟨[remote, featureless]⟩ [0] 2 =
      .ok [remote, featureless] := by
    rw [nearest_of_keys hkeys rfl]
    simp [List.mergeSort, List.MergeSort.Internal.splitInTwo]
  obtain ⟨chosen, hchosen, hleads, hlast⟩ := undefined_last_iff (by decide) hfound
  refine ⟨hfound, chosen, hchosen, hlast.mpr fun a ha => ?_⟩
  have hbehind : ∀ a ∈ [(remote, 0), (featureless, 1)], (distanceFrom [0] a.1).isNaN = true →
      ∀ b ∈ [(remote, 0), (featureless, 1)], (distanceFrom [0] b.1 == 1 / 0) = true →
        b.2 ≤ a.2 := by decide +kernel
  exact hbehind a (hleads.subset a ha)

/-- Before them it is not. -/
theorem featureless_before_remote :
    KnowledgeBase.nearest ⟨[featureless, remote]⟩ [0] 2 = .ok [featureless, remote] ∧
      KnowledgeBase.nearest ⟨[featureless, remote]⟩ [0] 1 = .ok [featureless] ∧
      (distanceFrom [0] featureless).isNaN = true ∧ (distanceFrom [0] remote).isNaN = false := by
  have hkeys : [featureless, remote].map (fun entry => orderKey (distanceTo [0] entry)) =
      [9218868437227405312, 9218868437227405312] := by decide +kernel
  refine ⟨?_, ?_, by decide +kernel, by decide +kernel⟩ <;>
  · rw [nearest_of_keys hkeys rfl]
    simp [List.mergeSort, List.MergeSort.Internal.splitInTwo]

end Neighborhood

end SolverPortfolio
