import Mathlib
import SolverPortfolio.ProcessTree

/-
# The descendants of a process

The walk through a process tree keeps no list of the processes it has seen. It comes to its end,
and meets no process twice, because the processes that are pending are never related: each
process has one parent, and none is its own ancestor. What is left to be met are the descendants
of the pending processes, and each step of the walk takes one of them away.

Main definitions: `ProcessSnapshot.Descends`, `ProcessSnapshot.Orderly`,
`ProcessSnapshot.Unrelated`, `ProcessSnapshot.below`.
Main statements: `ProcessSnapshot.Orderly.below_cons`, `ProcessSnapshot.Orderly.exists_walk`,
`ProcessSnapshot.Orderly.tree_descendants`.
-/

namespace SolverPortfolio

namespace ProcessSnapshot

/-- The numbers of the processes in a snapshot. -/
def ids (snapshot : ProcessSnapshot) : List ProcessId := List.map (·.id) snapshot

/-- A process of the snapshot has another one as its parent. -/
def ChildOf (snapshot : ProcessSnapshot) (child parent : ProcessId) : Prop :=
  child ∈ snapshot.children parent

/-- A process reaches another one, or itself, by a chain of parents. -/
abbrev Descends (snapshot : ProcessSnapshot) : ProcessId → ProcessId → Prop :=
  Relation.ReflTransGen snapshot.ChildOf

/-- Each process is listed once, and none is its own ancestor. -/
structure Orderly (snapshot : ProcessSnapshot) : Prop where
  nodup : snapshot.ids.Nodup
  acyclic : ∀ id, ¬ Relation.TransGen snapshot.ChildOf id id

variable {snapshot : ProcessSnapshot} {id child parent root : ProcessId}
  {pending : List ProcessId}

/-! ## Parents and children -/

/-- A child is a process of the snapshot that names its parent. -/
theorem childOf_iff :
    snapshot.ChildOf child parent ↔ ∃ p ∈ snapshot, p.parent = some parent ∧ p.id = child := by
  simp only [ChildOf, children, List.mem_map, List.mem_filter, beq_iff_eq, and_assoc]

/-- A process is found just if it is in the snapshot. -/
theorem find?_eq_none_iff : snapshot.find? id = none ↔ id ∉ snapshot.ids := by
  simp [find?, ids]

/-- Every child is in the snapshot. -/
theorem ChildOf.mem_ids (h : snapshot.ChildOf child parent) : child ∈ snapshot.ids := by
  obtain ⟨p, hp, -, rfl⟩ := childOf_iff.mp h
  exact List.mem_map_of_mem hp

/-- The children of a process are in the snapshot. -/
theorem children_subset_ids (id : ProcessId) : snapshot.children id ⊆ snapshot.ids :=
  fun _ hchild => ChildOf.mem_ids hchild

/-- What descends from a process of the snapshot is in the snapshot. -/
theorem Descends.mem_ids (h : snapshot.Descends id root) (hroot : root ∈ snapshot.ids) :
    id ∈ snapshot.ids := by
  rcases Relation.ReflTransGen.cases_head h with rfl | ⟨_, hchild, -⟩
  · exact hroot
  · exact hchild.mem_ids

/-- A process of the snapshot has one record. -/
theorem Orderly.eq_of_id_eq (h : snapshot.Orderly) {p q : ProcessRecord} (hp : p ∈ snapshot)
    (hq : q ∈ snapshot) (heq : p.id = q.id) : p = q :=
  List.inj_on_of_nodup_map h.nodup hp hq heq

/-- What is found is the record of the process. -/
theorem mem_of_find? {p : ProcessRecord} (hfound : snapshot.find? id = some p) :
    p ∈ snapshot ∧ p.id = id := by
  unfold find? at hfound
  exact ⟨List.mem_of_find?_eq_some hfound, by simpa using List.find?_some hfound⟩

/-- The record of a process is found. -/
theorem Orderly.find?_eq_some_iff (h : snapshot.Orderly) {p : ProcessRecord} :
    snapshot.find? id = some p ↔ p ∈ snapshot ∧ p.id = id := by
  refine ⟨mem_of_find?, ?_⟩
  rintro ⟨hp, rfl⟩
  cases hfound : snapshot.find? p.id with
  | none => exact absurd (List.mem_map_of_mem hp) (find?_eq_none_iff.mp hfound)
  | some q =>
    obtain ⟨hq, heq⟩ := mem_of_find? hfound
    rw [h.eq_of_id_eq hq hp heq]

/-- A process has one parent. -/
theorem Orderly.parent_unique (h : snapshot.Orderly) {other : ProcessId}
    (hparent : snapshot.ChildOf child parent) (hother : snapshot.ChildOf child other) :
    parent = other := by
  obtain ⟨p, hp, hpp, rfl⟩ := childOf_iff.mp hparent
  obtain ⟨q, hq, hqp, heq⟩ := childOf_iff.mp hother
  obtain rfl := h.eq_of_id_eq hq hp heq
  exact Option.some.inj (hpp.symm.trans hqp)

/-- The children of a process are listed once each. -/
theorem Orderly.nodup_children (h : snapshot.Orderly) (id : ProcessId) :
    (snapshot.children id).Nodup :=
  h.nodup.sublist (List.filter_sublist.map _)

/-- A child descends from what its parent descends from, and from nothing else but itself. -/
theorem Orderly.descends_of_child (h : snapshot.Orderly) (hchild : snapshot.ChildOf child parent)
    (hdescends : snapshot.Descends child root) :
    child = root ∨ snapshot.Descends parent root := by
  rcases Relation.ReflTransGen.cases_head hdescends with heq | ⟨other, hother, hrest⟩
  · exact Or.inl heq
  · rw [h.parent_unique hchild hother]
    exact Or.inr hrest

/-- A process does not descend from its children. -/
theorem Orderly.not_descends_child (h : snapshot.Orderly)
    (hchild : snapshot.ChildOf child parent) : ¬ snapshot.Descends parent child :=
  fun hdescends => h.acyclic child (Relation.TransGen.head' hchild hdescends)

/-! ## Unrelated processes -/

/-- No process of a list descends from another one of it, and each is listed once. -/
def Unrelated (snapshot : ProcessSnapshot) (pending : List ProcessId) : Prop :=
  pending.Pairwise fun a b => ¬ snapshot.Descends a b ∧ ¬ snapshot.Descends b a

/-- The children of a process are unrelated. -/
theorem Orderly.unrelated_children (h : snapshot.Orderly) (id : ProcessId) :
    snapshot.Unrelated (snapshot.children id) := by
  have hnot {a b : ProcessId} (ha : snapshot.ChildOf a id) (hb : snapshot.ChildOf b id)
      (hne : a ≠ b) : ¬ snapshot.Descends a b := by
    intro hdescends
    rcases h.descends_of_child ha hdescends with heq | hparent
    · exact hne heq
    · exact h.not_descends_child hb hparent
  refine (h.nodup_children id).imp_of_mem fun ha hb hne => ?_
  exact ⟨hnot ha hb hne, hnot hb ha (Ne.symm hne)⟩

/-- Pending processes stay unrelated when one of them gives way to its children. -/
theorem Orderly.unrelated_step (h : snapshot.Orderly)
    (hpending : snapshot.Unrelated (id :: pending)) :
    snapshot.Unrelated ((snapshot.children id).reverse ++ pending) := by
  obtain ⟨hid, hrest⟩ := List.pairwise_cons.mp hpending
  refine List.pairwise_append.mpr ⟨?_, hrest, fun child hchild other hother => ?_⟩
  · exact List.pairwise_reverse.mpr ((h.unrelated_children id).imp And.symm)
  · have hchildOf : snapshot.ChildOf child id := List.mem_reverse.mp hchild
    obtain ⟨hnot, hnot'⟩ := hid other hother
    constructor
    · intro hdescends
      rcases h.descends_of_child hchildOf hdescends with rfl | hparent
      · exact hnot' (Relation.ReflTransGen.single hchildOf)
      · exact hnot hparent
    · intro hdescends
      exact hnot' (hdescends.tail hchildOf)

/-! ## What is left to be met -/

open Classical in
/-- The processes of the snapshot that descend from one that is pending. -/
noncomputable def below (snapshot : ProcessSnapshot) (pending : List ProcessId) :
    Finset ProcessId :=
  snapshot.ids.toFinset.filter fun id => ∃ root ∈ pending, snapshot.Descends id root

theorem mem_below :
    id ∈ snapshot.below pending ↔
      id ∈ snapshot.ids ∧ ∃ root ∈ pending, snapshot.Descends id root := by
  simp [below]

/-- There are no more of them than processes in the snapshot. -/
theorem card_below_le (snapshot : ProcessSnapshot) (pending : List ProcessId) :
    (snapshot.below pending).card ≤ List.length snapshot := by
  classical
  calc (snapshot.below pending).card
      ≤ snapshot.ids.toFinset.card := Finset.card_filter_le _ _
    _ ≤ snapshot.ids.length := List.toFinset_card_le _
    _ = List.length snapshot := List.length_map _

/-- What descends from a process is the process itself or descends from one of its children. -/
theorem descends_iff_children :
    snapshot.Descends id root ↔
      id = root ∨ ∃ child ∈ snapshot.children root, snapshot.Descends id child := by
  constructor
  · intro hdescends
    rcases Relation.ReflTransGen.cases_tail hdescends with heq | ⟨child, hrest, hchild⟩
    · exact Or.inl heq.symm
    · exact Or.inr ⟨child, hchild, hrest⟩
  · rintro (rfl | ⟨child, hchild, hrest⟩)
    · exact Relation.ReflTransGen.refl
    · exact hrest.tail hchild

/-- A step of the walk takes one process away from what is left. -/
theorem Orderly.below_cons (h : snapshot.Orderly) (hid : id ∈ snapshot.ids)
    (hpending : snapshot.Unrelated (id :: pending)) :
    id ∉ snapshot.below ((snapshot.children id).reverse ++ pending) ∧
      snapshot.below (id :: pending)
        = insert id (snapshot.below ((snapshot.children id).reverse ++ pending)) := by
  obtain ⟨hunrelated, -⟩ := List.pairwise_cons.mp hpending
  constructor
  · intro hmem
    obtain ⟨-, root, hroot, hdescends⟩ := mem_below.mp hmem
    rcases List.mem_append.mp hroot with hchild | hother
    · exact h.not_descends_child (List.mem_reverse.mp hchild) hdescends
    · exact (hunrelated root hother).1 hdescends
  · ext other
    rw [Finset.mem_insert, mem_below, mem_below]
    constructor
    · rintro ⟨hlisted, root, hroot, hdescends⟩
      rcases List.mem_cons.mp hroot with rfl | hother
      · rcases descends_iff_children.mp hdescends with heq | ⟨child, hchild, hrest⟩
        · exact Or.inl heq
        · exact Or.inr ⟨hlisted, child,
            List.mem_append_left _ (List.mem_reverse.mpr hchild), hrest⟩
      · exact Or.inr ⟨hlisted, root, List.mem_append_right _ hother, hdescends⟩
    · rintro (rfl | ⟨hlisted, root, hroot, hdescends⟩)
      · exact ⟨hid, other, List.mem_cons_self, .refl⟩
      · refine ⟨hlisted, ?_⟩
        rcases List.mem_append.mp hroot with hchild | hother
        · exact ⟨id, List.mem_cons_self,
            descends_iff_children.mpr (Or.inr ⟨root, List.mem_reverse.mp hchild, hdescends⟩)⟩
        · exact ⟨root, List.mem_cons_of_mem _ hother, hdescends⟩

/-! ## The walk -/

/-- A walk that has come to its end needs no more steps. -/
theorem walk_of_le {fuel more : Nat} {met : List ProcessId}
    (hwalk : snapshot.walk fuel pending = some met) (hle : fuel ≤ more) :
    snapshot.walk more pending = some met := by
  induction fuel generalizing pending more met with
  | zero =>
    cases pending with
    | nil => simpa using hwalk
    | cons id pending => simp [walk] at hwalk
  | succ fuel ih =>
    obtain ⟨more, rfl⟩ := Nat.exists_eq_add_of_lt (Nat.lt_of_succ_le hle)
    have hle : fuel ≤ fuel + more := Nat.le_add_right _ _
    cases pending with
    | nil => simpa using hwalk
    | cons id pending =>
      cases hfound : snapshot.find? id with
      | none =>
        rw [walk_cons_of_missing hfound] at hwalk ⊢
        exact ih hwalk hle
      | some p =>
        rw [walk_cons_of_found hfound, Option.map_eq_some_iff] at hwalk ⊢
        obtain ⟨rest, hrest, rfl⟩ := hwalk
        exact ⟨rest, ih hrest hle, rfl⟩

/-- A walk that begins at unrelated processes comes to its end within as many steps as there is
left to be met, and meets just that, each process once. -/
theorem Orderly.exists_walk (h : snapshot.Orderly) {fuel : Nat}
    (hids : pending ⊆ snapshot.ids) (hpending : snapshot.Unrelated pending)
    (hfuel : (snapshot.below pending).card ≤ fuel) :
    ∃ met, snapshot.walk fuel pending = some met ∧ met.Nodup ∧
      ∀ id, id ∈ met ↔ id ∈ snapshot.below pending := by
  induction fuel generalizing pending with
  | zero =>
    cases pending with
    | nil => exact ⟨[], rfl, List.nodup_nil, fun id => by simp [mem_below]⟩
    | cons id pending =>
      have hmem : id ∈ snapshot.below (id :: pending) :=
        mem_below.mpr ⟨hids List.mem_cons_self, id, List.mem_cons_self, .refl⟩
      exact absurd (Finset.card_pos.mpr ⟨id, hmem⟩) (Nat.not_lt.mpr hfuel)
  | succ fuel ih =>
    cases pending with
    | nil => exact ⟨[], rfl, List.nodup_nil, fun id => by simp [mem_below]⟩
    | cons id pending =>
      have hid : id ∈ snapshot.ids := hids List.mem_cons_self
      obtain ⟨hfresh, hbelow⟩ := h.below_cons hid hpending
      obtain ⟨p, hfound⟩ : ∃ p, snapshot.find? id = some p :=
        Option.ne_none_iff_exists'.mp fun hnone => find?_eq_none_iff.mp hnone hid
      have hnextIds : (snapshot.children id).reverse ++ pending ⊆ snapshot.ids := by
        refine List.append_subset.mpr ⟨fun child hchild => ?_, fun other hother => ?_⟩
        · exact children_subset_ids id (List.mem_reverse.mp hchild)
        · exact hids (List.mem_cons_of_mem _ hother)
      have hnextFuel :
          (snapshot.below ((snapshot.children id).reverse ++ pending)).card ≤ fuel := by
        rw [hbelow, Finset.card_insert_of_notMem hfresh] at hfuel
        exact Nat.le_of_succ_le_succ hfuel
      obtain ⟨met, hwalk, hnodup, hmet⟩ := ih hnextIds (h.unrelated_step hpending) hnextFuel
      refine ⟨id :: met, ?_, List.nodup_cons.mpr ⟨?_, hnodup⟩, fun other => ?_⟩
      · rw [walk_cons_of_found hfound, hwalk, Option.map_some]
      · rwa [hmet]
      · rw [hbelow, Finset.mem_insert, List.mem_cons, hmet]

/-- The walk from a process comes to its end with one step more than there are processes, whether
the process is in the snapshot or not, and meets the processes that descend from it. -/
theorem Orderly.exists_walk_root (h : snapshot.Orderly) (root : ProcessId) :
    ∃ met, snapshot.walk (List.length snapshot + 1) [root] = some met ∧ met.Nodup ∧
      ∀ id, id ∈ met ↔ root ∈ snapshot.ids ∧ snapshot.Descends id root := by
  by_cases hroot : root ∈ snapshot.ids
  · obtain ⟨met, hwalk, hnodup, hmet⟩ := h.exists_walk
      (List.cons_subset.mpr ⟨hroot, List.nil_subset _⟩) (List.pairwise_singleton _ _)
      ((snapshot.card_below_le [root]).trans (Nat.le_succ _))
    refine ⟨met, hwalk, hnodup, fun id => ?_⟩
    rw [hmet, mem_below]
    simp only [List.mem_singleton, exists_eq_left, hroot, true_and]
    exact ⟨And.right, fun hdescends => ⟨hdescends.mem_ids hroot, hdescends⟩⟩
  · refine ⟨[], ?_, List.nodup_nil, fun id => by simp [hroot]⟩
    rw [walk_cons_of_missing (find?_eq_none_iff.mpr hroot), walk_nil]

/-! ## Memory -/

/-- The records of some processes that are listed once each are those of the snapshot with their
numbers. -/
theorem Orderly.perm_filterMap (h : snapshot.Orderly) {met : List ProcessId}
    (hnodup : met.Nodup) :
    (met.filterMap snapshot.find?).Perm (List.filter (fun p => decide (p.id ∈ met)) snapshot) := by
  have hrecords : List.Nodup snapshot := h.nodup.of_map
  refine (List.perm_ext_iff_of_nodup ?_ (hrecords.filter _)).mpr fun p => ?_
  · refine hnodup.filterMap fun a b p ha hb => ?_
    exact (mem_of_find? ha).2.symm.trans (mem_of_find? hb).2
  · simp only [List.mem_filterMap, h.find?_eq_some_iff, List.mem_filter, decide_eq_true_eq]
    constructor
    · rintro ⟨id, hid, hp, rfl⟩
      exact ⟨hp, hid⟩
    · rintro ⟨hp, hid⟩
      exact ⟨p.id, hid, hp, rfl⟩

/-- In a snapshot that lists each process once and in which none is its own ancestor, the walk
through the tree of any process comes to its end. It lists nothing if the process is not in the
snapshot, else the process and all that reach it by a chain of parents, each once; and the memory
of the tree is the sum over these. -/
theorem Orderly.tree_descendants (h : snapshot.Orderly) (root : ProcessId) :
    (∀ fuel, List.length snapshot < fuel →
      snapshot.walk fuel [root] = some (snapshot.tree root)) ∧
    (root ∉ snapshot.ids → snapshot.tree root = []) ∧
    (snapshot.tree root).Nodup ∧
    (∀ id, id ∈ snapshot.tree root ↔ root ∈ snapshot.ids ∧ snapshot.Descends id root) ∧
    snapshot.treeMemory root
      = ((List.filter (fun p => decide (p.id ∈ snapshot.tree root)) snapshot).map
          (·.memory)).sum := by
  obtain ⟨met, hwalk, hnodup, hmet⟩ := h.exists_walk_root root
  have htree : snapshot.tree root = met := by rw [tree, hwalk, Option.getD_some]
  rw [htree]
  refine ⟨fun fuel hfuel => ?_, fun hroot => ?_, hnodup, hmet, ?_⟩
  · exact walk_of_le hwalk hfuel
  · exact List.eq_nil_iff_forall_not_mem.mpr fun id hid => hroot ((hmet id).mp hid).1
  · rw [treeMemory, htree, ← List.foldl_map, ← List.sum_eq_foldl]
    exact ((h.perm_filterMap hnodup).map _).sum_eq

/-- Where every process has a larger number than its parent, none is its own ancestor. -/
theorem orderly_of_parent_lt (hnodup : snapshot.ids.Nodup)
    (hlt : ∀ p ∈ snapshot, ∀ parent ∈ p.parent, parent < p.id) : snapshot.Orderly := by
  have hchild {child parent : ProcessId} (h : snapshot.ChildOf child parent) : parent < child := by
    obtain ⟨p, hp, hparent, rfl⟩ := childOf_iff.mp h
    exact hlt p hp parent hparent
  have hancestor {id ancestor : ProcessId} (h : Relation.TransGen snapshot.ChildOf id ancestor) :
      ancestor < id := by
    induction h with
    | single h => exact hchild h
    | tail _ h ih => exact (hchild h).trans ih
  exact ⟨hnodup, fun id hcycle => lt_irrefl id (hancestor hcycle)⟩

/-- A solver with two processes below it and one below these, next to a process whose parent is
gone. -/
def solverFamily : ProcessSnapshot :=
  [⟨1, none, 100⟩, ⟨7, some 1, 30⟩, ⟨8, some 7, 20⟩, ⟨9, some 7, 5⟩, ⟨11, some 8, 2⟩,
    ⟨12, some 4, 50⟩]

/-- The solver and the three processes below it are in its tree, the others are not. -/
theorem tree_descendants_solverFamily :
    solverFamily.Orderly ∧ solverFamily.tree 7 = [7, 9, 8, 11] ∧
      solverFamily.treeMemory 7 = 57 ∧
      ∀ id, id ∈ solverFamily.tree 7 ↔ solverFamily.Descends id 7 := by
  have horderly : solverFamily.Orderly := orderly_of_parent_lt (by decide) (by decide)
  obtain ⟨-, -, -, hmem, -⟩ := Orderly.tree_descendants horderly 7
  have hroot : 7 ∈ solverFamily.ids := by decide
  exact ⟨horderly, by decide, by decide, fun id => (hmem id).trans (and_iff_right hroot)⟩

end ProcessSnapshot

end SolverPortfolio
