/-
# Process trees

A snapshot lists the processes of a machine, each with its parent and the memory
it uses. The tree of a process is found by a walk from the parent to the
children that keeps the processes still to be looked at.

Main definitions: `ProcessSnapshot`, `ProcessSnapshot.walk`,
`ProcessSnapshot.tree`, `ProcessSnapshot.treeMemory`,
`ProcessSnapshot.treeMemoryWord`.
-/

namespace SolverPortfolio

/-- The number by which a machine knows a process. -/
abbrev ProcessId := Nat

/-- A process in a snapshot. -/
structure ProcessRecord where
  id : ProcessId
  parent : Option ProcessId
  /-- The memory in use, in bytes. -/
  memory : Nat
  deriving Repr, DecidableEq

/-- The processes of a machine, each listed once. -/
abbrev ProcessSnapshot := List ProcessRecord

namespace ProcessSnapshot

/-- The process with a given number. -/
def find? (snapshot : ProcessSnapshot) (id : ProcessId) : Option ProcessRecord :=
  List.find? (fun p => p.id == id) snapshot

/-- The processes whose parent has a given number. -/
def children (snapshot : ProcessSnapshot) (id : ProcessId) : List ProcessId :=
  (snapshot.filter fun p => p.parent == some id).map (·.id)

/-- The processes reached from the pending ones in at most `fuel` steps, or nothing if that is not
enough. The one that became pending last is looked at first. -/
def walk (snapshot : ProcessSnapshot) : Nat → List ProcessId → Option (List ProcessId)
  | _, [] => some []
  | 0, _ :: _ => none
  | fuel + 1, id :: pending =>
    match snapshot.find? id with
    | none => walk snapshot fuel pending
    | some _ =>
      (walk snapshot fuel ((snapshot.children id).reverse ++ pending)).map (id :: ·)

/-- A process and all its descendants; nothing if it is not in the snapshot. Without a process that
is its own ancestor each step looks at another process, so that one step more than there are
processes is enough. -/
def tree (snapshot : ProcessSnapshot) (root : ProcessId) : List ProcessId :=
  (walk snapshot (snapshot.length + 1) [root]).getD []

/-- A walk without pending processes is over. -/
@[simp] theorem walk_nil (snapshot : ProcessSnapshot) (fuel : Nat) :
    snapshot.walk fuel [] = some [] := by
  cases fuel <;> rfl

/-- A process that is not in the snapshot is passed over. -/
theorem walk_cons_of_missing {snapshot : ProcessSnapshot} {id : ProcessId}
    (h : snapshot.find? id = none) (fuel : Nat) (pending : List ProcessId) :
    snapshot.walk (fuel + 1) (id :: pending) = snapshot.walk fuel pending := by
  rw [walk, h]

/-- A process of the snapshot is followed by its children, then by what was pending before. -/
theorem walk_cons_of_found {snapshot : ProcessSnapshot} {id : ProcessId} {p : ProcessRecord}
    (h : snapshot.find? id = some p) (fuel : Nat) (pending : List ProcessId) :
    snapshot.walk (fuel + 1) (id :: pending)
      = (snapshot.walk fuel ((snapshot.children id).reverse ++ pending)).map (id :: ·) := by
  rw [walk, h]

/-- The tree of a process that is not in the snapshot is empty. -/
theorem tree_of_missing {snapshot : ProcessSnapshot} {root : ProcessId}
    (h : snapshot.find? root = none) : snapshot.tree root = [] := by
  simp [tree, walk_cons_of_missing h]

/-- The memory that a process and all its descendants use, in bytes. -/
def treeMemory (snapshot : ProcessSnapshot) (root : ProcessId) : Nat :=
  ((snapshot.tree root).filterMap snapshot.find?).foldl (fun total p => total + p.memory) 0

/-- The same memory, added up in words of 64 bits. -/
def treeMemoryWord (snapshot : ProcessSnapshot) (root : ProcessId) : UInt64 :=
  ((snapshot.tree root).filterMap snapshot.find?).foldl
    (fun total p => total + UInt64.ofNat p.memory) 0

/-- The sum in words is the word of the sum. -/
theorem treeMemoryWord_eq (snapshot : ProcessSnapshot) (root : ProcessId) :
    snapshot.treeMemoryWord root = UInt64.ofNat (snapshot.treeMemory root) := by
  refine List.foldl_hom UInt64.ofNat ?_
  intro total p
  exact (UInt64.ofNat_add total p.memory).symm

/-- As long as the memory is less than `2 ^ 64` bytes, words count it as it is. -/
theorem toNat_treeMemoryWord {snapshot : ProcessSnapshot} {root : ProcessId}
    (h : snapshot.treeMemory root < UInt64.size) :
    (snapshot.treeMemoryWord root).toNat = snapshot.treeMemory root := by
  rw [treeMemoryWord_eq, UInt64.toNat_ofNat', Nat.mod_eq_of_lt h]

end ProcessSnapshot

end SolverPortfolio
