import SolverPortfolio.Quantity
import SolverPortfolio.Text.Integer

/-
# Memory limits

Each solver may use a percentage of the memory, whose size in MiB can be set by
a text. Sizes are counted in bytes and fit into 64 bits.

Main definitions: `MemoryLimit`, `MemoryLimit.bytes`.
-/

namespace SolverPortfolio

/-- The memory that counts as available, in bytes, and the percentage of it that a solver may
use. -/
structure MemoryLimit where
  total : Nat
  percent : Float

namespace MemoryLimit

/-- The bytes of a MiB. -/
def bytesPerMiB : Nat := Nat.pow 2 20

/-- The bytes of a number of MiB, in 64 bits. -/
def bytesOfMiB (mib : Nat) : Nat := mib * bytesPerMiB % Nat.pow 2 64

/-- The available memory: the number of MiB in a setting if there is one that can be read, else the
memory of the machine. -/
def available (setting : Option (List Char)) (machine : Nat) : Nat :=
  match setting.bind (Text.readNat? (Nat.pow 2 64 - 1)) with
  | some mib => bytesOfMiB mib
  | none => machine

/-- The bytes that one solver may use, rounded down. -/
def bytes (limit : MemoryLimit) : Nat :=
  (Number.ofRatio limit.total 1 * Quantity.clamp 0 100 limit.percent / 100).toUInt64.toNat

/-- Sizes fit into 64 bits. -/
theorem bytesOfMiB_lt (mib : Nat) : bytesOfMiB mib < Nat.pow 2 64 :=
  Nat.mod_lt _ (by decide)

/-- Is a usage above the limit? -/
def exceededBy (limit : MemoryLimit) (usage : Nat) : Bool := decide (limit.bytes < usage)

end MemoryLimit

end SolverPortfolio
