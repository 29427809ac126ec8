/-
# UTF-8

Reading bytes as characters. Bytes that are no part of a character are read as
one unknown character for each longest beginning of a character that they form.

Main definitions: `decode`, `readUtf8?`, `readUtf8Lossy`, `Utf8Fault`, `readUtf8`.
-/

namespace SolverPortfolio.Text

/-- How a character begins: the number of bytes that follow, the value of the first byte, and the
range of the second one. -/
def utf8Lead? (b : Nat) : Option (Nat × Nat × Nat × Nat) :=
  if b < 0x80 then some (0, b, 0, 0)
  else if b < 0xC2 then none
  else if b < 0xE0 then some (1, b - 0xC0, 0x80, 0xBF)
  else if b < 0xF0 then
    some (2, b - 0xE0, if b = 0xE0 then 0xA0 else 0x80, if b = 0xED then 0x9F else 0xBF)
  else if b < 0xF5 then
    some (3, b - 0xF0, if b = 0xF0 then 0x90 else 0x80, if b = 0xF4 then 0x8F else 0xBF)
  else none

/-- A character of which `missing` more bytes are needed, the next one from `low` to `high`. -/
structure Utf8Pending where
  missing : Nat
  value : Nat
  low : Nat
  high : Nat

/-- Reads a byte at the begin of a character. -/
def utf8Begin (b : Nat) : Option Utf8Pending × List (Option Char) :=
  match utf8Lead? b with
  | none => (none, [none])
  | some (0, v, _, _) => (none, [some (Char.ofNat v)])
  | some (missing, v, low, high) => (some ⟨missing, v, low, high⟩, [])

/-- Reads a byte after the begin of a character. -/
def utf8Continue (p : Utf8Pending) (b : Nat) : Option Utf8Pending × List (Option Char) :=
  if p.low ≤ b ∧ b ≤ p.high then
    let v := p.value * 64 + (b - 0x80)
    if p.missing ≤ 1 then (none, [some (Char.ofNat v)])
    else (some ⟨p.missing - 1, v, 0x80, 0xBF⟩, [])
  else
    let (next, read) := utf8Begin b
    (next, none :: read)

/-- Reads bytes with a character begun. -/
def decodeFrom : Option Utf8Pending → List UInt8 → List (Option Char)
  | none, [] => []
  | some _, [] => [none]
  | none, b :: rest =>
    let (next, read) := utf8Begin b.toNat
    read ++ decodeFrom next rest
  | some p, b :: rest =>
    let (next, read) := utf8Continue p b.toNat
    read ++ decodeFrom next rest

/-- Reads bytes as characters, where `none` stands for what is no character. -/
def decode (bytes : List UInt8) : List (Option Char) := decodeFrom none bytes

/-- Reads bytes that are characters throughout. -/
def readUtf8? (bytes : List UInt8) : Option String :=
  ((decode bytes).mapM id).map String.ofList

/-- Reads bytes as characters, with a replacement for what is no character. -/
def readUtf8Lossy (bytes : List UInt8) : String :=
  String.ofList ((decode bytes).map (·.getD '\uFFFD'))

/-! ## Faults -/

/-- Where bytes stop being characters. -/
inductive Utf8Fault where
  /-- `length` bytes from `index` on begin no character. -/
  | invalid (length index : Nat)
  /-- The bytes end within a character that begins at `index`. -/
  | incomplete (index : Nat)
  deriving Repr, DecidableEq

/-- The text shown for a fault. -/
def Utf8Fault.message : Utf8Fault → String
  | invalid length index => s!"invalid utf-8 sequence of {length} bytes from index {index}"
  | incomplete index => s!"incomplete utf-8 byte sequence from index {index}"

/-- Looks for a fault where a character begins at `index`, of which `read` bytes were read. -/
def faultFrom (index read : Nat) : Option Utf8Pending → List UInt8 → Option Utf8Fault
  | none, [] => none
  | some _, [] => some (.incomplete index)
  | none, b :: rest =>
    match utf8Lead? b.toNat with
    | none => some (.invalid 1 index)
    | some (0, _, _, _) => faultFrom (index + 1) 0 none rest
    | some (missing, v, low, high) => faultFrom index 1 (some ⟨missing, v, low, high⟩) rest
  | some p, b :: rest =>
    if p.low ≤ b.toNat ∧ b.toNat ≤ p.high then
      if p.missing ≤ 1 then faultFrom (index + read + 1) 0 none rest
      else faultFrom index (read + 1) (some ⟨p.missing - 1, 0, 0x80, 0xBF⟩) rest
    else some (.invalid read index)

/-- The first fault of a list of bytes. -/
def utf8Fault? (bytes : List UInt8) : Option Utf8Fault := faultFrom 0 0 none bytes

/-- Reads bytes as a text, or says where they are none. -/
def readUtf8 (bytes : List UInt8) : Except Utf8Fault String :=
  match utf8Fault? bytes with
  | some fault => .error fault
  | none => .ok (readUtf8Lossy bytes)

end SolverPortfolio.Text
