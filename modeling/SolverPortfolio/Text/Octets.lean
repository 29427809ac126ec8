import SolverPortfolio.Text.Basic
import SolverPortfolio.Text.Utf8

/-
# Octets

Programs that do not care for characters take a text as its bytes. A byte is
written as the character with the same number, so that such texts are cut and
compared like all others.

Main definitions: `Octets`, `Octets.ofString`, `Octets.toBytes`, `Octets.toText`.
-/

namespace SolverPortfolio

/-- A list of bytes, each written as the character with the same number. -/
abbrev Octets := List Char

namespace Octets

/-- A list of bytes as octets. -/
def ofBytes (bytes : ByteArray) : Octets := bytes.toList.map fun b => Char.ofNat b.toNat

/-- The bytes of a text. -/
def ofString (s : String) : Octets := ofBytes s.toUTF8

/-- The bytes that octets stand for. -/
def toBytes (o : Octets) : ByteArray := ⟨(o.map fun c => c.toNat.toUInt8).toArray⟩

/-- The text that octets make up, with unknown characters for what is no text. -/
def toText (o : Octets) : String := Text.readUtf8Lossy (toBytes o).toList

/-- The lines of octets, without their line feeds. What follows the last line feed is a line if
it is not empty. -/
def lines (o : Octets) : List Octets :=
  let pieces := Text.splitOn '\n' o
  if pieces.getLast? = some [] then pieces.dropLast else pieces

/-- Octets with a line feed after each line. -/
def unlines (ls : List Octets) : Octets := ls.flatMap (· ++ ['\n'])

end Octets

end SolverPortfolio
