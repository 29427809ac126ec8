import SolverPortfolio.SystemError
import SolverPortfolio.Text.Basic

/-
# Paths

A path leads from the root of a disk, or from the directory one is in, through
directories to a file. It is cut into names at slashes; an empty name and a dot
stay in a directory, and two dots go to the one around it.

Main definitions: `Path`, `Path.names`.
-/

namespace SolverPortfolio

/-- The names that lead from the root to a file or directory. -/
abbrev Path := List String

namespace Path

/-- The greatest number of bytes of a name. -/
def nameLimit : Nat := 255

/-- The greatest number of bytes of a path. -/
def lengthLimit : Nat := 4095

/-- The directory that processes begin in. -/
def home : Path := ["home"]

/-- The names that a text leads through, and the directory that it leads from. A text without a
slash in front leads from the directory that one is in. -/
def names (directory : Path) (text : String) : Except SystemError (Path × List String) :=
  if text.contains '\x00' then .error .zeroInPath
  else if text.isEmpty then .error .missing
  else if lengthLimit < text.utf8ByteSize then .error .nameTooLong
  else
    let pieces := (Text.splitOn '/' text.toList).map String.ofList
    .ok (if text.startsWith "/" then [] else directory, pieces)

/-- Goes on from a path to a name. -/
def enter (path : Path) (name : String) : Path :=
  if name = "" ∨ name = "." then path
  else if name = ".." then path.dropLast
  else path ++ [name]

/-- The path that a text is, if nothing stands in its way. -/
def ofText (directory : Path) (text : String) : Path :=
  ((Text.splitOn '/' text.toList).map String.ofList).foldl enter
    (if text.startsWith "/" then [] else directory)

/-- A path as a text. -/
def toText (path : Path) : String := "/" ++ Text.joinWith "/" path

end Path

end SolverPortfolio
