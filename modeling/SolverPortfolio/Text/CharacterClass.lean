/-
# Classes of ASCII characters

The named classes of characters that patterns use, such as `alpha` and `digit`,
as ranges of characters.

Main definitions: `CharacterRange`, `classRanges?`.
-/

namespace SolverPortfolio.Text

/-- The characters from the first one to the last one. -/
abbrev CharacterRange := Char × Char

/-- Does a character lie in one of several ranges? -/
def isWithin (ranges : List CharacterRange) (c : Char) : Bool :=
  ranges.any fun (first, last) => first ≤ c && c ≤ last

/-- The classes of characters by their names. -/
def classes : List (String × List CharacterRange) :=
  [("alpha", [('A', 'Z'), ('a', 'z')]),
    ("digit", [('0', '9')]),
    ("alnum", [('0', '9'), ('A', 'Z'), ('a', 'z')]),
    ("upper", [('A', 'Z')]),
    ("lower", [('a', 'z')]),
    ("space", [('\t', '\r'), (' ', ' ')]),
    ("blank", [('\t', '\t'), (' ', ' ')]),
    ("punct", [('!', '/'), (':', '@'), ('[', '\x60'), ('\x7b', '~')]),
    ("print", [(' ', '~')]),
    ("graph", [('!', '~')]),
    ("cntrl", [('\x00', '\x1f'), ('\x7f', '\x7f')]),
    ("xdigit", [('0', '9'), ('A', 'F'), ('a', 'f')])]

/-- The ranges of the class with a given name. -/
def classRanges? (name : List Char) : Option (List CharacterRange) :=
  classes.lookup (String.ofList name)

end SolverPortfolio.Text
