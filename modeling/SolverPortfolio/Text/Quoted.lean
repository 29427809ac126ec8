import SolverPortfolio.Text.Unseen

/-
# Quoted texts

A text is quoted between double quotes. Quotes and backslashes get a backslash
in front, and characters that would not be seen are written by their code in
hexadecimal.

Main definitions: `quote`.
-/

namespace SolverPortfolio.Text

/-- A character inside quotes. -/
def quoteChar (c : Char) : List Char :=
  if c = '"' ∨ c = '\\' then ['\\', c]
  else if c = '\n' then ['\\', 'n']
  else if c = '\r' then ['\\', 'r']
  else if c = '\t' then ['\\', 't']
  else if c.toNat = 0 then ['\\', '0']
  else if isUnseen c then ['\\', 'u', '\x7b'] ++ Nat.toDigits 16 c.toNat ++ ['\x7d']
  else [c]

/-- A text between double quotes. -/
def quote (s : String) : String :=
  String.ofList (['"'] ++ s.toList.flatMap quoteChar ++ ['"'])

end SolverPortfolio.Text
