import Macc.Text.Hex
import Macc.Text.Printable

/-!
# Quoted text

Messages show a text between quotes so that its ends and its invisible
characters can be seen. The single quote is the usual one; the double quote is
taken when the text holds single quotes and no double ones, so that fewer
characters need a backslash.
-/

namespace Macc.Text

/-- The apostrophe, which is also the usual quote. -/
def apostrophe : Char := Char.ofNat 39

def quoteFor (cs : List Char) : Char :=
  if cs.contains apostrophe && !cs.contains '"' then '"' else apostrophe

/-- How one character is written between quotes of the kind `quote`. -/
def escapeChar (quote c : Char) : List Char :=
  let n := c.toNat
  if c == quote || c == '\\' then ['\\', c]
  else if c == '\t' then ['\\', 't']
  else if c == '\n' then ['\\', 'n']
  else if c == '\r' then ['\\', 'r']
  else if isPrintable c then [c]
  else if n < 0x100 then '\\' :: 'x' :: hex 2 n
  else if n < 0x10000 then '\\' :: 'u' :: hex 4 n
  else '\\' :: 'U' :: hex 8 n

def quoted (s : String) : String :=
  let quote := quoteFor s.toList
  String.ofList (quote :: s.toList.flatMap (escapeChar quote) ++ [quote])

end Macc.Text
