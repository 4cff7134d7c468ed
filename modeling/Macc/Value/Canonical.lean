import Macc.Text.Hex
import Macc.Value

/-!
# The canonical text of a value

Two values that differ only in the order of keys have one canonical text, and
values that differ in anything else have different ones, so that a digest of the
text identifies the value. Keys ascend, nothing stands between the signs, and
the text is plain ASCII: what lies outside is written in units of sixteen bits.

Dates have no form of their own here; they are written as the texts that show
them.
-/

namespace Macc

namespace Text

def escapedUnit (n : Nat) : List Char :=
  '\\' :: 'u' :: hex 4 n

/-- The escape of a code point: one unit, or the two that stand for a code point above them. -/
def escapedPoint (n : Nat) : List Char :=
  if n < 0x10000 then escapedUnit n
  else
    let above := n - 0x10000
    escapedUnit (0xd800 + above / 0x400) ++ escapedUnit (0xdc00 + above % 0x400)

/-- How one character is written in a canonical text. -/
def canonicalChar (c : Char) : List Char :=
  if c == '"' || c == '\\' then ['\\', c]
  else if c == '\n' then ['\\', 'n']
  else if c == '\r' then ['\\', 'r']
  else if c == '\t' then ['\\', 't']
  else if c.toNat = 12 then ['\\', 'f']
  else if c.toNat = 8 then ['\\', 'b']
  else if 32 ≤ c.toNat && c.toNat < 127 then [c]
  else escapedPoint c.toNat

def canonical (s : String) : String :=
  String.ofList ('"' :: s.toList.flatMap canonicalChar ++ ['"'])

end Text

namespace Value

def canonicalFloat (x : Float) : String :=
  match Binary64.ofFloat x with
  | .nan => "NaN"
  | .infinite negative => if negative then "-Infinity" else "Infinity"
  | exact => Decimal.textOf exact

/-- The canonical text of entries whose values are already written. -/
def canonicalEntries (entries : List (String × String)) : String :=
  let sorted := entries.mergeSort fun a b => a.1 ≤ b.1
  "\x7b" ++ ",".intercalate (sorted.map fun e => Text.canonical e.1 ++ ":" ++ e.2) ++ "\x7d"

mutual

def canonical : Value → String
  | .null => "null"
  | .bool true => "true"
  | .bool false => "false"
  | .int n => toString n
  | .float x => canonicalFloat x
  | .text s => Text.canonical s
  | .list items => "[" ++ ",".intercalate (canonicalItems items) ++ "]"
  | .table entries => canonicalEntries (canonicalPairs entries)
  | .date d => Text.canonical d.text
  | .time t => Text.canonical t.text
  | .moment m => Text.canonical m.text

def canonicalItems : List Value → List String
  | [] => []
  | v :: rest => canonical v :: canonicalItems rest

/-- The keys of a table with the canonical texts of their values. -/
def canonicalPairs : List (String × Value) → List (String × String)
  | [] => []
  | (key, v) :: rest => (key, canonical v) :: canonicalPairs rest

end

end Value

end Macc
