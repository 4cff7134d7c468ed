import Macc.Text.Hex
import Macc.Value

/-!
# Writing TOML

Documents are written in one spelling: strings in double quotes with escapes for
what may not stand in them, reals with the digits that read back, one key a line.
-/

namespace Macc.Toml

def stringChar (c : Char) : List Char :=
  if c == '"' || c == '\\' then ['\\', c]
  else if c == '\n' then ['\\', 'n']
  else if c == '\t' then ['\\', 't']
  else if c == '\r' then ['\\', 'r']
  else if c.toNat == 8 then ['\\', 'b']
  else if c.toNat == 12 then ['\\', 'f']
  else if c.toNat < 32 || c.toNat == 127 then '\\' :: 'u' :: Text.hex 4 c.toNat
  else [c]

def writeString (s : String) : String :=
  String.ofList ('"' :: s.toList.flatMap stringChar ++ ['"'])

mutual

def writeValue : Value → String
  | .null => writeString ""
  | .bool b => if b then "true" else "false"
  | .int n => toString n
  | .float x => Decimal.floatText x
  | .text s => writeString s
  | .list items => "[" ++ ", ".intercalate (writeItems items) ++ "]"
  | .table entries => "\x7b" ++ ", ".intercalate (writePairs entries) ++ "\x7d"
  | .date d => d.text
  | .time t => t.text
  | .moment m => m.text

def writeItems : List Value → List String
  | [] => []
  | v :: rest => writeValue v :: writeItems rest

/-- The pairs of a table written as a value. The keys are bare. -/
def writePairs : List (String × Value) → List String
  | [] => []
  | (k, v) :: rest => (k ++ " = " ++ writeValue v) :: writePairs rest

end

def writeLine (key : String) (v : Value) : String :=
  key ++ " = " ++ writeValue v ++ "\n"

def writeArray (key : String) (items : List Value) : String :=
  if items.isEmpty then key ++ " = []\n"
  else
    key ++ " = [\n" ++ String.join (items.map fun v => "    " ++ writeValue v ++ ",\n") ++ "]\n"

/-- The header of one more table in an array of tables. -/
def writeHeader (key : String) : String :=
  "[[" ++ key ++ "]]\n"

end Macc.Toml
