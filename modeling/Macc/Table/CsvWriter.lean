/-!
# Writing comma-separated records

A cell is written as it is, unless it holds a comma, a double quote or a line
feed. Then it stands between double quotes, and those inside are doubled.
-/

namespace Macc.Csv

def needsQuotes (cell : String) : Bool :=
  cell.toList.any fun c => c == ',' || c == '"' || c == '\n'

def writeCell (cell : String) : String :=
  if needsQuotes cell then
    let doubled := cell.toList.flatMap fun c => if c == '"' then ['"', '"'] else [c]
    String.ofList ('"' :: doubled ++ ['"'])
  else cell

def writeRecord (cells : List String) : String :=
  ",".intercalate (cells.map writeCell) ++ "\n"

end Macc.Csv
