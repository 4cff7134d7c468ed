import Macc.Logged
import Macc.Table.Frame
import Macc.Text.Upper

/-!
# Control points in table files

The points of a curve may stand in a table with the columns `tax` and
`reduction`, whose names are compared without blanks and case. A row in which
one of the two is no number is dropped; how many were is reported.
-/

namespace Macc.Points

def requiredColumns : List String := ["tax", "reduction"]

/-- The only column with a name; several are refused. -/
def onlyColumn (frame : Frame) (name : String) : Except Failure Column :=
  match frame.columns.filter fun c => c.1 == name with
  | [c] => .ok c.2
  | _ => .error .repeatedColumn

def ofFrame (frame : Frame) (path : Path) : Attempt (List (Float × Float)) := do
  let plain := frame.rename fun name => Text.lowerAscii (Text.trim name)
  let missing := plain.missing requiredColumns
  if !missing.isEmpty then throw (.pointsColumns path.name missing)
  let tax ← Attempt.ofExcept (onlyColumn plain "tax")
  let reduction ← Attempt.ofExcept (onlyColumn plain "reduction")
  let rows := tax.numbers.zip reduction.numbers
  let complete := rows.filter fun r => !r.1.isMissing && !r.2.isMissing
  let dropped := rows.length - complete.length
  if dropped ≠ 0 then report (.droppedPoints dropped path.text)
  return complete.map fun r => (r.1.toReal, r.2.toReal)

def load (files : FileTree) (path : Path) : Attempt (List (Float × Float)) := do
  let frame ← Attempt.ofExcept (Frame.load files path (.pointsFileMissing path.text))
  ofFrame frame path

end Macc.Points
