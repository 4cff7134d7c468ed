import Macc.Catalogue.Points
import Macc.Reduction.Fields
import Macc.Reduction.Report
import Macc.Toml.Loading

/-!
# Reading catalogues

A catalogue is a document with an array of tables `mac`, one strategy each; a
single table counts as an array of one. An entry names its gas and, if it has
one, its sector; its other keys are the fields of the strategy, except that
`points_file` names a table file whose points are added behind those of the
entry itself.

An entry with the gas and sector of an earlier one replaces it as a whole, in its
place, which is reported. The first entry that cannot be read ends the reading.
-/

namespace Macc.Catalogue

def tableKey : String := "mac"

/-- The keys of an entry that are no fields of its strategy. -/
def entryKeys : List String := ["gas", "sector", "points_file"]

/-- What an entry holds under a key, as a name; empty where it holds nothing. -/
def nameOf (entry : List (String × Value)) (key : String) : Except Failure String :=
  match Entries.get? entry key with
  | none => .ok ""
  | some v => do return Text.trim (← v.toText)

/-- The gas and the sector of an entry. The gas is checked before the sector is looked at. -/
def sourceOf (entry : List (String × Value)) (position : Nat) (path : Path) :
    Except Failure SourceKey := do
  let gas ← nameOf entry "gas"
  if gas.isEmpty then throw (.entryWithoutGas position path.text)
  else return ⟨gas, ← nameOf entry "sector"⟩

/-- The path of an entry's table of points, which is seen from the document. -/
def pointsPath? (entry : List (String × Value)) (path : Path) : Except Failure (Option Path) :=
  match Entries.get? entry "points_file" with
  | none => .ok none
  | some v =>
    if v.isPresent then
      match v with
      | .text s => .ok (some (path.parent.join (Path.parse s)))
      | _ => .error (.notPath v.kind)
    else .ok none

def pointsValue (points : List (Float × Float)) : Value :=
  .list (points.map fun p => .list [.float p.1, .float p.2])

/-- The fields of an entry's strategy, with those of its table of points at the end. -/
def fieldsOf (files : FileTree) (entry : List (String × Value)) (path : Path) :
    Attempt (List (String × Value)) := do
  let own := entry.filter fun e => !entryKeys.contains e.1
  match ← Attempt.ofExcept (pointsPath? entry path) with
  | none => return own
  | some file =>
    let points ← Points.load files file
    return own ++ [(reductionField, pointsValue points)]

def readEntry (files : FileTree) (h : Horizon) (path : Path) (catalogue : Catalogue Float)
    (item : Value × Nat) : Attempt (Catalogue Float) := do
  match item.1 with
  | .table entry =>
    let key ← Attempt.ofExcept (sourceOf entry item.2 path)
    if Entries.has catalogue key then
      report (.repeatedEntry key.gas key.sector path.text)
    let fields ← fieldsOf files entry path
    let strategy ← (Strategy.fresh h key.label).parseTable fields
    return Entries.put catalogue key strategy
  | _ => throw (.entryNotTable item.2 path.text)

def itemsOf (document : List (String × Value)) (path : Path) : Except Failure (List Value) :=
  match Entries.get? document tableKey with
  | none => .ok []
  | some (.table entry) => .ok [.table entry]
  | some (.list items) => .ok items
  | some _ => .error (.notEntries path.text)

def ofDocument (files : FileTree) (h : Horizon) (path : Path) (document : List (String × Value)) :
    Attempt (Catalogue Float) := do
  let items ← Attempt.ofExcept (itemsOf document path)
  let catalogue ← items.zipIdx.foldlM (readEntry files h path) []
  report (.loaded catalogue.length path.text)
  return catalogue

def load (files : FileTree) (h : Horizon) (path : Path) : Attempt (Catalogue Float) := do
  if ← Attempt.ofExcept (files.pathExists path) then
    let document ← Attempt.ofExcept (Toml.load files path (.catalogueUnreadable path.text))
    ofDocument files h path document
  else throw (.catalogueMissing path.text)

/-- The tables of points that a catalogue refers to, as far as the catalogue can be read. -/
def pointsPaths (files : FileTree) (path : Path) : List Path :=
  let items := do
    let document ← Toml.load files path (.catalogueUnreadable path.text)
    itemsOf document path
  (items.toOption.getD []).filterMap fun item =>
    match item with
    | .table entry => (pointsPath? entry path).toOption.join
    | _ => none

end Macc.Catalogue
