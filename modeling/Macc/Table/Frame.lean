import Macc.FileTree
import Macc.Table.Column
import Macc.Table.Csv

/-!
# Tables with named columns

A frame is a list of columns with names. It is made from the text of a table
file, whose header names the columns, or from columns given as values. Of equal
names in a header only the first one stays as it is; the others are numbered, so
that they are found under no name that is asked for.
-/

namespace Macc

structure Frame where
  columns : List (String × Column)

namespace Frame

def column? (f : Frame) (name : String) : Option Column :=
  (f.columns.find? fun c => c.1 == name).map (·.2)

/-- Which of some names no column has, in alphabetical order. -/
def missing (f : Frame) (names : List String) : List String :=
  (names.filter fun n => (f.column? n).isNone).mergeSort

def rename (f : Frame) (g : String → String) : Frame :=
  ⟨f.columns.map fun c => (g c.1, c.2)⟩

/-- The names of a header; a name that came before gets the number of times it did. -/
def headerNames (header : List String) : List String :=
  header.zipIdx.map fun (name, k) =>
    match (header.take k).count name with
    | 0 => name
    | earlier => name ++ "." ++ natText earlier

def ofRecords (header : List String) (rows : List (List String)) : Frame :=
  ⟨(headerNames header).zipIdx.map fun (name, k) =>
    (name, Column.ofCells (rows.map fun row => row[k]?.getD ""))⟩

/-- The frame that the text of a table file describes. -/
def ofText (text : String) : Except Failure Frame := do
  let records ← Csv.records text
  let (header, rows) ← Csv.headerAndRows records
  return ofRecords header rows

/-- The frame that the bytes of a table file describe. -/
def ofBytes (bytes : ByteArray) : Except Failure Frame :=
  match String.fromUTF8? bytes with
  | some text => ofText text
  | none => .error .notUtf8

/-- The frame of columns given as values, which must have one length. -/
def ofColumns (columns : List (String × List Value)) : Except Failure Frame :=
  match columns with
  | [] => .ok ⟨[]⟩
  | (_, first) :: rest =>
    if rest.all fun c => c.2.length == first.length then
      .ok ⟨columns.map fun c => (c.1, Column.ofValues c.2)⟩
    else .error .raggedColumns

/-- The frame of a table file, or `absent` when nothing is at its path. -/
def load (files : FileTree) (path : Path) (absent : Failure) : Except Failure Frame := do
  if ← files.pathExists path then
    let bytes ← files.read path
    ofBytes bytes
  else throw absent

end Frame

end Macc
