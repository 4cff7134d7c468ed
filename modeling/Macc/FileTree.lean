import Macc.Entries
import Macc.Path

/-!
# Files and directories

What a run reads and writes is a tree of files and directories, held as a map
from the places in it, which are lists of names below the root. A path is
followed part by part: two points lead to the directory above, a file on the way
blocks it, and a name may have at most 255 bytes. What is found at the end is one
of a few cases, and every operation is a decision on that case.

Symbolic links, permissions and the limit on the length of a whole path are left
out: every path that is followed is one of names, and everything may be read and
added to.
-/

namespace Macc

/-- What stands at a place. -/
inductive FileNode where
  | directory
  | file (bytes : ByteArray)

/-- A place in a tree: the names on the way from the root. -/
abbrev Place := List String

/-- The files and directories, and the directory that relative paths begin at. -/
structure FileTree where
  nodes : Entries Place FileNode
  here : Place

/-- What following a path comes to. -/
inductive Located where
  | file (place : Place) (bytes : ByteArray)
  | directory (place : Place)
  /-- Nothing is there, but the directory that it would be in is. -/
  | absent (place : Place)
  /-- A directory on the way is missing. -/
  | missing
  /-- A file stands on the way. -/
  | blocked
  | nameTooLong
  | nullByte

namespace FileTree

def empty : FileTree := ⟨[], []⟩

def longestName : Nat := 255

/-- What stands at a place; the root is always a directory. -/
def at? (t : FileTree) (place : Place) : Option FileNode :=
  if place.isEmpty then some .directory else Entries.get? t.nodes place

def walk (t : FileTree) (place : Place) : List String → Located
  | [] => .directory place
  | name :: rest =>
    if name == ".." then walk t place.dropLast rest
    else if longestName < name.utf8ByteSize then .nameTooLong
    else
      let next := place ++ [name]
      match t.at? next with
      | some .directory => walk t next rest
      | some (.file bytes) => if rest.isEmpty then .file next bytes else .blocked
      | none => if rest.isEmpty then .absent next else .missing

/-- The place that a path leads to when every directory on the way is there. -/
def placeOf (t : FileTree) (p : Path) : Place :=
  p.parts.foldl (fun place name => if name == ".." then place.dropLast else place ++ [name])
    (if p.isAbsolute then [] else t.here)

def put (t : FileTree) (place : Place) (node : FileNode) : FileTree :=
  { t with nodes := Entries.put t.nodes place node }

def locate (t : FileTree) (p : Path) : Located :=
  if p.parts.any fun part => part.toList.contains (Char.ofNat 0) then .nullByte
  else t.walk (if p.isAbsolute then [] else t.here) p.parts

/-- Whether something stands at the end of a path. A name that is too long has no answer. -/
def pathExists (t : FileTree) (p : Path) : Except Failure Bool :=
  match t.locate p with
  | .file .. | .directory _ => .ok true
  | .nameTooLong => .error (.nameTooLong p.text)
  | _ => .ok false

/-- Whether something is known to stand at the end of a path. -/
def surelyExists (t : FileTree) (p : Path) : Bool :=
  (t.pathExists p).toOption.getD false

def isDirectory (t : FileTree) (p : Path) : Bool :=
  match t.locate p with
  | .directory _ => true
  | _ => false

def read (t : FileTree) (p : Path) : Except Failure ByteArray :=
  match t.locate p with
  | .file _ bytes => .ok bytes
  | .directory _ => .error (.isDirectory p.text)
  | .absent _ | .missing => .error (.missingFile p.text)
  | .blocked => .error (.notDirectory p.text)
  | .nameTooLong => .error (.nameTooLong p.text)
  | .nullByte => .error .nullInPath

/-- The tree with a file written, over the one that is there. -/
def write (t : FileTree) (p : Path) (bytes : ByteArray) : Except Failure FileTree :=
  match t.locate p with
  | .file place _ | .absent place => .ok (t.put place (.file bytes))
  | .directory _ => .error (.isDirectory p.text)
  | .missing => .error (.missingFile p.text)
  | .blocked => .error (.notDirectory p.text)
  | .nameTooLong => .error (.nameTooLong p.text)
  | .nullByte => .error .nullInPath

/-- The tree with a directory made where there was nothing. -/
def makeDirectory (t : FileTree) (p : Path) : Except Failure FileTree :=
  match t.locate p with
  | .absent place => .ok (t.put place .directory)
  | .file .. | .directory _ => .error (.fileExists p.text)
  | .missing => .error (.missingFile p.text)
  | .blocked => .error (.notDirectory p.text)
  | .nameTooLong => .error (.nameTooLong p.text)
  | .nullByte => .error .nullInPath

/-- Makes a directory at the end of a path, with those above it if need be; `known` says that it may
be there. The bound is on how many directories are made. The tree is given back also when a later
step fails. -/
def ensureDirectory (known : Bool) : Nat → FileTree → Path → FileTree × Except Failure Unit
  | 0, t, p => (t, .error (.missingFile p.text))
  | bound + 1, t, p =>
    match t.makeDirectory p with
    | .ok made => (made, .ok ())
    | .error failure =>
      match failure.kind with
      | .missingFile =>
        if p.parts.isEmpty then (t, .error failure)
        else
          match ensureDirectory true bound t p.parent with
          | (above, .error failure) => (above, .error failure)
          | (above, .ok ()) =>
            match above.makeDirectory p with
            | .ok made => (made, .ok ())
            | .error again =>
              (above, if known && above.isDirectory p then .ok () else .error again)
      | .value => (t, .error failure)
      | _ => (t, if known && t.isDirectory p then .ok () else .error failure)

/-- Makes a directory at the end of a path, which may be there. -/
def withDirectory (t : FileTree) (p : Path) : FileTree × Except Failure Unit :=
  ensureDirectory true (p.parts.length + 1) t p

/-- Makes a directory at the end of a path, where nothing may stand. -/
def withNewDirectory (t : FileTree) (p : Path) : FileTree × Except Failure Unit :=
  ensureDirectory false (p.parts.length + 1) t p

/-- Writes a file, over the one that is there; the tree is given back also when that fails. -/
def withFile (t : FileTree) (p : Path) (bytes : ByteArray) : FileTree × Except Failure Unit :=
  match t.write p bytes with
  | .ok written => (written, .ok ())
  | .error failure => (t, .error failure)

/-- Makes a new directory at the end of a path, and those above it. Only the directories above are
allowed to be there. The tree is given back also when the last step fails. -/
def makeDirectories : Nat → FileTree → Path → FileTree × Except Failure Unit
  | 0, t, p => (t, .error (.missingFile p.text))
  | bound + 1, t, p =>
    let above := p.parent
    let hasAbove := p.isAbsolute || !above.parts.isEmpty
    let (t, outcome) :=
      if hasAbove && !p.parts.isEmpty && !t.surelyExists above then makeDirectories bound t above
      else (t, .ok ())
    let goOn : Bool :=
      match outcome with
      | .ok () => true
      | .error failure => failure.kind == .fileExists
    if goOn then
      match t.makeDirectory p with
      | .ok made => (made, .ok ())
      | .error failure => (t, .error failure)
    else (t, outcome)

/-- The tree without what stands at the end of a path and below it. -/
def remove (t : FileTree) (p : Path) : FileTree :=
  match t.locate p with
  | .file place _ | .directory place =>
    { t with nodes := t.nodes.filter fun e => !place.isPrefixOf e.1 }
  | _ => t

end FileTree

end Macc
