import Macc.Entries
import Macc.Failure

/-!
# A document while it is being read

Until its last line is read a document is a tree in which some tables are still
open. A table made by a header line, or by a key with points in the section of
such a line, may not be declared again by another section; a table that is only
implied by a longer header may. So a table remembers the section that claimed
it. An array of tables is open at its last table alone; the tables before it are
finished values, and so are all arrays and tables that were written as values.
-/

namespace Macc.Toml

/-- A part of an unfinished document. -/
inductive Node where
  /-- A finished value. -/
  | value (v : Value)
  /-- A table, with the number of the section that claimed it. -/
  | table (claimed : Option Nat) (entries : List (String × Node))
  /-- An array of tables: those before the last one, finished, and the last one. -/
  | tables (earlier : List Value) (current : List (String × Node))

abbrev Nodes := List (String × Node)

mutual

/-- The value that a part has when nothing is added to it any more. -/
def Node.close : Node → Value
  | .value v => v
  | .table _ entries => .table (closeEntries entries)
  | .tables earlier current => .list (earlier ++ [.table (closeEntries current)])

def closeEntries : List (String × Node) → List (String × Value)
  | [] => []
  | (k, n) :: rest => (k, n.close) :: closeEntries rest

end

def refuse {β : Type} : Except Failure β := .error .malformedDocument

abbrev Change := Nodes → Except Failure Nodes

/-- `change` done to the table that a header's path leads to. Tables on the way are made when they
are missing, and an array of tables is entered at its last one. -/
def enter (change : Change) : List String → Change
  | [] => change
  | k :: path => fun nodes =>
    match Entries.get? nodes k with
    | none => do return Entries.put nodes k (.table none (← enter change path []))
    | some (.table claimed entries) => do
      return Entries.put nodes k (.table claimed (← enter change path entries))
    | some (.tables earlier current) => do
      return Entries.put nodes k (.tables earlier (← enter change path current))
    | some (.value _) => refuse

/-- `change` done to the table that the points in a key lead to. The tables on the way are claimed
by the section; those that another section has claimed are out of reach. -/
def enterDotted (section_ : Nat) (change : Change) : List String → Change
  | [] => change
  | k :: path => fun nodes =>
    match Entries.get? nodes k with
    | none => do
      return Entries.put nodes k (.table (some section_) (← enterDotted section_ change path []))
    | some (.table claimed entries) =>
      if claimed.all (· == section_) then do
        return Entries.put nodes k
          (.table (some section_) (← enterDotted section_ change path entries))
      else refuse
    | _ => refuse

/-- A new entry, whose key must be free. -/
def addEntry (k : String) (v : Value) : Change := fun nodes =>
  if (Entries.get? nodes k).isSome then refuse else .ok (nodes ++ [(k, .value v)])

/-- A table declared by a header: it is new, or was only implied so far. -/
def declareTable (section_ : Nat) (k : String) : Change := fun nodes =>
  match Entries.get? nodes k with
  | none => .ok (nodes ++ [(k, .table (some section_) [])])
  | some (.table none entries) => .ok (Entries.put nodes k (.table (some section_) entries))
  | _ => refuse

def appendTable (k : String) : Change := fun nodes =>
  match Entries.get? nodes k with
  | none => .ok (nodes ++ [(k, .tables [] [])])
  | some (.tables earlier current) =>
    .ok (Entries.put nodes k (.tables (earlier ++ [.table (closeEntries current)]) []))
  | _ => refuse

/-- `change` done for the last part of a path, in the table that the parts before it lead to. -/
def atLast (walk : Change → List String → Change) (change : String → Change)
    (path : List String) : Change :=
  match path.getLast? with
  | some k => walk (change k) path.dropLast
  | none => fun _ => refuse

end Macc.Toml
