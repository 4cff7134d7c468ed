import Macc.Catalogue.Writing

/-!
# The document that a catalogue is written from

The text of a catalogue is the text of a document, an array of tables with one
table for each strategy. That is said here twice over: which keys and values the
document has, and how such a document is dumped, a header and a line for each
key, with arrays spread over lines. Put together they give the text of the
catalogue, character by character.

So what has to be assumed about the format, when something is said about writing
and reading, can be said about documents and does not mention catalogues: what
is dumped is read as the same keys with the same values, in the same order.
-/

namespace Macc

namespace Toml

/-- A key with its value: arrays one item a line, everything else on the line of its key. -/
def dumpField (f : String × Value) : String :=
  match f.2 with
  | .list items => writeArray f.1 items
  | v => writeLine f.1 v

def dumpTable (key : String) (table : Value) : String :=
  match table with
  | .table fields => writeHeader key ++ String.join (fields.map dumpField)
  | v => writeLine key v

/-- A key of a document with its value; an array that is not empty is an array of tables. -/
def dumpEntry (f : String × Value) : String :=
  match f.2 with
  | .list (first :: rest) => "\n".intercalate ((first :: rest).map (dumpTable f.1))
  | _ => dumpField f

def dump (document : List (String × Value)) : String :=
  "\n".intercalate (document.map dumpEntry)

/-- Whether a document that is dumped is read as the same keys with the same values, in the same
order. -/
def ReadsBack (document : List (String × Value)) : Prop :=
  parseBytes (dump document).toUTF8 = .ok document

end Toml

namespace Catalogue

/-- The keys and values that an entry is written from. -/
def entryFields (h : Horizon) (e : SourceKey × Strategy Float) : List (String × Value) :=
  ("gas", .text e.1.gas) ::
    ((if e.1.sector.isEmpty then [] else [("sector", .text e.1.sector)]) ++ e.2.toFields h)

/-- The keys and values that a catalogue is written from. -/
def document (h : Horizon) (cat : Catalogue Float) : List (String × Value) :=
  [(tableKey, .list (cat.map fun e => .table (entryFields h e)))]

variable {h : Horizon}

/-- No setting is an array. -/
theorem dumpField_setting (s : Settings Float) (f : Field) :
    Toml.dumpField (f.name, s.get f) = Toml.writeLine f.name (s.get f) := by
  cases f <;> rfl

theorem join_dump_settings (s : Strategy Float) :
    String.join ((s.writtenSettings h).map Toml.dumpField) =
      String.join ((s.writtenSettings h).map fun f => Toml.writeLine f.1 f.2) := by
  rw [Strategy.writtenSettings, List.map_map, List.map_map]
  congr 1
  apply List.map_congr_left
  intro f _
  exact dumpField_setting s.settings f

/-- The text of an entry is that of its table. -/
theorem writeEntry_eq (e : SourceKey × Strategy Float) :
    writeEntry h e = Toml.dumpTable tableKey (.table (entryFields h e)) := by
  obtain ⟨key, s⟩ := e
  have hsector : String.join
      ((if key.sector.isEmpty then [] else [("sector", Value.text key.sector)]).map
        Toml.dumpField) =
      if key.sector.isEmpty then "" else Toml.writeLine "sector" (.text key.sector) := by
    split
    · rfl
    · rw [List.map_singleton, String.join_cons, String.join_nil, String.append_empty]
      rfl
  rw [Toml.dumpTable, entryFields, List.map_cons, List.map_append, String.join_cons,
    String.join_append, hsector, Strategy.toFields, List.map_append, String.join_append,
    join_dump_settings, List.map_singleton, String.join_cons, String.join_nil,
    String.append_empty]
  simp only [writeEntry, String.append_assoc]
  rfl

/-- The text of a catalogue is that of its document. -/
theorem text_eq_dump (cat : Catalogue Float) : text h cat = Toml.dump (document h cat) := by
  rw [Toml.dump, document, List.map_singleton, String.intercalate_singleton]
  cases cat with
  | nil => rfl
  | cons e rest =>
      have htables : (e :: rest).map (writeEntry h) =
          ((e :: rest).map fun e => Value.table (entryFields h e)).map
            (Toml.dumpTable tableKey) := by
        rw [List.map_map]
        apply List.map_congr_left
        intro e _
        exact writeEntry_eq e
      rw [text, List.isEmpty_cons, if_neg Bool.false_ne_true, htables]
      rfl

end Catalogue

end Macc
