import Macc.Catalogue.Reading
import Macc.Proofs.Assignments
import Macc.Proofs.Attempts

/-!
# A catalogue is made of its entries

Reading a catalogue goes through the entries of a document with the catalogue
that has been read so far, and all it does with it is put one more strategy into
it. So what an entry says is said of the entry alone, by `entryOf`, and a
catalogue is the entries one by one and then the assignments they stand for: the
keys come in the order in which they first appear, and of the entries with one
key the last counts and nothing of the others is left.
-/

namespace Macc

namespace Catalogue

variable {files : FileTree} {h : Horizon} {path : Path}

/-- The strategy that an entry of a document describes, and what it belongs to. -/
def entryOf (files : FileTree) (h : Horizon) (path : Path) (item : Value × Nat) :
    Except Failure (SourceKey × Strategy Float) :=
  match item.1 with
  | .table entry => do
    let key ← sourceOf entry item.2 path
    let fields ← (fieldsOf files entry path).outcome
    let strategy ← ((Strategy.fresh h key.label).parseTable fields).outcome
    return (key, strategy)
  | _ => .error (.entryNotTable item.2 path.text)

def entriesIn (files : FileTree) (h : Horizon) (path : Path) :
    Except Failure (List (SourceKey × Strategy Float)) := do
  if ← files.pathExists path then
    let document ← Toml.load files path (.catalogueUnreadable path.text)
    let items ← itemsOf document path
    items.zipIdx.mapM (entryOf files h path)
  else throw (.catalogueMissing path.text)

/-- What has been read before decides neither what an entry says nor whether it can be read. -/
theorem outcome_readEntry (cat : Catalogue Float) (item : Value × Nat) :
    (readEntry files h path cat item).outcome =
      entryOf files h path item >>= fun e => .ok (Entries.put cat e.1 e.2) := by
  obtain ⟨v, position⟩ := item
  cases v with
  | table entry =>
      rw [readEntry, entryOf]
      dsimp only
      rw [Attempt.outcome_bind, Attempt.outcome_ofExcept]
      cases sourceOf entry position path with
      | error failure => rfl
      | ok key =>
          rw [ok_bind, ok_bind]
          have hrest : (do
              let fields ← fieldsOf files entry path
              let s ← (Strategy.fresh h key.label).parseTable fields
              return Entries.put cat key s : Attempt (Catalogue Float)).outcome =
              (do
                let fields ← (fieldsOf files entry path).outcome
                let s ← ((Strategy.fresh h key.label).parseTable fields).outcome
                return (key, s)) >>= fun e => .ok (Entries.put cat e.1 e.2) := by
            rw [Attempt.outcome_bind]
            cases (fieldsOf files entry path).outcome with
            | error failure => rfl
            | ok fields =>
                rw [ok_bind, ok_bind, Attempt.outcome_bind]
                cases ((Strategy.fresh h key.label).parseTable fields).outcome <;> rfl
          split
          · rw [Attempt.outcome_bind]
            exact hrest
          · exact hrest
  | _ => rfl

theorem outcome_readEntries (items : List (Value × Nat)) (cat : Catalogue Float) :
    (items.foldlM (readEntry files h path) cat).outcome =
      items.mapM (entryOf files h path) >>= fun built =>
        .ok (built.foldl (fun cat e => Entries.put cat e.1 e.2) cat) := by
  induction items generalizing cat with
  | nil => rfl
  | cons item rest ih =>
      rw [List.foldlM_cons, List.mapM_cons, Attempt.outcome_bind, outcome_readEntry]
      cases entryOf files h path item with
      | error failure => rfl
      | ok e =>
          rw [ok_bind, ok_bind, ok_bind, ih]
          cases rest.mapM (entryOf files h path) <;> rfl

/-- A catalogue is the assignments that its entries stand for. -/
theorem outcome_load : (load files h path).outcome =
    entriesIn files h path >>= fun built => .ok (Entries.ofAssignments built) := by
  rw [load, entriesIn, Attempt.outcome_bind, Attempt.outcome_ofExcept]
  cases files.pathExists path with
  | error failure => rfl
  | ok found =>
      rw [ok_bind, ok_bind]
      split
      · rw [Attempt.outcome_bind, Attempt.outcome_ofExcept]
        cases Toml.load files path (.catalogueUnreadable path.text) with
        | error failure => rfl
        | ok document =>
            rw [ok_bind, ok_bind, ofDocument, Attempt.outcome_bind, Attempt.outcome_ofExcept]
            cases itemsOf document path with
            | error failure => rfl
            | ok items =>
                rw [ok_bind, ok_bind, Attempt.outcome_bind, outcome_readEntries]
                cases items.zipIdx.mapM (entryOf files h path) <;> rfl
      · rfl

/-- The strategy of a catalogue's key is that of the last entry with the key. -/
theorem getLast?_of_mem {built : List (SourceKey × Strategy Float)}
    {e : SourceKey × Strategy Float} (he : e ∈ Entries.ofAssignments built) :
    ((built.filter fun entry => entry.1 == e.1).getLast?).map (·.2) = some e.2 := by
  rw [← Entries.get?_ofAssignments]
  exact Entries.get?_of_mem (Entries.nodup_keys_ofAssignments built) he

end Catalogue

end Macc
