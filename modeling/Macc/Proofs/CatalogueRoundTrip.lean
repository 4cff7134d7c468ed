import Macc.Proofs.Assignments
import Macc.Proofs.CatalogueDocument
import Macc.Proofs.FieldRoundTrip
import Macc.Proofs.Files
import Macc.Proofs.SameValue

/-!
# A saved catalogue is loaded again

Saving a catalogue and loading what was saved gives the catalogue back: the same
keys in the same order, and under each key a strategy of the same name with the
same points, with settings that are alike, and so with the same reductions. The
second loading reports nothing but that it took place, and saving once more
writes the same text.

Catalogues at large do not have this property. A key with blanks around it would
come back without them, a repeated key would come back once, points out of order
would be put in order. It is a property of catalogues that were loaded, whatever
was in the document, and the invariant of loading is what carries it:
`WasLoaded` holds of no strategies and is kept by each entry that is read.

Everything here is about keys and values. How they become text and bytes is the
business of the document format, and of that one thing is assumed where it is
needed, `Toml.ReadsBack`: the document that was dumped is read as the keys and
values that it has.
-/

namespace Macc

namespace Catalogue

variable {h : Horizon}

/-! ## What loading guarantees -/

/-- What holds of every entry of a catalogue that was loaded. -/
structure EntryWasLoaded (h : Horizon) (e : SourceKey × Strategy Float) : Prop where
  gas_ne : e.1.gas.isEmpty = false
  gas_trimmed : Text.trim e.1.gas = e.1.gas
  sector_trimmed : Text.trim e.1.sector = e.1.sector
  wasRead : e.2.WasRead h e.1.label

/-- What holds of every catalogue that was loaded. -/
structure WasLoaded (h : Horizon) (cat : Catalogue Float) : Prop where
  distinct : (Entries.keys cat).Nodup
  entries : ∀ e ∈ cat, EntryWasLoaded h e

theorem wasLoaded_nil (h : Horizon) : WasLoaded h [] :=
  ⟨List.nodup_nil, by simp⟩

theorem WasLoaded.put {cat : Catalogue Float} (hcat : WasLoaded h cat) {key : SourceKey}
    {s : Strategy Float} (hs : EntryWasLoaded h (key, s)) :
    WasLoaded h (Entries.put cat key s) where
  distinct := Entries.nodup_keys_put hcat.distinct key s
  entries e he := by
    rcases Entries.mem_put he with rfl | he
    · exact hs
    · exact hcat.entries e he

/-- What an entry names has no blanks around it. -/
theorem trim_of_nameOf {entry : List (String × Value)} {key name : String}
    (hname : nameOf entry key = .ok name) : Text.trim name = name := by
  rw [nameOf] at hname
  split at hname
  · cases hname
    rfl
  · obtain ⟨raw, -, hraw⟩ := bind_eq_ok_iff.1 hname
    cases hraw
    exact Text.trim_trim raw

theorem WasLoaded.readEntry {files : FileTree} {path : Path} {cat cat' : Catalogue Float}
    (hcat : WasLoaded h cat) {item : Value × Nat}
    (hread : (readEntry files h path cat item).outcome = .ok cat') : WasLoaded h cat' := by
  rw [Catalogue.readEntry] at hread
  split at hread
  · next entry hitem =>
      obtain ⟨key, hkey, hread⟩ := Attempt.outcome_bind_eq_ok_iff.1 hread
      have hrest : (do
          let fields ← fieldsOf files entry path
          let s ← (Strategy.fresh h key.label).parseTable fields
          return Entries.put cat key s : Attempt (Catalogue Float)).outcome = .ok cat' := by
        dsimp only at hread
        split at hread
        · obtain ⟨-, -, hread⟩ := Attempt.outcome_bind_eq_ok_iff.1 hread
          exact hread
        · exact hread
      obtain ⟨fields, -, hrest⟩ := Attempt.outcome_bind_eq_ok_iff.1 hrest
      obtain ⟨s, hparse, hrest⟩ := Attempt.outcome_bind_eq_ok_iff.1 hrest
      cases hrest
      rw [Attempt.outcome_ofExcept, sourceOf] at hkey
      obtain ⟨gas, hgas, hkey⟩ := bind_eq_ok_iff.1 hkey
      split at hkey
      · cases hkey
      · next hne =>
          obtain ⟨sector, hsector, hkey⟩ := bind_eq_ok_iff.1 hkey
          cases hkey
          exact hcat.put ⟨by simpa using hne, trim_of_nameOf hgas, trim_of_nameOf hsector,
            (Strategy.wasRead_fresh h _).parseTable hparse⟩
  · cases hread

theorem wasLoaded_of_load {files : FileTree} {path : Path} {cat : Catalogue Float}
    (hload : (load files h path).outcome = .ok cat) : WasLoaded h cat := by
  rw [load] at hload
  obtain ⟨found, -, hload⟩ := Attempt.outcome_bind_eq_ok_iff.1 hload
  split at hload
  · obtain ⟨document, -, hload⟩ := Attempt.outcome_bind_eq_ok_iff.1 hload
    rw [ofDocument] at hload
    obtain ⟨items, -, hload⟩ := Attempt.outcome_bind_eq_ok_iff.1 hload
    obtain ⟨read, hread, hload⟩ := Attempt.outcome_bind_eq_ok_iff.1 hload
    obtain ⟨-, -, hload⟩ := Attempt.outcome_bind_eq_ok_iff.1 hload
    cases hload
    exact Attempt.foldlM_invariant (fun _ _ _ hcat hstep => hcat.readEntry hstep)
      (wasLoaded_nil h) hread
  · cases hload

/-! ## Reading an entry again -/

/-- What a catalogue is when it is loaded again. -/
def restored (h : Horizon) (cat : Catalogue Float) : Catalogue Float :=
  cat.map fun e => (e.1, e.2.restored h)

/-- No field of a strategy has the name of another key of its entry. -/
theorem not_entryKey_of_mem_toFields {s : Strategy Float} {f : String × Value}
    (hf : f ∈ s.toFields h) : entryKeys.contains f.1 = false := by
  have hfield : ∀ f : Field, entryKeys.contains f.name = false := by
    intro f
    cases f <;> decide +kernel
  have hreduction : entryKeys.contains reductionField = false := by decide +kernel
  rw [Strategy.toFields] at hf
  rcases List.mem_append.1 hf with hf | hf
  · obtain ⟨field, -, rfl⟩ := List.mem_map.1 hf
    exact hfield field
  · rw [List.mem_singleton.1 hf]
    exact hreduction

theorem get?_toFields {key : String} (hkey : entryKeys.contains key = true)
    (s : Strategy Float) : Entries.get? (s.toFields h) key = none := by
  apply Entries.get?_eq_none
  intro hmem
  obtain ⟨f, hf, rfl⟩ := List.mem_map.1 hmem
  rw [not_entryKey_of_mem_toFields hf] at hkey
  cases hkey

variable {e : SourceKey × Strategy Float}

theorem nameOf_gas (he : EntryWasLoaded h e) : nameOf (entryFields h e) "gas" = .ok e.1.gas :=
  congrArg Except.ok he.gas_trimmed

theorem nameOf_sector (he : EntryWasLoaded h e) :
    nameOf (entryFields h e) "sector" = .ok e.1.sector := by
  have hother : ¬("gas" == "sector") = true := by decide
  rw [nameOf, entryFields, Entries.get?, if_neg hother]
  cases hsector : e.1.sector.isEmpty with
  | true =>
      rw [if_pos rfl, List.nil_append, get?_toFields (by decide), String.isEmpty_iff.1 hsector]
  | false => exact congrArg Except.ok he.sector_trimmed

theorem sourceOf_entryFields (he : EntryWasLoaded h e) (position : Nat) (path : Path) :
    sourceOf (entryFields h e) position path = .ok e.1 := by
  rw [sourceOf, nameOf_gas he, nameOf_sector he, ok_bind, he.gas_ne]
  rfl

theorem fieldsOf_entryFields (files : FileTree) (e : SourceKey × Strategy Float) (path : Path) :
    fieldsOf files (entryFields h e) path = pure (e.2.toFields h) := by
  have hgas : ¬("gas" == "points_file") = true := by decide
  have hsector : ¬("sector" == "points_file") = true := by decide
  have hnone : Entries.get? (entryFields h e) "points_file" = none := by
    rw [entryFields, Entries.get?, if_neg hgas]
    split
    · exact get?_toFields (by decide) e.2
    · rw [List.cons_append, Entries.get?, if_neg hsector]
      exact get?_toFields (by decide) e.2
  have hown : (entryFields h e).filter (fun f => !entryKeys.contains f.1) = e.2.toFields h := by
    have hall : (e.2.toFields h).filter (fun f => !entryKeys.contains f.1) = e.2.toFields h := by
      rw [List.filter_eq_self]
      intro f hf
      rw [not_entryKey_of_mem_toFields hf]
      rfl
    rw [entryFields]
    split
    · exact hall
    · exact hall
  rw [fieldsOf, pointsPath?, hnone, hown]
  rfl

/-! ## Loading it -/

/-- The entry of a key that is not there yet is added at the end, without a report. -/
theorem readEntry_entryFields {files : FileTree} {path : Path} {cat : Catalogue Float}
    (hnew : e.1 ∉ Entries.keys cat) (he : EntryWasLoaded h e) (hn : e.2.curve.Numeric)
    (position : Nat) :
    readEntry files h path cat (.table (entryFields h e), position) =
      pure (cat ++ [(e.1, e.2.restored h)]) := by
  have hhas : ¬Entries.has cat e.1 = true := by
    rw [Entries.has, Entries.get?_eq_none hnew]
    exact Bool.false_ne_true
  rw [readEntry]
  dsimp only
  rw [sourceOf_entryFields he, Attempt.ofExcept_ok, pure_bind, if_neg hhas,
    fieldsOf_entryFields, pure_bind, Strategy.parseTable_toFields he.wasRead hn, pure_bind,
    Entries.put_of_not_mem hnew]

theorem readEntries_document {files : FileTree} {path : Path} {done todo : Catalogue Float}
    (hloaded : WasLoaded h (done ++ todo)) (hn : ∀ e ∈ todo, e.2.curve.Numeric)
    (position : Nat) :
    ((todo.map fun e => Value.table (entryFields h e)).zipIdx position).foldlM
        (readEntry files h path) (restored h done) =
      pure (restored h (done ++ todo)) := by
  induction todo generalizing done position with
  | nil =>
      rw [List.append_nil]
      rfl
  | cons e rest ih =>
      have hmoved : (done ++ [e]) ++ rest = done ++ e :: rest := by simp
      have hkeys : Entries.keys (restored h done) = Entries.keys done := by
        simp [Entries.keys, restored]
      have hnew : e.1 ∉ Entries.keys (restored h done) := by
        have hdistinct := hloaded.distinct
        rw [Entries.keys, List.map_append, List.nodup_append] at hdistinct
        rw [hkeys]
        intro hmem
        exact hdistinct.2.2 e.1 hmem e.1 (by simp) rfl
      have hnext : restored h done ++ [(e.1, e.2.restored h)] = restored h (done ++ [e]) := by
        simp [restored]
      rw [List.map_cons, List.zipIdx_cons, List.foldlM_cons,
        readEntry_entryFields hnew (hloaded.entries e (by simp)) (hn e (by simp)), pure_bind,
        hnext]
      rw [← hmoved] at hloaded ⊢
      exact ih hloaded (fun e he => hn e (List.mem_cons_of_mem _ he)) (position + 1)

theorem ofDocument_document {cat : Catalogue Float} (hloaded : WasLoaded h cat)
    (hn : ∀ e ∈ cat, e.2.curve.Numeric) (files : FileTree) (path : Path) :
    ofDocument files h path (document h cat) = do
      report (.loaded cat.length path.text)
      return restored h cat := by
  have hitems : itemsOf (document h cat) path =
      .ok (cat.map fun e => .table (entryFields h e)) := rfl
  have hread := @readEntries_document h files path [] cat hloaded hn 0
  have hlength : (restored h cat).length = cat.length := List.length_map _
  rw [ofDocument, hitems, Attempt.ofExcept_ok, pure_bind]
  change (List.foldlM _ [] _ >>= _) = _
  change List.foldlM _ [] _ = _ at hread
  rw [hread, pure_bind, List.nil_append, hlength]

/-- Saving succeeds by writing the text of the catalogue. -/
theorem write_of_save {files written : FileTree} {path : Path} {cat : Catalogue Float}
    (hsave : save files h path cat = (written, .ok ())) :
    ∃ ready : FileTree, ready.write path (text h cat).toUTF8 = .ok written := by
  rw [save] at hsave
  split at hsave
  · next ready _ => exact ⟨ready, FileTree.write_of_withFile hsave⟩
  · next hother =>
      exact (hother _ hsave).elim

/-- Loading a file that holds what a catalogue was written from. -/
theorem load_of_write {ready written : FileTree} {path : Path} {bytes : ByteArray}
    {keys : List (String × Value)} (hwrite : ready.write path bytes = .ok written)
    (hread : Toml.parseBytes bytes = .ok keys) :
    load written h path = ofDocument written h path keys := by
  have hload : Toml.load written path (.catalogueUnreadable path.text) = .ok keys := by
    rw [Toml.load, FileTree.read_of_write hwrite, ok_bind, hread]
  rw [load, FileTree.pathExists_of_write hwrite, Attempt.ofExcept_ok, pure_bind, if_pos rfl,
    hload, Attempt.ofExcept_ok, pure_bind]

/-! ## Saving it once more -/

theorem text_restored (cat : Catalogue Float) : text h (restored h cat) = text h cat := by
  have hentry : ∀ e : SourceKey × Strategy Float,
      writeEntry h (e.1, e.2.restored h) = writeEntry h e := by
    intro e
    rw [writeEntry, writeEntry, Strategy.writtenSettings_restored]
    rfl
  rw [text, text, restored, List.isEmpty_map, List.map_map]
  simp only [Function.comp_def, hentry]

/-! ## The same catalogue -/

/-- Whether two catalogues have the same keys in the same order, with the same strategies. -/
def Same (cat again : Catalogue Float) : Prop :=
  List.Forall₂ (fun e e' => e.1 = e'.1 ∧ e.2.Same e'.2) cat again

theorem same_restored (h : Horizon) (cat : Catalogue Float) : cat.Same (restored h cat) := by
  induction cat with
  | nil => exact .nil
  | cons e rest ih => exact .cons ⟨rfl, e.2.same_restored h⟩ ih

/-- A catalogue that was loaded and then saved is loaded again as the same catalogue, with nothing
to report beyond that, and has the same text. -/
theorem load_save {files others written : FileTree} {source target : Path}
    {cat : Catalogue Float} (hload : (load files h source).outcome = .ok cat)
    (hnumeric : ∀ e ∈ cat, e.2.curve.Numeric)
    (hsave : save others h target cat = (written, .ok ()))
    (hreads : Toml.ReadsBack (document h cat)) :
    ∃ again, (load written h target).outcome = .ok again ∧
      cat.Same again ∧
      (∀ n ∈ (load written h target).log, n.severity = .info) ∧
      text h again = text h cat := by
  obtain ⟨ready, hwrite⟩ := write_of_save hsave
  rw [Toml.ReadsBack, ← text_eq_dump] at hreads
  have hagain : load written h target = do
      report (.loaded cat.length target.text)
      return restored h cat := by
    rw [load_of_write hwrite hreads]
    exact ofDocument_document (wasLoaded_of_load hload) hnumeric written target
  refine ⟨restored h cat, ?_, same_restored h cat, ?_, text_restored cat⟩
  · rw [hagain]
    rfl
  · rw [hagain]
    intro n hn
    have hlog : n ∈ [Notice.loaded cat.length target.text] := hn
    rw [List.mem_singleton.1 hlog]
    rfl

/-! A document with blanks around a gas, other spellings of fields and of their values, a zero with
a sign, a refused field, points out of order, and a gas that occurs twice. -/

def mixedLines : List String :=
  ["[[mac]]", "gas = \" CO2 \"", "sector = \"Energy\"", "phase_in = \"2\"",
    "costReductionRate = -0.0", "finalReductionYear = 2015.0", "noBelowZero = \"perhaps\"",
    "reduction = [[100, 0.5], [0, -0.0]]", "[[mac]]", "gas = \"CH4\"", "reduction = [[1, 1]]",
    "[[mac]]", "gas = \"CH4\"", "no_below_zero = \"yes\"", ""]

def mixedSource : Path := ⟨.single, ["curves.toml"]⟩

def mixedTarget : Path := ⟨.single, ["out", "curves.toml"]⟩

def mixedFiles : FileTree :=
  ⟨[(["curves.toml"], .file ("\n".intercalate mixedLines).toUTF8)], []⟩

def mixedHorizon : Horizon := ⟨[2005, 2010, 2020], by decide, by decide⟩

def mixedCatalogue : Catalogue Float :=
  [(⟨"CO2", "Energy"⟩,
      ⟨"CO2/Energy",
        { Settings.default mixedHorizon with
          finalReductionYear := 2015, phaseIn := 2, costReductionRate := -0.0 },
        ⟨[⟨0, -0.0⟩, ⟨100, 0.5⟩]⟩⟩),
    (⟨"CH4", ""⟩,
      ⟨"CH4", { Settings.default mixedHorizon with noBelowZero := true }, ⟨[]⟩⟩)]

theorem load_save_mixed :
    (load mixedFiles mixedHorizon mixedSource).outcome = .ok mixedCatalogue ∧
      ∃ again, (load (save mixedFiles mixedHorizon mixedTarget mixedCatalogue).1 mixedHorizon
          mixedTarget).outcome = .ok again ∧
        mixedCatalogue.Same again ∧
        (∀ n ∈ (load (save mixedFiles mixedHorizon mixedTarget mixedCatalogue).1 mixedHorizon
          mixedTarget).log, n.severity = .info) ∧
        text mixedHorizon again = text mixedHorizon mixedCatalogue := by
  have hload : (load mixedFiles mixedHorizon mixedSource).outcome = .ok mixedCatalogue := by
    rw [← toOption_eq_some_iff]
    decide +kernel
  have hnumeric : ∀ e ∈ mixedCatalogue, ∀ p ∈ e.2.curve.points, p.x.isNaN = false := by
    decide +kernel
  have hsaved : (save mixedFiles mixedHorizon mixedTarget mixedCatalogue).2 = .ok () := by
    rw [← toOption_eq_some_iff]
    decide +kernel
  have hreads : Toml.ReadsBack (document mixedHorizon mixedCatalogue) := by
    rw [Toml.ReadsBack, ← toOption_eq_some_iff]
    decide +kernel
  exact ⟨hload, load_save hload hnumeric (Prod.ext rfl hsaved) hreads⟩

end Catalogue

end Macc
