import Macc.Proofs.CatalogueEntries
import Macc.Proofs.LastPoints
import Macc.Proofs.PointForms

/-!
# What a document makes of a catalogue

An entry is refused for one of a few reasons, which are looked for in this order:
it is no table, it names no gas, its table of points is of no use, or its own
fields stop the reading. It names no gas where that is blank, and neither a gas
nor a sector can be named by what has no text. What is left describes a key and a
strategy, and says so without the entries around it: settings and points are those
of its own fields, and the points of its table come on top, wherever among its
keys the entry names that table. At one price a point of the table therefore
counts before one of the entry, and within each the last one.

The points of a table are one more field of the strategy, so they cannot stop the
reading, and adding them is adding to the curve that the entry's own fields have
left. That is what keeps the two sources apart in the argument.

Reports are needed only as far as they say that a key occurred before. Of all
that happens to an entry just one step makes such a report, before the fields are
looked at; so an entry that is refused for its fields still makes one, and what
is reported of a document can be read off the keys of its entries.
-/

namespace Macc

/-! ## Reports of a kind -/

/-- Whether a report says that an entry has the key of an earlier one. -/
def Notice.isRepetition : Notice → Bool
  | .repeatedEntry .. => true
  | _ => false

namespace Attempt

variable {α β : Type}

/-- The reports of an attempt that a key occurred before. -/
def repetitions (a : Attempt α) : List Notice :=
  a.log.filter Notice.isRepetition

theorem repetitions_bind {a : Attempt α} {x : α} (h : a.outcome = .ok x) (f : α → Attempt β) :
    (a >>= f).repetitions = a.repetitions ++ (f x).repetitions := by
  rw [repetitions, log_bind h, List.filter_append]
  rfl

theorem repetitions_bind_error {a : Attempt α} {failure : Failure}
    (h : a.outcome = .error failure) (f : α → Attempt β) :
    (a >>= f).repetitions = a.repetitions := by
  rw [repetitions, log_bind_error h]
  rfl

/-- A chain makes no such report if none of its parts does. -/
theorem repetitions_bind_eq_nil {a : Attempt α} {f : α → Attempt β} (ha : a.repetitions = [])
    (hf : ∀ x, (f x).repetitions = []) : (a >>= f).repetitions = [] := by
  cases h : a.outcome with
  | ok x => rw [repetitions_bind h, ha, hf, List.nil_append]
  | error failure => rw [repetitions_bind_error h, ha]

theorem repetitions_foldlM_eq_nil {f : β → α → Attempt β}
    (hf : ∀ b a, (f b a).repetitions = []) (items : List α) (b : β) :
    (items.foldlM f b).repetitions = [] := by
  induction items generalizing b with
  | nil => rfl
  | cons a rest ih => exact repetitions_bind_eq_nil (hf b a) ih

end Attempt

namespace ReductionField

theorem repetitions_readEntries (owner : String) (entries : List Value) :
    (readEntries owner entries).repetitions = [] := by
  induction entries with
  | nil => rfl
  | cons entry rest ih =>
      rw [readEntries]
      split
      · exact Attempt.repetitions_bind_eq_nil ih fun _ => rfl
      · split
        · exact Attempt.repetitions_bind_eq_nil rfl fun _ => ih
        · rfl

theorem repetitions_read (owner : String) (v : Value) : (read owner v).repetitions = [] := by
  rw [read]
  split
  · exact repetitions_readEntries owner _
  · rfl

end ReductionField

namespace Strategy

theorem repetitions_addAll (c : Curve Float) (pairs : List (Float × Float)) :
    (Attempt.ofLogged (c.addAll pairs)).repetitions = [] := by
  rw [Attempt.repetitions, Attempt.log_ofLogged, List.filter_eq_nil_iff]
  intro n hn hrepetition
  have hsevere : n ∈ Notice.audible (c.addAll pairs).log := by
    refine List.mem_filter.2 ⟨hn, ?_⟩
    cases n with
    | repeatedEntry => rfl
    | _ => cases hrepetition
  rw [Curve.audible_addAll] at hsevere
  cases hsevere

theorem repetitions_readField (t : Strategy Float) (item : Value) :
    (t.readField item).repetitions = [] := by
  rw [readField]
  refine Attempt.repetitions_bind_eq_nil rfl fun field => ?_
  refine Attempt.repetitions_bind_eq_nil rfl fun written => ?_
  dsimp only
  split
  · refine Attempt.repetitions_bind_eq_nil (ReductionField.repetitions_read _ _) fun points => ?_
    exact Attempt.repetitions_bind_eq_nil (repetitions_addAll _ _) fun _ => rfl
  · split
    · rfl
    · split
      · rfl
      · split <;> rfl

theorem repetitions_parseTable (s : Strategy Float) (fields : List (String × Value)) :
    (s.parseTable fields).repetitions = [] :=
  Attempt.repetitions_foldlM_eq_nil repetitions_readField _ _

end Strategy

theorem Points.repetitions_load (files : FileTree) (path : Path) :
    (Points.load files path).repetitions = [] := by
  rw [Points.load]
  refine Attempt.repetitions_bind_eq_nil rfl fun frame => ?_
  rw [Points.ofFrame]
  dsimp only
  split
  · rfl
  · refine Attempt.repetitions_bind_eq_nil rfl fun tax => ?_
    refine Attempt.repetitions_bind_eq_nil rfl fun reduction => ?_
    split <;> rfl

namespace Catalogue

variable {files : FileTree} {h : Horizon} {path : Path}

/-! ## What an entry says -/

/-- The fields of an entry that belong to its strategy. -/
def ownFields (entry : List (String × Value)) : List (String × Value) :=
  entry.filter fun e => !entryKeys.contains e.1

/-- The points of the table that an entry names, if it names one. -/
def tablePoints (files : FileTree) (entry : List (String × Value)) (path : Path) :
    Except Failure (List (Float × Float)) := do
  match ← pointsPath? entry path with
  | none => return []
  | some file => (Points.load files file).outcome

/-- Whether an entry has a key: a gas that is not empty and a sector, both with a text. -/
structure HasKey (entry : List (String × Value)) (key : SourceKey) : Prop where
  gas : nameOf entry "gas" = .ok key.gas
  gas_ne : key.gas ≠ ""
  sector : nameOf entry "sector" = .ok key.sector

/-- The key of an item that is a table and has one. -/
def keyOf? : Value → Option SourceKey
  | .table entry => do
    let gas ← (nameOf entry "gas").toOption
    let sector ← (nameOf entry "sector").toOption
    if gas = "" then none else some ⟨gas, sector⟩
  | _ => none

/-- The strategy that an entry describes without the table that it names. -/
def ownStrategy (h : Horizon) (key : SourceKey) (entry : List (String × Value)) :
    Except Failure (Strategy Float) :=
  ((Strategy.fresh h key.label).parseTable (ownFields entry)).outcome

/-- Whether an item of a document at a position is refused, and with which failure. -/
inductive Refuses (files : FileTree) (h : Horizon) (path : Path) : Value × Nat → Failure → Prop
  | noTable {v : Value} {position : Nat} : (∀ entry, v ≠ .table entry) →
      Refuses files h path (v, position) (.entryNotTable position path.text)
  | gasText {entry : List (String × Value)} {position : Nat} {cause : Failure} :
      nameOf entry "gas" = .error cause → Refuses files h path (.table entry, position) cause
  | noGas {entry : List (String × Value)} {position : Nat} : nameOf entry "gas" = .ok "" →
      Refuses files h path (.table entry, position) (.entryWithoutGas position path.text)
  | sectorText {entry : List (String × Value)} {position : Nat} {gas : String}
      {cause : Failure} : nameOf entry "gas" = .ok gas → gas ≠ "" →
      nameOf entry "sector" = .error cause → Refuses files h path (.table entry, position) cause
  | points {entry : List (String × Value)} {position : Nat} {key : SourceKey} {cause : Failure} :
      HasKey entry key → tablePoints files entry path = .error cause →
      Refuses files h path (.table entry, position) cause
  | fields {entry : List (String × Value)} {position : Nat} {key : SourceKey}
      {points : List (Float × Float)} {cause : Failure} : HasKey entry key →
      tablePoints files entry path = .ok points → ownStrategy h key entry = .error cause →
      Refuses files h path (.table entry, position) cause

/-- What a strategy is that has been read from an entry and the points of its table. -/
structure ReadFrom (h : Horizon) (key : SourceKey) (entry : List (String × Value))
    (points : List (Float × Float)) (s : Strategy Float) : Prop where
  name : s.name = key.label
  settings : ∀ f, s.settings.get f =
    Strategy.heldAfter (Settings.default h) (ownFields entry) f
  curve : s.curve =
    (Curve.empty.addAll ((ownFields entry).flatMap Strategy.pointsOf ++ points)).value
  values : ∀ x : Float, x.isNaN = false → (Curve.pointAt? x s.curve.points).map (·.y) =
    (Curve.lastAt? points x).or
      (Curve.lastAt? ((ownFields entry).flatMap Strategy.pointsOf) x)

/-- Whether an item describes a strategy under a key. -/
inductive Describes (files : FileTree) (h : Horizon) (path : Path) :
    Value × Nat → SourceKey × Strategy Float → Prop
  | table {entry : List (String × Value)} {position : Nat} {key : SourceKey}
      {points : List (Float × Float)} {s : Strategy Float} : HasKey entry key →
      tablePoints files entry path = .ok points → ReadFrom h key entry points s →
      Describes files h path (.table entry, position) (key, s)

variable {entry : List (String × Value)}

theorem writesPoints_pointsValue (points : List (Float × Float)) :
    ReductionField.WritesPoints points (pointsValue points) := by
  refine .many (List.forall₂_map_right_iff.2 (List.forall₂_same.2 fun p _ => ?_))
  exact .pair rfl rfl

/-- The fields that are read are those of the entry, and then one that writes the points of its
table. -/
theorem outcome_fieldsOf (files : FileTree) (entry : List (String × Value)) (path : Path) :
    match tablePoints files entry path with
    | .error cause => (fieldsOf files entry path).outcome = .error cause
    | .ok points => ∃ added chunks,
        (fieldsOf files entry path).outcome = .ok (ownFields entry ++ added) ∧
          List.Forall₂ Strategy.WritesField chunks
            (added.map fun f => Strategy.fieldItem f.1 f.2) ∧
          chunks.flatten = points := by
  rw [tablePoints, fieldsOf, Attempt.outcome_bind, Attempt.outcome_ofExcept]
  cases pointsPath? entry path with
  | error cause => rfl
  | ok file? =>
      rw [ok_bind, ok_bind]
      cases file? with
      | none => exact ⟨[], [], by rw [List.append_nil]; rfl, .nil, rfl⟩
      | some file =>
          dsimp only
          rw [Attempt.outcome_bind]
          cases (Points.load files file).outcome with
          | error cause => rfl
          | ok points =>
              have hname : Field.namesPoints reductionField = true := by decide +kernel
              refine ⟨[(reductionField, pointsValue points)], [points], rfl, ?_,
                List.flatten_singleton⟩
              exact .cons (Strategy.writesField_fieldItem hname (writesPoints_pointsValue points))
                .nil

variable {key : SourceKey}

theorem HasKey.sourceOf (hkey : HasKey entry key) (position : Nat) (path : Path) :
    sourceOf entry position path = .ok key := by
  have hgas : ¬key.gas.isEmpty = true := fun hempty => hkey.gas_ne (String.isEmpty_iff.1 hempty)
  rw [Catalogue.sourceOf, hkey.gas, ok_bind, if_neg hgas, hkey.sector]
  rfl

theorem HasKey.keyOf? (hkey : HasKey entry key) : keyOf? (.table entry) = some key := by
  rw [Catalogue.keyOf?, hkey.gas, hkey.sector]
  exact if_neg hkey.gas_ne

/-- An entry has a key, or it is refused before its fields are looked at. -/
theorem hasKey_or_refuses (files : FileTree) (h : Horizon) (path : Path)
    (entry : List (String × Value)) (position : Nat) :
    (∃ key, HasKey entry key) ∨
    ∃ cause, Refuses files h path (.table entry, position) cause ∧
      sourceOf entry position path = .error cause ∧ keyOf? (.table entry) = none := by
  rw [sourceOf, keyOf?]
  cases hgas : nameOf entry "gas" with
  | error cause => exact .inr ⟨cause, .gasText hgas, rfl, rfl⟩
  | ok gas =>
      rw [ok_bind]
      by_cases hempty : gas = ""
      · subst hempty
        refine .inr ⟨_, .noGas hgas, rfl, ?_⟩
        cases nameOf entry "sector" <;> rfl
      · rw [if_neg fun h => hempty (String.isEmpty_iff.1 h)]
        cases hsector : nameOf entry "sector" with
        | error cause => exact .inr ⟨cause, .sectorText hgas hempty hsector, rfl, rfl⟩
        | ok sector => exact .inl ⟨⟨gas, sector⟩, hgas, hempty, hsector⟩

theorem entryOf_of_no_source {position : Nat} {cause : Failure}
    (hsource : sourceOf entry position path = .error cause) :
    entryOf files h path (.table entry, position) = .error cause := by
  rw [entryOf]
  dsimp only
  rw [hsource, error_bind]

/-- The strategy of an entry is that of its own fields with the points of its table added. -/
theorem entryOf_table (hkey : HasKey entry key) (position : Nat) :
    entryOf files h path (.table entry, position) = do
      let points ← tablePoints files entry path
      let own ← ownStrategy h key entry
      return (key, { own with curve := (own.curve.addAll points).value }) := by
  rw [entryOf]
  dsimp only
  rw [hkey.sourceOf, ok_bind]
  have hfields := outcome_fieldsOf files entry path
  cases hpoints : tablePoints files entry path with
  | error cause =>
      rw [hpoints] at hfields
      rw [hfields]
      rfl
  | ok points =>
      rw [hpoints] at hfields
      obtain ⟨added, chunks, hfields, hwrites, rfl⟩ := hfields
      rw [hfields, ok_bind, ok_bind, ownStrategy, Strategy.parseTable, Strategy.parseTable,
        Strategy.parse, Strategy.parse, List.map_append, List.foldlM_append, Attempt.outcome_bind]
      cases (List.foldlM Strategy.readField _ _ : Attempt (Strategy Float)).outcome with
      | error cause => rfl
      | ok own =>
          rw [ok_bind, ok_bind, Strategy.foldlM_of_writesField hwrites, Attempt.outcome_bind]
          rfl

theorem fieldsIn_fieldItem (fields : List (String × Value)) :
    Strategy.fieldsIn (fields.map fun f => Strategy.fieldItem f.1 f.2) = fields := by
  rw [Strategy.fieldsIn, List.filterMap_map]
  exact List.filterMap_some

/-- What an entry's own fields and table say is what its strategy is. -/
theorem readFrom_ownStrategy {own : Strategy Float} (hown : ownStrategy h key entry = .ok own)
    (points : List (Float × Float)) :
    ReadFrom h key entry points { own with curve := (own.curve.addAll points).value } := by
  have hsaid := Strategy.says_of_parse hown
  rw [fieldsIn_fieldItem] at hsaid
  have hcurve : (own.curve.addAll points).value =
      (Curve.empty.addAll ((ownFields entry).flatMap Strategy.pointsOf ++ points)).value := by
    rw [hsaid.curve, Curve.value_addAll, Curve.value_addAll, Curve.value_addAll,
      List.foldl_append]
  have hname := hsaid.name
  have hsettings := hsaid.settings
  dsimp only [Strategy.fresh] at hname hsettings
  refine ⟨hname, hsettings, hcurve, fun x hx => ?_⟩
  dsimp only
  rw [hcurve, (Curve.pointAt?_addAll _ hx).2, Curve.lastAt?_append]

theorem refuses_iff {item : Value × Nat} {cause : Failure} :
    Refuses files h path item cause ↔ entryOf files h path item = .error cause := by
  constructor
  · intro hrefuses
    cases hrefuses with
    | @noTable v position hv =>
        cases v with
        | table entry => exact absurd rfl (hv entry)
        | _ => rfl
    | gasText hgas => exact entryOf_of_no_source (by rw [sourceOf, hgas, error_bind])
    | noGas hgas =>
        refine entryOf_of_no_source ?_
        rw [sourceOf, hgas]
        rfl
    | sectorText hgas hne hsector =>
        refine entryOf_of_no_source ?_
        rw [sourceOf, hgas, ok_bind, if_neg fun hempty => hne (String.isEmpty_iff.1 hempty),
          hsector, error_bind]
    | points hkey hpoints => rw [entryOf_table hkey, hpoints, error_bind]
    | fields hkey hpoints hown => rw [entryOf_table hkey, hpoints, ok_bind, hown, error_bind]
  · intro hentry
    obtain ⟨v, position⟩ := item
    cases v with
    | table entry =>
        rcases hasKey_or_refuses files h path entry position with
          ⟨key, hkey⟩ | ⟨failure, hrefuses, hsource, -⟩
        · rw [entryOf_table hkey] at hentry
          cases hpoints : tablePoints files entry path with
          | error failure =>
              rw [hpoints] at hentry
              cases hentry
              exact .points hkey hpoints
          | ok points =>
              rw [hpoints, ok_bind] at hentry
              cases hown : ownStrategy h key entry with
              | error failure =>
                  rw [hown] at hentry
                  cases hentry
                  exact .fields hkey hpoints hown
              | ok own =>
                  rw [hown] at hentry
                  cases hentry
        · rw [entryOf_of_no_source hsource] at hentry
          cases hentry
          exact hrefuses
    | _ =>
        cases hentry
        exact .noTable fun entry heq => by cases heq

theorem describes_of_entryOf {item : Value × Nat} {e : SourceKey × Strategy Float}
    (hentry : entryOf files h path item = .ok e) : Describes files h path item e := by
  obtain ⟨v, position⟩ := item
  cases v with
  | table entry =>
      rcases hasKey_or_refuses files h path entry position with
        ⟨key, hkey⟩ | ⟨failure, hrefuses, -⟩
      · rw [entryOf_table hkey] at hentry
        obtain ⟨points, hpoints, hentry⟩ := bind_eq_ok_iff.1 hentry
        obtain ⟨own, hown, hentry⟩ := bind_eq_ok_iff.1 hentry
        cases hentry
        exact .table hkey hpoints (readFrom_ownStrategy hown points)
      · rw [refuses_iff.1 hrefuses] at hentry
        cases hentry
  | _ => cases hentry

theorem Describes.keyOf? {item : Value × Nat} {e : SourceKey × Strategy Float}
    (hdescribes : Describes files h path item e) : keyOf? item.1 = some e.1 := by
  cases hdescribes with
  | table hkey => exact hkey.keyOf?

/-! ## One entry after the other -/

/-- The keys of items, in order. -/
def keysIn (items : List (Value × Nat)) : List SourceKey :=
  items.filterMap fun item => keyOf? item.1

theorem keysIn_cons {item : Value × Nat} {key : SourceKey} (hkey : keyOf? item.1 = some key)
    (rest : List (Value × Nat)) : keysIn (item :: rest) = key :: keysIn rest :=
  List.filterMap_cons_some hkey

theorem keysIn_of_describes {items : List (Value × Nat)}
    {built : List (SourceKey × Strategy Float)}
    (hbuilt : List.Forall₂ (Describes files h path) items built) :
    keysIn items = built.map (·.1) := by
  induction hbuilt with
  | nil => rfl
  | cons hitem _ ih => rw [keysIn_cons hitem.keyOf?, ih, List.map_cons]

/-- The reports that keys deserve when others stand before them: one for each that occurred
before. -/
def repetitionsAmong (path : Path) (before : List SourceKey) : List SourceKey → List Notice
  | [] => []
  | key :: rest =>
    (if key ∈ before then [.repeatedEntry key.gas key.sector path.text] else []) ++
      repetitionsAmong path (before ++ [key]) rest

theorem repetitionsAmong_cons (path : Path) (before : List SourceKey) (key : SourceKey)
    (rest : List SourceKey) : repetitionsAmong path before (key :: rest) =
      repetitionsAmong path before [key] ++ repetitionsAmong path (before ++ [key]) rest := by
  rw [repetitionsAmong, repetitionsAmong, repetitionsAmong, List.append_nil]

theorem repetitions_fieldsOf : (fieldsOf files entry path).repetitions = [] := by
  rw [fieldsOf]
  refine Attempt.repetitions_bind_eq_nil rfl fun file? => ?_
  cases file? with
  | none => rfl
  | some file =>
      exact Attempt.repetitions_bind_eq_nil (Points.repetitions_load files file) fun _ => rfl

/-- An entry makes the report that its key deserves, whatever comes of it. -/
theorem repetitions_readEntry {cat : Catalogue Float} {before : List SourceKey}
    (hcat : ∀ key, Entries.has cat key = true ↔ key ∈ before) (item : Value × Nat) :
    (readEntry files h path cat item).repetitions =
      repetitionsAmong path before (keyOf? item.1).toList := by
  obtain ⟨v, position⟩ := item
  cases v with
  | table entry =>
      have hquiet : ∀ key : SourceKey, (do
          let fields ← fieldsOf files entry path
          let s ← (Strategy.fresh h key.label).parseTable fields
          return Entries.put cat key s : Attempt (Catalogue Float)).repetitions = [] := by
        intro key
        refine Attempt.repetitions_bind_eq_nil repetitions_fieldsOf fun fields => ?_
        exact Attempt.repetitions_bind_eq_nil (Strategy.repetitions_parseTable _ _) fun _ => rfl
      rw [readEntry]
      dsimp only
      rcases hasKey_or_refuses files h path entry position with
        ⟨key, hkey⟩ | ⟨failure, -, hsource, hnone⟩
      · rw [hkey.sourceOf, Attempt.ofExcept_ok, pure_bind, hkey.keyOf?, Option.toList_some,
          repetitionsAmong, repetitionsAmong, List.append_nil]
        simp only [← hcat]
        split
        · rw [Attempt.repetitions_bind (a := report _) rfl, hquiet, List.append_nil]
          rfl
        · exact hquiet _
      · rw [hsource, hnone]
        rfl
  | _ => rfl

/-- Items are read to the end, or up to the first one that is refused. -/
theorem readEntries_cases (files : FileTree) (h : Horizon) (path : Path)
    (items : List (Value × Nat)) {cat : Catalogue Float}
    {seen : List SourceKey} (hcat : ∀ key, Entries.has cat key = true ↔ key ∈ seen) :
    (∃ built, List.Forall₂ (Describes files h path) items built ∧
      (items.foldlM (readEntry files h path) cat).outcome =
        .ok (built.foldl (fun cat e => Entries.put cat e.1 e.2) cat) ∧
      (items.foldlM (readEntry files h path) cat).repetitions =
        repetitionsAmong path seen (keysIn items)) ∨
    ∃ before item after cause, items = before ++ item :: after ∧
      (∀ earlier ∈ before, ∀ failure, ¬Refuses files h path earlier failure) ∧
      Refuses files h path item cause ∧
      (items.foldlM (readEntry files h path) cat).outcome = .error cause ∧
      (items.foldlM (readEntry files h path) cat).repetitions =
        repetitionsAmong path seen (keysIn (before ++ [item])) := by
  induction items generalizing cat seen with
  | nil => exact .inl ⟨[], .nil, rfl, rfl⟩
  | cons item rest ih =>
      -- the outcome of the step does not depend on what was read before, its report on the keys only
      have hstep : (readEntry files h path cat item).outcome = _ := outcome_readEntry cat item
      have hreport : (readEntry files h path cat item).repetitions = _ :=
        repetitions_readEntry hcat item
      rw [List.foldlM_cons]
      cases hentry : entryOf files h path item with
      | error cause =>
          rw [hentry, error_bind] at hstep
          refine .inr ⟨[], item, rest, cause, rfl, by simp, refuses_iff.2 hentry, ?_, ?_⟩
          · rw [Attempt.outcome_bind, hstep, error_bind]
          · have hkeys : keysIn [item] = (Catalogue.keyOf? item.1).toList := by
              rw [keysIn, List.filterMap_cons, List.filterMap_nil]
              cases Catalogue.keyOf? item.1 <;> rfl
            rw [Attempt.repetitions_bind_error hstep, hreport, List.nil_append, hkeys]
      | ok e =>
          rw [hentry, ok_bind] at hstep
          have hdescribes := describes_of_entryOf hentry
          have hkeys := keysIn_cons hdescribes.keyOf?
          have hcat : ∀ key, Entries.has (Entries.put cat e.1 e.2) key = true ↔
              key ∈ seen ++ [e.1] := by
            intro key
            rw [Entries.has_put, hcat, List.mem_append, List.mem_singleton, or_comm]
          rw [hdescribes.keyOf?, Option.toList_some] at hreport
          rw [Attempt.outcome_bind, hstep, ok_bind, Attempt.repetitions_bind hstep, hreport]
          rcases ih hcat with ⟨built, hbuilt, houtcome, hrest⟩ |
            ⟨before, other, after, cause, rfl, hbefore, hrefuses, houtcome, hrest⟩
          · refine .inl ⟨e :: built, .cons hdescribes hbuilt, houtcome, ?_⟩
            rw [hrest, hkeys, ← repetitionsAmong_cons]
          · refine .inr ⟨item :: before, other, after, cause, rfl, ?_, hrefuses, houtcome, ?_⟩
            · refine List.forall_mem_cons.2 ⟨fun failure hfailure => ?_, hbefore⟩
              rw [refuses_iff, hentry] at hfailure
              cases hfailure
            · rw [hrest, List.cons_append, hkeys, ← repetitionsAmong_cons]

/-- A document is read entry by entry. The first one that is refused ends the reading with its
failure; else each key has the strategy that the last entry with it describes, and the keys stand
in the order in which they first occurred. Either way each key that occurred before is reported. -/
theorem ofDocument_reads_entries (files : FileTree) (h : Horizon) (path : Path)
    (document : List (String × Value)) :
    match itemsOf document path with
    | .error cause => (ofDocument files h path document).outcome = .error cause
    | .ok items =>
      (∃ built cat, List.Forall₂ (Describes files h path) items.zipIdx built ∧
        (ofDocument files h path document).outcome = .ok cat ∧
        Entries.keys cat = (keysIn items.zipIdx).eraseDups ∧
        (∀ key, Entries.get? cat key =
          ((built.filter fun e => e.1 == key).getLast?).map (·.2)) ∧
        (ofDocument files h path document).repetitions =
          repetitionsAmong path [] (keysIn items.zipIdx)) ∨
      ∃ before item after cause, items.zipIdx = before ++ item :: after ∧
        (∀ earlier ∈ before, ∀ failure, ¬Refuses files h path earlier failure) ∧
        Refuses files h path item cause ∧
        (ofDocument files h path document).outcome = .error cause ∧
        (ofDocument files h path document).repetitions =
          repetitionsAmong path [] (keysIn (before ++ [item])) := by
  rw [ofDocument, Attempt.outcome_bind, Attempt.outcome_ofExcept]
  cases itemsOf document path with
  | error cause => rfl
  | ok items =>
      dsimp only
      rw [ok_bind, Attempt.ofExcept_ok, pure_bind]
      have hnone : ∀ key : SourceKey, Entries.has ([] : Catalogue Float) key = true ↔ key ∈ [] :=
        fun key => iff_of_false Bool.false_ne_true List.not_mem_nil
      rcases readEntries_cases files h path items.zipIdx hnone with
        ⟨built, hbuilt, houtcome, hreports⟩ |
        ⟨before, item, after, cause, hsplit, hbefore, hrefuses, houtcome, hreports⟩
      · refine .inl ⟨built, Entries.ofAssignments built, hbuilt, ?_, ?_, ?_, ?_⟩
        · rw [Attempt.outcome_bind, houtcome]
          rfl
        · rw [Entries.keys_ofAssignments, keysIn_of_describes hbuilt]
        · exact Entries.get?_ofAssignments built
        · rw [Attempt.repetitions_bind houtcome, hreports]
          exact List.append_nil _
      · refine .inr ⟨before, item, after, cause, hsplit, hbefore, hrefuses, ?_, ?_⟩
        · rw [Attempt.outcome_bind, houtcome]
          rfl
        · rw [Attempt.repetitions_bind_error houtcome, hreports]

open Strategy (threeYears)

/-! A document with one key twice, the second time with a table of points that is named in front of
the entry's own points, and with another key. -/

def replacedPath : Path := ⟨.single, ["curves", "mac.toml"]⟩

def replacedFiles : FileTree :=
  ⟨[(["curves"], .directory),
    (["curves", "points.csv"], .file "tax,reduction\n100,0.25\n200,0.75\n".toUTF8)], []⟩

def replacedItems : List Value :=
  [.table [("gas", .text "CO2"), ("phaseIn", .int 5), ("reduction", .list [.int 7, .float 0.7])],
    .table [("points_file", .text "points.csv"), ("gas", .text " CO2 "),
      ("reduction", .list [.list [.int 0, .int 0], .list [.int 100, .float 0.5]])],
    .table [("gas", .text "CH4"), ("sector", .text "Energy")]]

def replacedCatalogue : Catalogue Float :=
  [(⟨"CO2", ""⟩, ⟨"CO2", Settings.default threeYears, ⟨[⟨0, 0⟩, ⟨100, 0.25⟩, ⟨200, 0.75⟩]⟩⟩),
    (⟨"CH4", "Energy"⟩, Strategy.fresh threeYears "CH4/Energy")]

/-- Of the first entry nothing is left but the place, and the table's point is the one that counts at
the price where both have one. -/
theorem ofDocument_reads_entries_replaced :
    itemsOf [("mac", .list replacedItems)] replacedPath = .ok replacedItems ∧
      (ofDocument replacedFiles threeYears replacedPath [("mac", .list replacedItems)]).outcome =
        .ok replacedCatalogue ∧
      (∃ built, List.Forall₂ (Describes replacedFiles threeYears replacedPath) replacedItems.zipIdx
          built ∧
        ∀ key, Entries.get? replacedCatalogue key =
          ((built.filter fun e => e.1 == key).getLast?).map (·.2)) ∧
      (ofDocument replacedFiles threeYears replacedPath [("mac", .list replacedItems)]).repetitions =
        [.repeatedEntry "CO2" "" "/curves/mac.toml"] := by
  have hitems : itemsOf [("mac", .list replacedItems)] replacedPath = .ok replacedItems := rfl
  have hread : (ofDocument replacedFiles threeYears replacedPath
      [("mac", .list replacedItems)]).outcome = .ok replacedCatalogue := by
    rw [← toOption_eq_some_iff]
    decide +kernel
  have hkeys : keysIn replacedItems.zipIdx = [⟨"CO2", ""⟩, ⟨"CO2", ""⟩, ⟨"CH4", "Energy"⟩] := by
    decide +kernel
  have hall := ofDocument_reads_entries replacedFiles threeYears replacedPath
    [("mac", .list replacedItems)]
  rw [hitems] at hall
  rcases hall with ⟨built, cat, hbuilt, hcat, -, hlast, hreports⟩ | ⟨_, _, _, _, _, _, _, hfail, _⟩
  · rw [hread] at hcat
    obtain rfl := Except.ok.inj hcat
    rw [hkeys] at hreports
    exact ⟨hitems, hread, ⟨built, hbuilt, hlast⟩, hreports⟩
  · rw [hread] at hfail
    cases hfail

/-- An entry whose gas has no text. -/
def longGas : List (String × Value) := [("gas", .tooLong)]

/-- An entry is refused although it is a table, does not have a blank gas, names no table of points
and has fields that can be read. -/
theorem ofDocument_refuses_long_gas :
    (ofDocument .empty threeYears replacedPath [("mac", .list [.table longGas])]).outcome =
        .error .unwritableInteger ∧
      nameOf longGas "gas" ≠ .ok "" ∧ tablePoints .empty longGas replacedPath = .ok [] ∧
      ∀ key, ∃ s, ownStrategy threeYears key longGas = .ok s := by
  have hgas : nameOf longGas "gas" = .error .unwritableInteger :=
    bind_pure_eq_error_iff.2 Value.toText_tooLong
  have hentry : (readEntry .empty threeYears replacedPath [] (.table longGas, 0)).outcome =
      .error .unwritableInteger := by
    rw [outcome_readEntry, refuses_iff.1 (.gasText hgas), error_bind]
  refine ⟨?_, ?_, rfl, fun key => ⟨_, rfl⟩⟩
  · have hitems : itemsOf [("mac", .list [.table longGas])] replacedPath = .ok [.table longGas] :=
      rfl
    rw [ofDocument, hitems, Attempt.ofExcept_ok, pure_bind, List.zipIdx_singleton, List.foldlM_cons,
      Attempt.outcome_bind, Attempt.outcome_bind, hentry]
    rfl
  · rw [hgas]
    intro hblank
    cases hblank

end Catalogue

end Macc
