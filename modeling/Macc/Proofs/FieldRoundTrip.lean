import Macc.Proofs.Alike
import Macc.Proofs.CurveRebuild
import Macc.Proofs.Rereading
import Macc.Reduction.Fields

/-!
# Strategies written as fields and read back

Writing leaves out the settings that equal their defaults; reading starts from
the defaults and overwrites what is there. So what comes back is, field by
field, the setting that was written or else the default it was equal to.
`restored` is that: the settings overwritten in the order of writing.

Reading a field back cannot go wrong, but only because of where the settings
came from. A year is an integer of any size and a reader of years goes through
doubles; a name is trimmed by its reader. `Readable` is what every strategy that
was itself read satisfies, and it is kept by each field that is read, accepted
or refused.
-/

namespace Macc

/-- Whether two values are equal, nan counting as equal to nan. -/
def Value.Alike : Value → Value → Prop
  | .float x, .float y => Macc.Alike x y
  | v, w => v = w

theorem Value.Alike.refl (v : Value) : v.Alike v := by
  cases v with
  | float x => exact Macc.Alike.refl x
  | _ => rfl

namespace Settings

/-! ## One field at a time -/

/-- The settings with one field taken from others. -/
def copy (source s : Settings Float) : Field → Settings Float
  | .phaseIn => { s with phaseIn := source.phaseIn }
  | .costReductionRate => { s with costReductionRate := source.costReductionRate }
  | .baseCostYear => { s with baseCostYear := source.baseCostYear }
  | .fuelShiftRange => { s with fuelShiftRange := source.fuelShiftRange }
  | .shiftFuel => { s with shiftFuel := source.shiftFuel }
  | .finalReduction => { s with finalReduction := source.finalReduction }
  | .finalReductionYear => { s with finalReductionYear := source.finalReductionYear }
  | .noBelowZero => { s with noBelowZero := source.noBelowZero }

theorem get_copy (source s : Settings Float) (f g : Field) :
    (source.copy s f).get g = if g = f then source.get g else s.get g := by
  cases f <;> cases g <;> rfl

theorem get_foldl_copy (source s : Settings Float) (fields : List Field) (g : Field) :
    (fields.foldl source.copy s).get g = if g ∈ fields then source.get g else s.get g := by
  induction fields generalizing s with
  | nil => rfl
  | cons f rest ih =>
      rw [List.foldl_cons, ih, get_copy]
      by_cases hrest : g ∈ rest
      · rw [if_pos hrest, if_pos (List.mem_cons_of_mem f hrest)]
      · by_cases hf : g = f
        · rw [if_neg hrest, if_pos hf, if_pos (hf ▸ List.mem_cons_self)]
        · rw [if_neg hrest, if_neg hf, if_neg (by simp [hf, hrest])]

theorem alike_of_agree {s t : Settings Float} {f : Field} (h : s.agree t f = true) :
    (s.get f).Alike (t.get f) := by
  cases f with
  | phaseIn => exact .inl h
  | costReductionRate => exact .inl h
  | fuelShiftRange => exact .inl h
  | finalReduction => exact .inl h
  | baseCostYear => exact congrArg Value.int (eq_of_beq h)
  | finalReductionYear => exact congrArg Value.int (eq_of_beq h)
  | shiftFuel => exact congrArg Value.text (eq_of_beq h)
  | noBelowZero => exact congrArg Value.bool (eq_of_beq h)

theorem Alike.of_get {s t : Settings Float} (h : ∀ f, (s.get f).Alike (t.get f)) :
    s.Alike t where
  baseCostYear := Value.int.inj (h .baseCostYear)
  finalReductionYear := Value.int.inj (h .finalReductionYear)
  phaseIn := h .phaseIn
  costReductionRate := h .costReductionRate
  fuelShiftRange := h .fuelShiftRange
  shiftFuel := Value.text.inj (h .shiftFuel)
  finalReduction := h .finalReduction
  noBelowZero := Value.bool.inj (h .noBelowZero)

/-- Agreement in a field is a matter of the values there. -/
theorem agree_congr {s s' : Settings Float} {f : Field} (h : s.get f = s'.get f)
    (t : Settings Float) : s.agree t f = s'.agree t f := by
  cases f <;> cases s <;> cases s' <;> cases h <;> rfl

theorem agree_default (h : Horizon) (f : Field) :
    (default h : Settings Float).agree (default h) f = true := by
  have hone : ((Scalar.one : Float) == Scalar.one) = true := by decide +kernel
  have hzero : ((Scalar.zero : Float) == Scalar.zero) = true := by decide +kernel
  cases f with
  | baseCostYear => exact beq_self_eq_true h.baseYear
  | finalReductionYear => exact beq_self_eq_true h.endYear
  | phaseIn => exact hone
  | costReductionRate | fuelShiftRange | finalReduction => exact hzero
  | shiftFuel | noBelowZero => rfl

/-! ## What comes back -/

variable {h : Horizon} {s : Settings Float}

/-- The fields that are written. -/
def writtenFields (h : Horizon) (s : Settings Float) : List Field :=
  Field.written.filter fun f => !s.agree (default h) f

/-- The defaults, overwritten by the fields that are written. -/
def restored (h : Horizon) (s : Settings Float) : Settings Float :=
  (s.writtenFields h).foldl s.copy (default h)

theorem mem_writtenFields_iff {f : Field} :
    f ∈ s.writtenFields h ↔ s.agree (default h) f = false := by
  have hall : f ∈ Field.written := by
    cases f <;> decide
  rw [writtenFields, List.mem_filter, Bool.not_eq_true']
  exact and_iff_right hall

theorem get_restored (f : Field) : (s.restored h).get f =
    if s.agree (default h) f then (default h).get f else s.get f := by
  rw [restored, get_foldl_copy]
  cases hf : s.agree (default h) f with
  | true =>
      rw [if_neg, if_pos rfl]
      rw [mem_writtenFields_iff, hf]
      exact Bool.noConfusion
  | false => rw [if_pos (mem_writtenFields_iff.2 hf), if_neg Bool.false_ne_true]

theorem alike_restored (h : Horizon) (s : Settings Float) : s.Alike (s.restored h) := by
  apply Alike.of_get
  intro f
  rw [get_restored]
  split
  · next hf => exact alike_of_agree hf
  · exact Value.Alike.refl _

/-- What comes back differs from the defaults where the original did. -/
theorem agree_restored (f : Field) :
    (s.restored h).agree (default h) f = s.agree (default h) f := by
  have hget := get_restored (h := h) (s := s) f
  split at hget
  · next hf => rw [agree_congr hget, agree_default, hf]
  · exact agree_congr hget _

/-! ## Settings that were read -/

/-- Whether the settings of a strategy can be read from what is written of them. -/
structure Readable (h : Horizon) (s : Settings Float) : Prop where
  baseCostYear : s.baseCostYear = h.baseYear ∨
    (Value.int s.baseCostYear).toWhole = .ok s.baseCostYear
  finalReductionYear : s.finalReductionYear = h.endYear ∨
    (Value.int s.finalReductionYear).toWhole = .ok s.finalReductionYear
  shiftFuel : (Value.text s.shiftFuel).toName = .ok s.shiftFuel

theorem readable_default (h : Horizon) : (default h).Readable h where
  baseCostYear := .inl rfl
  finalReductionYear := .inl rfl
  shiftFuel := rfl

theorem Readable.set (hs : s.Readable h) {f : Field} {v : Value} {s' : Settings Float}
    (hset : s.set f v = .ok s') : s'.Readable h := by
  cases f with
  | phaseIn | costReductionRate | fuelShiftRange | finalReduction | noBelowZero =>
      obtain ⟨x, -, hx⟩ := bind_eq_ok_iff.1 hset
      cases hx
      exact ⟨hs.baseCostYear, hs.finalReductionYear, hs.shiftFuel⟩
  | baseCostYear =>
      obtain ⟨year, hread, hyear⟩ := bind_eq_ok_iff.1 hset
      cases hyear
      exact ⟨.inr (Value.toWhole_of_toWhole hread), hs.finalReductionYear, hs.shiftFuel⟩
  | finalReductionYear =>
      obtain ⟨year, hread, hyear⟩ := bind_eq_ok_iff.1 hset
      cases hyear
      exact ⟨hs.baseCostYear, .inr (Value.toWhole_of_toWhole hread), hs.shiftFuel⟩
  | shiftFuel =>
      obtain ⟨fuel, hread, hfuel⟩ := bind_eq_ok_iff.1 hset
      cases hfuel
      exact ⟨hs.baseCostYear, hs.finalReductionYear, Value.toName_of_toName hread⟩

/-- A field that is written is read as it was. -/
theorem Readable.set_get (hs : s.Readable h) {f : Field} (hf : s.agree (default h) f = false)
    (t : Settings Float) : t.set f (s.get f) = .ok (s.copy t f) := by
  cases f with
  | phaseIn | costReductionRate | fuelShiftRange | finalReduction | noBelowZero => rfl
  | baseCostYear =>
      rcases hs.baseCostYear with hdefault | hread
      · rw [agree, hdefault] at hf
        cases (beq_self_eq_true h.baseYear).symm.trans hf
      · exact bind_eq_ok_iff.2 ⟨_, hread, rfl⟩
  | finalReductionYear =>
      rcases hs.finalReductionYear with hdefault | hread
      · rw [agree, hdefault] at hf
        cases (beq_self_eq_true h.endYear).symm.trans hf
      · exact bind_eq_ok_iff.2 ⟨_, hread, rfl⟩
  | shiftFuel => exact bind_eq_ok_iff.2 ⟨_, hs.shiftFuel, rfl⟩

end Settings

/-! ## Control points -/

namespace ReductionField

theorem readEntry_pointTable (p : Float × Float) :
    readEntry (Strategy.pointTable p) = .ok p := rfl

theorem readEntries_pointTables (owner : String) (pairs : List (Float × Float)) :
    readEntries owner (pairs.map Strategy.pointTable) = pure pairs := by
  induction pairs with
  | nil => rfl
  | cons p rest ih =>
      rw [List.map_cons, readEntries, readEntry_pointTable, ih]
      rfl

/-- A list of tables is never taken for one bare pair. -/
theorem entries?_pointTables (pairs : List (Float × Float)) :
    entries? (.list (pairs.map Strategy.pointTable)) =
      some (pairs.map Strategy.pointTable) := by
  match pairs with
  | [] | [_] | [_, _] | _ :: _ :: _ :: _ => rfl

theorem read_pointTables (owner : String) (pairs : List (Float × Float)) :
    read owner (.list (pairs.map Strategy.pointTable)) = pure pairs := by
  rw [read, entries?_pointTables]
  exact readEntries_pointTables owner pairs

end ReductionField

/-! ## Strategies -/

theorem Field.canonicalName_name (f : Field) : Field.canonicalName f.name = f.name := by
  cases f <;> decide +kernel

theorem Field.ofName?_name (f : Field) : Field.ofName? f.name = some f := by
  cases f <;> decide +kernel

theorem Field.name_ne_reduction (f : Field) : (f.name == reductionField) = false := by
  cases f <;> decide +kernel

namespace Strategy

/-- What holds of every strategy that was read from fields. -/
structure WasRead (h : Horizon) (name : String) (s : Strategy Float) : Prop where
  name_eq : s.name = name
  readable : s.settings.Readable h
  orderly : s.curve.Orderly

variable {h : Horizon} {name : String}

theorem wasRead_fresh (h : Horizon) (name : String) : (fresh h name).WasRead h name :=
  ⟨rfl, Settings.readable_default h, Curve.orderly_empty⟩

theorem WasRead.readField {s s' : Strategy Float} (hs : s.WasRead h name) {item : Value}
    (hread : (s.readField item).outcome = .ok s') : s'.WasRead h name := by
  rw [Strategy.readField] at hread
  obtain ⟨⟨rawName, value⟩, -, hread⟩ := Attempt.outcome_bind_eq_ok_iff.1 hread
  obtain ⟨written, -, hread⟩ := Attempt.outcome_bind_eq_ok_iff.1 hread
  dsimp only at hread
  split at hread
  · obtain ⟨points, -, hread⟩ := Attempt.outcome_bind_eq_ok_iff.1 hread
    obtain ⟨curve, hcurve, hread⟩ := Attempt.outcome_bind_eq_ok_iff.1 hread
    cases hcurve
    cases hread
    exact ⟨hs.name_eq, hs.readable, hs.orderly.addAll points⟩
  · split at hread
    · obtain ⟨-, -, hread⟩ := Attempt.outcome_bind_eq_ok_iff.1 hread
      cases hread
      exact hs
    · split at hread
      · next hset =>
          cases hread
          exact ⟨hs.name_eq, hs.readable.set hset, hs.orderly⟩
      · split at hread
        · obtain ⟨-, -, hread⟩ := Attempt.outcome_bind_eq_ok_iff.1 hread
          cases hread
          exact hs
        · cases hread

theorem WasRead.parseTable {s s' : Strategy Float} (hs : s.WasRead h name)
    {fields : List (String × Value)} (hread : (s.parseTable fields).outcome = .ok s') :
    s'.WasRead h name := by
  have hstart : { s with curve := Curve.empty }.WasRead h name :=
    ⟨hs.name_eq, hs.readable, Curve.orderly_empty⟩
  exact Attempt.foldlM_invariant (fun _ _ _ hs hread => hs.readField hread) hstart hread

/-- What reading a field comes to, once its name is known. -/
theorem readField_fieldItem (s : Strategy Float) (rawName : String) (v : Value) :
    s.readField (fieldItem rawName v) =
      if Field.canonicalName rawName == reductionField then (do
        let points ← ReductionField.read s.name v
        let curve ← Attempt.ofLogged (s.curve.addAll points)
        return { s with curve })
      else
        match Field.ofName? (Field.canonicalName rawName) with
        | none => do
          report (.unknownField rawName)
          return s
        | some field =>
          match s.settings.set field v with
          | .ok settings => return { s with settings }
          | .error cause =>
            if cause.isBadValue then (do
              report (.invalidField v (Field.canonicalName rawName) s.name
                (s.settings.get field) cause)
              return s)
            else throw cause := by
  have hsplit : splitField (fieldItem rawName v) = .ok (.text rawName, v) := rfl
  rw [Strategy.readField, hsplit, Attempt.ofExcept_ok, pure_bind]
  dsimp only
  rw [Value.toText_text, Attempt.ofExcept_ok]
  exact pure_bind _ _

/-- A setting that is read as `settings` and nothing to report. -/
theorem readField_setting (s : Strategy Float) {f : Field} {v : Value}
    {settings : Settings Float} (hset : s.settings.set f v = .ok settings) :
    s.readField (fieldItem f.name v) = pure { s with settings } := by
  rw [readField_fieldItem, Field.canonicalName_name, Field.name_ne_reduction, Field.ofName?_name]
  dsimp only
  rw [hset]
  rfl

theorem readFields_settings (s : Strategy Float) {source : Settings Float}
    (hsource : source.Readable h) {fields : List Field}
    (hfields : ∀ f ∈ fields, source.agree (Settings.default h) f = false) :
    ((fields.map fun f => (f.name, source.get f)).map fun e => fieldItem e.1 e.2).foldlM
        readField s =
      pure { s with settings := fields.foldl source.copy s.settings } := by
  induction fields generalizing s with
  | nil => rfl
  | cons f rest ih =>
      have hf := hsource.set_get (hfields f List.mem_cons_self) s.settings
      rw [List.map_cons, List.map_cons, List.foldlM_cons, readField_setting s hf, pure_bind, ih]
      · rfl
      · intro g hg
        exact hfields g (List.mem_cons_of_mem f hg)

/-- Control points that ascend are read onto an empty curve as they are. -/
theorem readField_reduction (s : Strategy Float) (hempty : s.curve = Curve.empty)
    {curve : Curve Float} (hc : curve.Ascending) :
    s.readField (fieldItem reductionField (.list (curve.pairs.map pointTable))) =
      pure { s with curve } := by
  have hname : Field.canonicalName reductionField = reductionField := by decide +kernel
  rw [readField_fieldItem, hname, beq_self_eq_true, if_pos rfl, ReductionField.read_pointTables,
    pure_bind, hempty, hc.addAll_pairs, Attempt.ofLogged_pure, pure_bind]

/-- The strategy that is read from what is written of a strategy. -/
def restored (h : Horizon) (s : Strategy Float) : Strategy Float :=
  { s with settings := s.settings.restored h }

/-- The fields of a strategy are read back without a report. -/
theorem parseTable_toFields {s : Strategy Float} (hs : s.WasRead h name)
    (hn : s.curve.Numeric) :
    (fresh h name).parseTable (s.toFields h) = pure (s.restored h) := by
  have hwritten : ∀ f ∈ s.settings.writtenFields h,
      s.settings.agree (Settings.default h) f = false := by
    intro f hf
    exact Settings.mem_writtenFields_iff.1 hf
  rw [parseTable, parse, toFields, List.map_append, List.foldlM_append]
  have hsettings := readFields_settings { fresh h name with curve := Curve.empty } hs.readable
    hwritten
  change (List.map (fun e => fieldItem e.1 e.2) (s.writtenSettings h)).foldlM _ _ = _ at hsettings
  rw [hsettings, pure_bind, List.map_singleton, List.foldlM_cons,
    readField_reduction _ rfl (hs.orderly hn), pure_bind, ← hs.name_eq]
  rfl

theorem writtenSettings_restored (s : Strategy Float) :
    (s.restored h).writtenSettings h = s.writtenSettings h := by
  have hagree : ∀ f, (s.settings.restored h).agree (Settings.default h) f =
      s.settings.agree (Settings.default h) f := fun f => Settings.agree_restored f
  rw [writtenSettings, writtenSettings, restored]
  simp only [hagree]
  apply List.map_congr_left
  intro f hf
  have hwritten := Settings.mem_writtenFields_iff.1 hf
  rw [Settings.get_restored, hwritten, if_neg Bool.false_ne_true]

theorem toFields_restored (s : Strategy Float) : (s.restored h).toFields h = s.toFields h := by
  rw [toFields, writtenSettings_restored]
  rfl

/-- Whether two strategies are the same: name, settings up to likeness, control points, and what
they abate in any economy. -/
structure Same (s t : Strategy Float) : Prop where
  name : s.name = t.name
  settings : s.settings.Alike t.settings
  curve : s.curve = t.curve
  reduction : ∀ (e : Economy Float) (region : String) (period : Int),
    (s.reduction e region period).outcome = (t.reduction e region period).outcome

theorem same_restored (h : Horizon) (s : Strategy Float) : s.Same (s.restored h) where
  name := rfl
  settings := Settings.alike_restored h s.settings
  curve := rfl
  reduction := outcome_reduction_congr (Settings.alike_restored h s.settings) rfl

end Strategy

end Macc
