import Macc.Proofs.Definedness
import Macc.Proofs.FieldRoundTrip

/-!
# What a field refuses, and what stops the reading

A value that cannot be read as what its field needs is refused: it is reported,
and the reading goes on as if it were not there. One thing is not refused but
stops the reading altogether, an integer beyond all doubles where a double is
wanted. So a list of fields is read to its end exactly when no such integer is
asked for, and what is read then is what the accepted values alone say.

Where a double is wanted is settled reader by reader. Names and flags want none.
Years do, because they are compared with the double next to them. Of a control
point the tax is read first, so an integer in the place of the value is asked
for only when the tax could be read.
-/

namespace Macc

/-! ## Readers of one value -/

/-- Whether a reading has a value or refuses one of poor quality. -/
def Settles {α : Type} (r : Except Failure α) : Prop :=
  (∃ a, r = .ok a) ∨ ∃ cause, r = .error cause ∧ cause.isBadValue = true

theorem Settles.map {α β : Type} {r : Except Failure α} (h : Settles r) (f : α → β) :
    Settles (r >>= fun a => pure (f a)) := by
  rcases h with ⟨a, rfl⟩ | ⟨cause, rfl, hbad⟩
  · exact .inl ⟨f a, rfl⟩
  · exact .inr ⟨cause, rfl, hbad⟩

namespace Value

/-- Whether a value can be asked for a double: it is no integer beyond all doubles. -/
def FitsReal : Value → Prop
  | .int n => FitsDouble n
  | _ => True

theorem toReal_settles {v : Value} (h : v.FitsReal) : Settles v.toReal := by
  cases v with
  | int n => exact .inl ((floatOfInt_ok_iff n).2 h)
  | bool b => exact .inl ⟨_, rfl⟩
  | float x => exact .inl ⟨x, rfl⟩
  | text s =>
      rw [toReal]
      split
      · next x _ => exact .inl ⟨x, rfl⟩
      · exact .inr ⟨_, rfl, rfl⟩
  | null | list _ | table _ | date _ | time _ | moment _ => exact .inr ⟨_, rfl, rfl⟩

theorem toReal_of_not_fits {v : Value} (h : ¬v.FitsReal) :
    v.toReal = .error .integerTooLarge := by
  cases v with
  | int n => exact floatOfInt_of_not_fits h
  | _ => exact absurd trivial h

theorem toWhole_settles {v : Value} (h : v.FitsReal) : Settles v.toWhole := by
  rw [toWhole.eq_def]
  split
  · exact .inr ⟨_, rfl, rfl⟩
  · rcases toReal_settles h with ⟨x, hx⟩ | ⟨cause, hcause, hbad⟩
    · rw [hx, ok_bind]
      split
      · next hinteger =>
          obtain ⟨n, hn⟩ := Binary64.exists_truncate hinteger
          exact .inl ⟨n, by rw [truncateFloat, hn]⟩
      · exact .inr ⟨_, rfl, rfl⟩
    · rw [hcause, error_bind]
      exact .inr ⟨cause, rfl, hbad⟩

theorem toWhole_of_not_fits {v : Value} (h : ¬v.FitsReal) :
    v.toWhole = .error .integerTooLarge := by
  rw [toWhole.eq_def]
  split
  · exact absurd trivial h
  · rw [toReal_of_not_fits h, error_bind]

theorem toFlag_settles (v : Value) : Settles v.toFlag := by
  rw [toFlag.eq_def]
  dsimp only
  split
  · exact .inl ⟨_, rfl⟩
  · split
    · exact .inr ⟨_, rfl, rfl⟩
    · exact .inr ⟨_, rfl, rfl⟩

theorem toText_settles (v : Value) : Settles v.toText := by
  rw [toText]
  split
  · exact .inl ⟨_, rfl⟩
  · exact .inr ⟨_, rfl, rfl⟩

/-- The least integer that has no text. -/
@[irreducible]
def tooLong : Value := .int (Nat.pow 10 Decimal.integerDigitLimit : Nat)

theorem toText_tooLong : tooLong.toText = .error .unwritableInteger := by
  rw [toText, tooLong, if_neg]
  rw [isWritable_int_iff, Int.natAbs_natCast]
  exact Nat.lt_irrefl _

/-- What has no text is refused as a name for that. -/
theorem toName_of_no_text {v : Value} {cause : Failure} (h : v.toText = .error cause) :
    v.toName = .error cause := by
  cases v with
  | null => cases h
  | _ => exact bind_pure_eq_error_iff.2 h

theorem toName_settles (v : Value) : Settles v.toName := by
  cases v with
  | null => exact .inr ⟨_, rfl, rfl⟩
  | _ => exact (toText_settles _).map _

end Value

/-! ## Settings -/

/-- Whether a field can be given a value, to be read or refused. -/
def Field.Takes (f : Field) (v : Value) : Prop :=
  match f with
  | .shiftFuel | .noBelowZero => True
  | _ => v.FitsReal

namespace Settings

variable {s t : Settings Float} {f : Field} {v : Value}

theorem set_settles (s : Settings Float) (h : f.Takes v) : Settles (s.set f v) := by
  cases f with
  | phaseIn | costReductionRate | fuelShiftRange | finalReduction =>
      exact (Value.toReal_settles h).map _
  | baseCostYear | finalReductionYear => exact (Value.toWhole_settles h).map _
  | shiftFuel => exact (Value.toName_settles v).map _
  | noBelowZero => exact (Value.toFlag_settles v).map _

theorem set_of_not_takes (s : Settings Float) (h : ¬f.Takes v) :
    s.set f v = .error .integerTooLarge := by
  cases f with
  | phaseIn | costReductionRate | fuelShiftRange | finalReduction =>
      exact bind_pure_eq_error_iff.2 (Value.toReal_of_not_fits h)
  | baseCostYear | finalReductionYear =>
      exact bind_pure_eq_error_iff.2 (Value.toWhole_of_not_fits h)
  | shiftFuel | noBelowZero => exact absurd trivial h

theorem set_eq_error (t : Settings Float) {cause : Failure} (h : s.set f v = .error cause) :
    t.set f v = .error cause := by
  cases f <;> exact bind_pure_eq_error_iff.2 (bind_pure_eq_error_iff.1 h)

end Settings

/-! ## Control points -/

namespace ReductionField

/-- Whether a failure to read an entry leads to a report and not to the end of the reading. -/
def Skipped (cause : Failure) : Prop :=
  (cause.isBadValue || cause.kind == .key) = true

/-- Whether an entry can be given, to be read or refused. -/
def Takes : Value → Prop
  | .table entries => ∀ tax, Entries.get? entries "tax" = some tax → tax.FitsReal ∧
      ∀ x value, tax.toReal = .ok x → Entries.get? entries "value" = some value → value.FitsReal
  | .list [a, b] => isPair (.list [a, b]) = true →
      a.FitsReal ∧ ∀ x, a.toReal = .ok x → b.FitsReal
  | _ => True

theorem readPair_settles {a b : Value} (ha : a.FitsReal)
    (hb : ∀ x, a.toReal = .ok x → b.FitsReal) :
    Settles (do
      let tax ← a.toReal
      let value ← b.toReal
      return (tax, value)) := by
  rcases Value.toReal_settles ha with ⟨x, hx⟩ | ⟨cause, hcause, hbad⟩
  · rw [hx, ok_bind]
    exact (Value.toReal_settles (hb x hx)).map _
  · rw [hcause, error_bind]
    exact .inr ⟨cause, rfl, hbad⟩

theorem readEntry_settles {entry : Value} (h : Takes entry) :
    (∃ p, readEntry entry = .ok p) ∨ ∃ cause, readEntry entry = .error cause ∧ Skipped cause := by
  have hskipped : ∀ {r : Except Failure (Float × Float)}, Settles r →
      (∃ p, r = .ok p) ∨ ∃ cause, r = .error cause ∧ Skipped cause := by
    rintro r (hr | ⟨cause, hcause, hbad⟩)
    · exact .inl hr
    · exact .inr ⟨cause, hcause, by rw [Skipped, hbad, Bool.true_or]⟩
  match entry, h with
  | .table entries, h =>
      rw [readEntry, required, required]
      cases htax : Entries.get? entries "tax" with
      | none => exact .inr ⟨_, rfl, rfl⟩
      | some tax =>
          obtain ⟨hfits, hvalue⟩ := h tax htax
          cases hget : Entries.get? entries "value" with
          | none =>
              rcases Value.toReal_settles hfits with ⟨x, hx⟩ | ⟨cause, hcause, hbad⟩
              · rw [ok_bind, hx]
                exact .inr ⟨_, rfl, rfl⟩
              · rw [ok_bind, hcause]
                exact .inr ⟨cause, rfl, by rw [Skipped, hbad, Bool.true_or]⟩
          | some value => exact hskipped (readPair_settles hfits fun x hx => hvalue x value hx hget)
  | .list [a, b], h =>
      rw [readEntry]
      split
      · next hpair =>
          obtain ⟨hfits, hsecond⟩ := h hpair
          exact hskipped (readPair_settles hfits hsecond)
      · exact .inr ⟨_, rfl, rfl⟩
  | .list [], _ | .list [_], _ | .list (_ :: _ :: _ :: _), _ => exact .inr ⟨_, rfl, rfl⟩
  | .null, _ | .bool _, _ | .int _, _ | .float _, _ | .text _, _ | .date _, _ | .time _, _
  | .moment _, _ => exact .inr ⟨_, rfl, rfl⟩

theorem readEntry_of_not_takes {entry : Value} (h : ¬Takes entry) :
    readEntry entry = .error .integerTooLarge := by
  match entry, h with
  | .table entries, h =>
      simp only [Takes, not_forall, not_and_or] at h
      obtain ⟨tax, htax, hfits | ⟨x, value, hx, hget, hfits⟩⟩ := h
      · rw [readEntry, required, htax, ok_bind, Value.toReal_of_not_fits hfits, error_bind]
      · rw [readEntry, required, htax, ok_bind, hx, ok_bind, required, hget, ok_bind,
          Value.toReal_of_not_fits hfits, error_bind]
  | .list [a, b], h =>
      simp only [Takes, not_forall, not_and_or] at h
      obtain ⟨hpair, hfits | ⟨x, hx, hfits⟩⟩ := h
      · rw [readEntry, if_pos hpair, Value.toReal_of_not_fits hfits, error_bind]
      · rw [readEntry, if_pos hpair, hx, ok_bind, Value.toReal_of_not_fits hfits, error_bind]
  | .list [], h | .list [_], h | .list (_ :: _ :: _ :: _), h => exact absurd trivial h
  | .null, h | .bool _, h | .int _, h | .float _, h | .text _, h | .date _, h | .time _, h
  | .moment _, h => exact absurd trivial h

def accepted (entries : List Value) : List (Float × Float) :=
  entries.filterMap fun entry => (readEntry entry).toOption

variable {owner : String} {entry : Value} {entries rest : List Value}

theorem accepted_cons_of_ok {p : Float × Float} (h : readEntry entry = .ok p) :
    accepted (entry :: rest) = p :: accepted rest :=
  List.filterMap_cons_some (by rw [h]; rfl)

theorem accepted_cons_of_error {cause : Failure} (h : readEntry entry = .error cause) :
    accepted (entry :: rest) = accepted rest :=
  List.filterMap_cons_none (by rw [h]; rfl)

theorem readEntries_of_skipped {cause : Failure} (h : readEntry entry = .error cause)
    (hskip : Skipped cause) :
    readEntries owner (entry :: rest) = (do
      report (.ignoredEntry entry owner cause)
      readEntries owner rest) := by
  rw [Skipped] at hskip
  rw [readEntries, h]
  dsimp only
  rw [if_pos hskip]

theorem readEntries_of_ok {p : Float × Float} (h : readEntry entry = .ok p) :
    readEntries owner (entry :: rest) = do
      let points ← readEntries owner rest
      return p :: points := by
  rw [readEntries, h]

theorem outcome_readEntries (h : ∀ e ∈ entries, Takes e) :
    (readEntries owner entries).outcome = .ok (accepted entries) := by
  induction entries with
  | nil => rfl
  | cons entry rest ih =>
      have hrest := ih fun e he => h e (List.mem_cons_of_mem _ he)
      rcases readEntry_settles (h entry List.mem_cons_self) with ⟨p, hp⟩ | ⟨cause, hcause, hskip⟩
      · rw [readEntries_of_ok hp, Attempt.outcome_bind, hrest, accepted_cons_of_ok hp]
        rfl
      · rw [readEntries_of_skipped hcause hskip, Attempt.outcome_bind,
          accepted_cons_of_error hcause]
        exact hrest

theorem ignoredEntry_mem_log (h : ∀ e ∈ entries, Takes e)
    (hentry : entry ∈ entries) {cause : Failure} (hcause : readEntry entry = .error cause) :
    .ignoredEntry entry owner cause ∈ (readEntries owner entries).log := by
  induction entries with
  | nil => cases hentry
  | cons first rest ih =>
      have htakes : ∀ e ∈ rest, Takes e := fun e he => h e (List.mem_cons_of_mem _ he)
      have hlater := ih htakes
      rcases readEntry_settles (h first List.mem_cons_self) with ⟨p, hp⟩ | ⟨other, hother, hskip⟩
      · have hrest : entry ∈ rest := by
          rcases List.mem_cons.1 hentry with rfl | hrest
          · rw [hp] at hcause
            cases hcause
          · exact hrest
        rw [readEntries_of_ok hp, Attempt.log_bind (outcome_readEntries htakes)]
        exact List.mem_append_left _ (hlater hrest)
      · rw [readEntries_of_skipped hother hskip]
        change _ ∈ .ignoredEntry first owner other :: (readEntries owner rest).log
        rcases List.mem_cons.1 hentry with rfl | hrest
        · rw [hother] at hcause
          cases hcause
          exact List.mem_cons_self
        · exact List.mem_cons_of_mem _ (hlater hrest)

theorem readEntries_of_not_takes (owner : String) (h : ¬∀ e ∈ entries, Takes e) :
    ∃ failure, (readEntries owner entries).outcome = .error failure := by
  induction entries with
  | nil => exact absurd (fun _ hmem => by cases hmem) h
  | cons entry rest ih =>
      by_cases hentry : Takes entry
      · have hrest : ¬∀ e ∈ rest, Takes e := by
          intro hall
          exact h (List.forall_mem_cons.2 ⟨hentry, hall⟩)
        obtain ⟨failure, hfailure⟩ := ih hrest
        refine ⟨failure, ?_⟩
        rcases readEntry_settles hentry with ⟨p, hp⟩ | ⟨cause, hcause, hskip⟩
        · rw [readEntries_of_ok hp, Attempt.outcome_bind, hfailure, error_bind]
        · rw [readEntries_of_skipped hcause hskip, Attempt.outcome_bind]
          exact hfailure
      · rw [readEntries, readEntry_of_not_takes hentry]
        exact ⟨_, rfl⟩

theorem read_of_entries {v : Value} (h : entries? v = some entries) :
    read owner v = readEntries owner entries := by
  rw [read, h]

theorem read_of_no_entries {v : Value} (h : entries? v = none) :
    read owner v = (do
      report (.ignoredReduction v owner)
      return []) := by
  rw [read, h]

end ReductionField

/-! ## Lists of fields -/

namespace Strategy

/-- Whether a field can be given, to be read or refused. -/
structure TakesField (f : String × Value) : Prop where
  setting : ∀ field, Field.ofName? (Field.canonicalName f.1) = some field → field.Takes f.2
  entries : Field.canonicalName f.1 = reductionField →
    ∀ entries, ReductionField.entries? f.2 = some entries → ∀ e ∈ entries, ReductionField.Takes e

/-- The strategy after a field of which only what is accepted counts. -/
def accept (s : Strategy Float) (f : String × Value) : Strategy Float :=
  if Field.canonicalName f.1 = reductionField then
    let points := ReductionField.accepted ((ReductionField.entries? f.2).getD [])
    { s with curve := points.foldl (fun c p => c.insert p.1 p.2) s.curve }
  else
    match Field.ofName? (Field.canonicalName f.1) with
    | none => s
    | some field =>
      match s.settings.set field f.2 with
      | .ok settings => { s with settings }
      | .error _ => s

theorem name_accept (s : Strategy Float) (f : String × Value) : (s.accept f).name = s.name := by
  rw [accept]
  split
  · rfl
  · split
    · rfl
    · split <;> rfl

section

variable {f : String × Value}

theorem readField_of_reduction (s : Strategy Float)
    (hname : Field.canonicalName f.1 = reductionField) :
    s.readField (fieldItem f.1 f.2) = (do
      let points ← ReductionField.read s.name f.2
      let curve ← Attempt.ofLogged (s.curve.addAll points)
      return { s with curve }) := by
  rw [readField_fieldItem, hname, if_pos (beq_self_eq_true _)]

theorem ne_reduction_of_ofName {field : Field}
    (hfield : Field.ofName? (Field.canonicalName f.1) = some field) :
    Field.canonicalName f.1 ≠ reductionField := by
  intro hname
  have hnone : Field.ofName? reductionField = none := by decide +kernel
  rw [hname, hnone] at hfield
  cases hfield

theorem readField_of_setting (s : Strategy Float) {field : Field}
    (hfield : Field.ofName? (Field.canonicalName f.1) = some field) :
    s.readField (fieldItem f.1 f.2) =
      match s.settings.set field f.2 with
      | .ok settings => pure { s with settings }
      | .error cause =>
        if cause.isBadValue then (do
          report (.invalidField f.2 (Field.canonicalName f.1) s.name (s.settings.get field) cause)
          return s)
        else throw cause := by
  have hname := beq_eq_false_iff_ne.2 (ne_reduction_of_ofName hfield)
  have hread := s.readField_fieldItem f.1 f.2
  rw [hname, if_neg Bool.false_ne_true, hfield] at hread
  exact hread

theorem readField_of_unknown (s : Strategy Float)
    (hname : Field.canonicalName f.1 ≠ reductionField)
    (hfield : Field.ofName? (Field.canonicalName f.1) = none) :
    s.readField (fieldItem f.1 f.2) = (do
      report (.unknownField f.1)
      return s) := by
  have hread := s.readField_fieldItem f.1 f.2
  rw [beq_eq_false_iff_ne.2 hname, if_neg Bool.false_ne_true, hfield] at hread
  exact hread

end

/-- Whether all that is refused of a field is in the reports of its owner. -/
structure Reported (owner : String) (f : String × Value) (log : List Notice) : Prop where
  setting : ∀ field (t : Settings Float) cause, Field.canonicalName f.1 = field.name →
    t.set field f.2 = .error cause → ∃ kept, .invalidField f.2 field.name owner kept cause ∈ log
  shape : Field.canonicalName f.1 = reductionField → ReductionField.entries? f.2 = none →
    .ignoredReduction f.2 owner ∈ log
  entry : Field.canonicalName f.1 = reductionField →
    ∀ entries, ReductionField.entries? f.2 = some entries →
    ∀ e ∈ entries, ∀ cause, ReductionField.readEntry e = .error cause →
    .ignoredEntry e owner cause ∈ log

theorem Reported.mono {owner : String} {f : String × Value} {log more : List Notice}
    (h : Reported owner f log) (hmore : ∀ n ∈ log, n ∈ more) : Reported owner f more where
  setting field t cause hname hset := by
    obtain ⟨kept, hkept⟩ := h.setting field t cause hname hset
    exact ⟨kept, hmore _ hkept⟩
  shape hname hnone := hmore _ (h.shape hname hnone)
  entry hname entries hentries e he cause hcause :=
    hmore _ (h.entry hname entries hentries e he cause hcause)

variable {f : String × Value}

theorem outcome_readField (s : Strategy Float) (h : TakesField f) :
    (s.readField (fieldItem f.1 f.2)).outcome = .ok (s.accept f) := by
  rw [accept]
  by_cases hname : Field.canonicalName f.1 = reductionField
  · rw [readField_of_reduction s hname, if_pos hname]
    cases hentries : ReductionField.entries? f.2 with
    | none =>
        rw [ReductionField.read_of_no_entries hentries]
        rfl
    | some entries =>
        rw [ReductionField.read_of_entries hentries, Attempt.outcome_bind,
          ReductionField.outcome_readEntries (h.entries hname entries hentries), ok_bind,
          Attempt.outcome_bind, Attempt.outcome_ofLogged, Curve.value_addAll]
        rfl
  · rw [if_neg hname]
    cases hfield : Field.ofName? (Field.canonicalName f.1) with
    | none =>
        rw [readField_of_unknown s hname hfield]
        rfl
    | some field =>
        rw [readField_of_setting s hfield]
        dsimp only
        rcases s.settings.set_settles (h.setting field hfield) with ⟨t, ht⟩ | ⟨cause, hcause, hbad⟩
        · rw [ht]
          rfl
        · rw [hcause]
          dsimp only
          rw [if_pos hbad]
          rfl

theorem reported_readField (s : Strategy Float) (h : TakesField f) :
    Reported s.name f (s.readField (fieldItem f.1 f.2)).log where
  setting field t cause hname hset := by
    have hfield : Field.ofName? (Field.canonicalName f.1) = some field := by
      rw [hname]
      exact field.ofName?_name
    have hcause := Settings.set_eq_error s.settings hset
    rw [readField_of_setting s hfield, hcause]
    dsimp only
    rcases s.settings.set_settles (h.setting field hfield) with ⟨u, hu⟩ | ⟨other, hother, hbad⟩
    · rw [hu] at hcause
      cases hcause
    · rw [hother] at hcause
      cases hcause
      rw [if_pos hbad, hname]
      exact ⟨_, List.mem_cons_self⟩
  shape hname hnone := by
    rw [readField_of_reduction s hname, ReductionField.read_of_no_entries hnone]
    exact List.mem_cons_self
  entry hname entries hentries e he cause hcause := by
    have htakes := h.entries hname entries hentries
    rw [readField_of_reduction s hname, ReductionField.read_of_entries hentries,
      Attempt.log_bind (ReductionField.outcome_readEntries htakes)]
    exact List.mem_append_left _ (ReductionField.ignoredEntry_mem_log htakes he hcause)

theorem takesField_of_readField {s t : Strategy Float}
    (h : (s.readField (fieldItem f.1 f.2)).outcome = .ok t) : TakesField f where
  setting field hfield := by
    by_contra hnot
    rw [readField_of_setting s hfield, s.settings.set_of_not_takes hnot] at h
    cases h
  entries hname entries hentries := by
    by_contra hnot
    obtain ⟨failure, hfailure⟩ := ReductionField.readEntries_of_not_takes s.name hnot
    rw [readField_of_reduction s hname] at h
    obtain ⟨points, hread, -⟩ := Attempt.outcome_bind_eq_ok_iff.1 h
    rw [ReductionField.read_of_entries hentries, hfailure] at hread
    cases hread

theorem parseTable_eq_foldlM (s : Strategy Float) (fields : List (String × Value)) :
    s.parseTable fields =
      fields.foldlM (fun t f => t.readField (fieldItem f.1 f.2)) { s with curve := Curve.empty } := by
  rw [parseTable, parse, List.foldlM_map]

variable {fields : List (String × Value)}

theorem outcome_parseTable_of_takes (s : Strategy Float) (h : ∀ f ∈ fields, TakesField f) :
    (s.parseTable fields).outcome = .ok (fields.foldl accept { s with curve := Curve.empty }) := by
  rw [parseTable_eq_foldlM]
  exact Attempt.outcome_foldlM (fun t f hf => t.outcome_readField (h f hf)) _

theorem takesField_of_parseTable {s t : Strategy Float}
    (h : (s.parseTable fields).outcome = .ok t) (hf : f ∈ fields) : TakesField f := by
  rw [parseTable_eq_foldlM] at h
  obtain ⟨u, v, hstep⟩ := Attempt.exists_step_of_foldlM h hf
  exact takesField_of_readField hstep

/-- No field changes the name, so the owner in the reports is the one at the start. -/
theorem reported_foldlM {b : Strategy Float} (h : ∀ f ∈ fields, TakesField f) (hf : f ∈ fields) :
    Reported b.name f
      (fields.foldlM (fun t f => t.readField (fieldItem f.1 f.2)) b : Attempt _).log := by
  have hname : ∀ (t : Strategy Float) (g : String × Value), t.name = b.name →
      (t.accept g).name = b.name := by
    intro t g ht
    rw [name_accept, ht]
  obtain ⟨t, ht, hlog⟩ := Attempt.mem_log_foldlM hname
    (fun t g hg => t.outcome_readField (h g hg)) rfl hf
  have hreported := reported_readField t (h f hf)
  rw [ht] at hreported
  exact hreported.mono hlog

/-- Fields are read to the end exactly when no number beyond all doubles is wanted as a double.
Then only what is accepted counts, and what is refused is reported. -/
theorem parseTable_returns_iff (s : Strategy Float) (fields : List (String × Value)) :
    ((∃ t, (s.parseTable fields).outcome = .ok t) ↔ ∀ f ∈ fields, TakesField f) ∧
      ((∀ f ∈ fields, TakesField f) →
        (s.parseTable fields).outcome = .ok (fields.foldl accept { s with curve := Curve.empty }) ∧
        ∀ f ∈ fields, Reported s.name f (s.parseTable fields).log) := by
  refine ⟨⟨?_, ?_⟩, ?_⟩
  · rintro ⟨t, ht⟩ f hf
    exact takesField_of_parseTable ht hf
  · intro h
    exact ⟨_, outcome_parseTable_of_takes s h⟩
  · intro h
    refine ⟨outcome_parseTable_of_takes s h, fun f hf => ?_⟩
    rw [parseTable_eq_foldlM]
    exact reported_foldlM (b := { s with curve := Curve.empty }) h hf

/-- A phase-in that is no number, a reduction as large as a double can be, and an entry that is no
point. -/
def refusedFields : List (String × Value) :=
  [("phaseIn", .text "soon"), ("finalReduction", .int (10 ^ 308)),
    ("reduction", .list [.list [.int 0, .float 0.5], .text "100"])]

theorem parseTable_returns_on_refusedFields :
    (∀ f ∈ refusedFields, TakesField f) ∧
      ((fresh threeYears "MAC").parseTable refusedFields).outcome =
        .ok (refusedFields.foldl accept { fresh threeYears "MAC" with curve := Curve.empty }) ∧
      ∀ f ∈ refusedFields, Reported "MAC" f ((fresh threeYears "MAC").parseTable refusedFields).log := by
  have htakes : ∀ f ∈ refusedFields, TakesField f := by
    intro f hf
    simp only [refusedFields, List.mem_cons, List.not_mem_nil, or_false] at hf
    rcases hf with rfl | rfl | rfl
    · have hname : Field.ofName? (Field.canonicalName "phaseIn") = some .phaseIn := by
        decide +kernel
      refine ⟨fun field hfield => ?_, fun hreduction => absurd hreduction (by decide +kernel)⟩
      cases hname.symm.trans hfield
      trivial
    · have hname : Field.ofName? (Field.canonicalName "finalReduction") = some .finalReduction := by
        decide +kernel
      have hfits : FitsDouble (10 ^ 308) := by
        rw [FitsDouble]
        decide +kernel
      refine ⟨fun field hfield => ?_, fun hreduction => absurd hreduction (by decide +kernel)⟩
      cases hname.symm.trans hfield
      exact hfits
    · have hnone : Field.ofName? (Field.canonicalName "reduction") = none := by decide +kernel
      refine ⟨fun field hfield => ?_, fun _ entries hentries e he => ?_⟩
      · cases hnone.symm.trans hfield
      · cases hentries
        rcases List.mem_cons.1 he with rfl | he
        · intro _
          have hfits : FitsDouble 0 := by
            rw [FitsDouble]
            decide +kernel
          exact ⟨hfits, fun _ _ => trivial⟩
        · cases List.mem_singleton.1 he
          trivial
  exact ⟨htakes, (parseTable_returns_iff (fresh threeYears "MAC") refusedFields).2 htakes⟩

/-- A phase-in of `10 ^ 309` periods is no double; it ends the reading and is not reported. -/
theorem parseTable_fails_on_large_integer :
    ((fresh threeYears "MAC").parseTable [("phaseIn", .int (10 ^ 309))]).outcome =
        .error .integerTooLarge ∧
      ((fresh threeYears "MAC").parseTable [("phaseIn", .int (10 ^ 309))]).log = [] := by
  have hlarge : ¬FitsDouble (10 ^ 309) := by
    rw [FitsDouble]
    decide +kernel
  have hname : Field.canonicalName "phaseIn" = Field.phaseIn.name := by decide +kernel
  have hset : (Settings.default threeYears).set .phaseIn (.int (10 ^ 309)) =
      .error .integerTooLarge := Settings.set_of_not_takes _ hlarge
  have hread : (fresh threeYears "MAC").readField (fieldItem "phaseIn" (.int (10 ^ 309))) =
      throw .integerTooLarge := by
    rw [readField_fieldItem, hname, Field.name_ne_reduction, Field.ofName?_name]
    dsimp only
    rw [fresh, hset]
    rfl
  rw [parseTable, parse, List.map_singleton, List.foldlM_cons]
  change (readField (fresh threeYears "MAC") _ >>= _).outcome = _ ∧
    (readField (fresh threeYears "MAC") _ >>= _).log = _
  rw [hread]
  exact ⟨rfl, rfl⟩

end Strategy

end Macc
