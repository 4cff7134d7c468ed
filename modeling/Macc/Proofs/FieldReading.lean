import Macc.Proofs.FieldRefusal

/-!
# What a list of fields says

A list of fields is read item by item, but what it says can be told without
following the reading. A setting holds the last value that some field gives it
and that converts, or what it held before. The curve has the points that were
accepted, added in order to no points at all. And every refusal is one report:
of a name that nothing has, of a value that does not convert, of an entry that is
no point.

The only thing about a report that depends on the reading is the value that is
kept, and that is what the fields before it say. So everything follows from what
one field does, by going through the list from its end.

Two things stop the reading: an item that is no pair of a name and a value, which
an item is not whose name has no text, and a value whose failure is none of those
that are reported. Then nothing of what was accepted before is seen, because the
strategy is changed only after the last field. To say so takes a reading in which
what was changed stays changed when it fails; it is given here, and comes to the
same as the other one.
-/

namespace Macc

/-! ## Names and conversions -/

namespace Field

/-- Whether a name, blanks around it aside, is one of the two names of a field. -/
def isNamed (f : Field) (name : String) : Bool :=
  Text.trim name == f.name || Text.trim name == f.spacedName

/-- Whether a name, blanks around it aside, is that of control points. -/
def namesPoints (name : String) : Bool :=
  Text.trim name == reductionField

/-- What a field is set to by a value. -/
def convert (f : Field) (v : Value) : Except Failure Value :=
  match f with
  | .phaseIn | .costReductionRate | .fuelShiftRange | .finalReduction => v.toReal.map .float
  | .baseCostYear | .finalReductionYear => v.toWhole.map .int
  | .shiftFuel => v.toName.map .text
  | .noBelowZero => v.toFlag.map .bool

theorem mem_written (f : Field) : f ∈ written := by
  cases f <;> decide

/-- Of all the names that fields have, no two are the same. -/
theorem names_apart (f g : Field) :
    (f.name = g.name → f = g) ∧ (f.spacedName = g.spacedName → f = g) ∧
      f.name ≠ g.spacedName ∧ f.name ≠ reductionField ∧ f.spacedName ≠ reductionField := by
  have hall : ∀ f ∈ written, ∀ g ∈ written,
      (f.name = g.name → f = g) ∧ (f.spacedName = g.spacedName → f = g) ∧
        f.name ≠ g.spacedName ∧ f.name ≠ reductionField ∧ f.spacedName ≠ reductionField := by
    decide +kernel
  exact hall f f.mem_written g g.mem_written

theorem canonicalName_cases (name : String) :
    (∃ g : Field, Text.trim name = g.spacedName ∧ canonicalName name = g.name) ∨
      (∀ g : Field, Text.trim name ≠ g.spacedName) ∧ canonicalName name = Text.trim name := by
  rw [canonicalName]
  split
  · next g hg =>
      have hspaced : g.spacedName = Text.trim name := by simpa using List.find?_some hg
      exact .inl ⟨g, hspaced.symm, rfl⟩
  · next hnone =>
      refine .inr ⟨fun g hg => ?_, rfl⟩
      exact List.find?_eq_none.1 hnone g g.mem_written (beq_iff_eq.2 hg.symm)

/-- A name belongs to one field at most. -/
theorem isNamed_unique {f g : Field} {name : String} (hf : f.isNamed name = true)
    (hg : g.isNamed name = true) : f = g := by
  rw [isNamed, Bool.or_eq_true, beq_iff_eq, beq_iff_eq] at hf hg
  rcases hf with hf | hf <;> rcases hg with hg | hg
  · exact (names_apart f g).1 (hf.symm.trans hg)
  · exact absurd (hf.symm.trans hg) (names_apart f g).2.2.1
  · exact absurd (hg.symm.trans hf) (names_apart g f).2.2.1
  · exact (names_apart f g).2.1 (hf.symm.trans hg)

/-- The field that has a name. -/
def named? (name : String) : Option Field :=
  written.find? fun f => f.isNamed name

theorem named?_eq_some_iff {name : String} {f : Field} :
    named? name = some f ↔ f.isNamed name = true := by
  constructor
  · intro h
    simpa using List.find?_some h
  · intro h
    have hsome : (written.find? fun f => f.isNamed name).isSome = true := by
      rw [List.find?_isSome]
      exact ⟨f, f.mem_written, h⟩
    obtain ⟨g, hg⟩ := Option.isSome_iff_exists.1 hsome
    have hnamed : g.isNamed name = true := by simpa using List.find?_some hg
    rw [named?, hg, isNamed_unique hnamed h]

/-- A field is found under its two names and no other. -/
theorem ofName?_canonicalName (name : String) : ofName? (canonicalName name) = named? name := by
  rcases canonicalName_cases name with ⟨g, htrim, hname⟩ | ⟨hspaced, hname⟩
  · have hnamed : g.isNamed name = true := by
      rw [isNamed, htrim, beq_self_eq_true, Bool.or_true]
    rw [hname, ofName?_name, named?_eq_some_iff.2 hnamed]
  · have hsame : (fun f : Field => f.name == Text.trim name) = fun f => f.isNamed name := by
      funext f
      rw [isNamed, beq_eq_false_iff_ne.2 (hspaced f), Bool.or_false]
      exact Bool.beq_comm
    rw [hname, ofName?, hsame, named?]

theorem canonicalName_of_named {name : String} {f : Field} (h : named? name = some f) :
    canonicalName name = f.name := by
  rw [← ofName?_canonicalName] at h
  have hname : (f.name == canonicalName name) = true := by simpa using List.find?_some h
  exact (eq_of_beq hname).symm

theorem canonicalName_eq_reduction (name : String) :
    canonicalName name = reductionField ↔ namesPoints name = true := by
  rw [namesPoints, beq_iff_eq]
  rcases canonicalName_cases name with ⟨g, htrim, hname⟩ | ⟨-, hname⟩
  · rw [hname, htrim]
    exact iff_of_false (names_apart g g).2.2.2.1 (names_apart g g).2.2.2.2
  · rw [hname]

end Field

namespace Settings

variable {f : Field} {v : Value}

/-- To set a field is to convert the value and to leave the other fields alone. -/
theorem set_of_convert (s : Settings Float) {w : Value} (h : f.convert v = .ok w) :
    ∃ t, s.set f v = .ok t ∧ ∀ g, t.get g = if g = f then w else s.get g := by
  cases f with
  | phaseIn | costReductionRate | baseCostYear | fuelShiftRange | shiftFuel | finalReduction
  | finalReductionYear | noBelowZero =>
      obtain ⟨x, hread, rfl⟩ := map_eq_ok_iff.1 h
      refine ⟨_, bind_eq_ok_iff.2 ⟨x, hread, rfl⟩, fun g => ?_⟩
      cases g <;> rfl

theorem set_eq_error_iff (s : Settings Float) {cause : Failure} :
    s.set f v = .error cause ↔ f.convert v = .error cause := by
  cases f with
  | phaseIn | costReductionRate | baseCostYear | fuelShiftRange | shiftFuel | finalReduction
  | finalReductionYear | noBelowZero => exact bind_pure_eq_error_iff.trans map_eq_error_iff.symm

end Settings

/-! ## What one field says -/

namespace Strategy

/-- The value that a field gives a setting, if it is about the setting and its value converts. -/
def givenBy (f : Field) (e : String × Value) : Option Value :=
  if f.isNamed e.1 then (f.convert e.2).toOption else none

/-- The control points that a field gives. -/
def pointsOf (e : String × Value) : List (Float × Float) :=
  if Field.namesPoints e.1 then ReductionField.accepted ((ReductionField.entries? e.2).getD [])
  else []

/-- The reports that the entries of a field deserve: one for each that is no point. -/
def entryReports (owner : String) (entries : List Value) : List Notice :=
  entries.filterMap fun entry =>
    match ReductionField.readEntry entry with
    | .ok _ => none
    | .error cause => some (.ignoredEntry entry owner cause)

/-- The reports that a field deserves when the settings stand at `held`. -/
def reportsOf (owner : String) (held : Field → Value) (e : String × Value) : List Notice :=
  if Field.namesPoints e.1 then
    match ReductionField.entries? e.2 with
    | none => [.ignoredReduction e.2 owner]
    | some entries => entryReports owner entries
  else
    match Field.named? e.1 with
    | none => [.unknownField e.1]
    | some f =>
      match f.convert e.2 with
      | .ok _ => []
      | .error cause => [.invalidField e.2 f.name owner (held f) cause]

/-- The failure of a reading that is neither of a bad value nor of a missing key. -/
def otherFailure {α : Type} : Except Failure α → Option Failure
  | .ok _ => none
  | .error cause => if cause.isBadValue || cause.kind == .key then none else some cause

/-- What stops the reading at a field. -/
def stopOf (e : String × Value) : Option Failure :=
  if Field.namesPoints e.1 then
    ((ReductionField.entries? e.2).getD []).findSome? fun entry =>
      otherFailure (ReductionField.readEntry entry)
  else (Field.named? e.1).bind fun f => otherFailure (f.convert e.2)

theorem otherFailure_eq_some_iff {α : Type} {r : Except Failure α} {cause : Failure} :
    otherFailure r = some cause ↔ r = .error cause ∧ ¬ReductionField.Skipped cause := by
  cases r with
  | ok a => simp [otherFailure]
  | error failure =>
      rw [otherFailure, ReductionField.Skipped]
      constructor
      · intro h
        split at h
        · cases h
        · next hnot =>
            cases h
            exact ⟨rfl, hnot⟩
      · rintro ⟨h, hnot⟩
        cases h
        rw [if_neg hnot]

/-- What does not stop the reading can be given, to be read or refused. -/
theorem takesField_of_stopOf {e : String × Value} (h : stopOf e = none) : TakesField e where
  setting field hfield := by
    by_contra hnot
    rw [Field.ofName?_canonicalName] at hfield
    have hconvert : field.convert e.2 = .error .integerTooLarge :=
      (Settings.set_eq_error_iff _).1 ((Settings.default threeYears).set_of_not_takes hnot)
    have hstop : otherFailure (field.convert e.2) = some .integerTooLarge :=
      otherFailure_eq_some_iff.2 ⟨hconvert, Bool.false_ne_true⟩
    have hname : ¬Field.namesPoints e.1 = true := by
      intro hname
      have hnone : Field.ofName? reductionField = none := by decide +kernel
      rw [← Field.ofName?_canonicalName, (Field.canonicalName_eq_reduction e.1).2 hname,
        hnone] at hfield
      cases hfield
    rw [stopOf, if_neg hname, hfield, Option.bind_some, hstop] at h
    cases h
  entries hname entries hentries entry hentry := by
    by_contra hnot
    rw [stopOf, if_pos ((Field.canonicalName_eq_reduction e.1).1 hname), hentries,
      Option.getD_some, List.findSome?_eq_none_iff] at h
    have hstop := otherFailure_eq_some_iff.2
      ⟨ReductionField.readEntry_of_not_takes hnot, Bool.false_ne_true⟩
    rw [h entry hentry] at hstop
    cases hstop

theorem namesPoints_of_named {name : String} {f : Field} (h : Field.named? name = some f) :
    ¬Field.namesPoints name = true := by
  rw [← Field.canonicalName_eq_reduction]
  rw [← Field.ofName?_canonicalName] at h
  exact ne_reduction_of_ofName (f := (name, Value.null)) h

/-! ## What one field does -/

theorem givenBy_of_named {e : String × Value} {g : Field} (hg : Field.named? e.1 = some g)
    (f : Field) : givenBy f e = if f = g then (g.convert e.2).toOption else none := by
  have hnamed := Field.named?_eq_some_iff.1 hg
  rw [givenBy]
  by_cases hf : f = g
  · rw [if_pos hf, hf, if_pos hnamed]
  · rw [if_neg hf, if_neg fun h => hf (Field.isNamed_unique h hnamed)]

theorem givenBy_of_unnamed {e : String × Value} (hg : Field.named? e.1 = none) (f : Field) :
    givenBy f e = none := by
  rw [givenBy, if_neg]
  intro h
  rw [Field.named?_eq_some_iff.2 h] at hg
  cases hg

/-- A field whose value is refused is reported, and nothing else comes of it. -/
theorem nothing_of_refused {e : String × Value} {f : Field} {cause : Failure}
    (hnamed : Field.named? e.1 = some f) (hrefused : f.convert e.2 = .error cause)
    (hbad : cause.isBadValue = true) :
    stopOf e = none ∧ (∀ g, givenBy g e = none) ∧
      ∀ owner held, reportsOf owner held e = [.invalidField e.2 f.name owner (held f) cause] := by
  have hpoints := namesPoints_of_named hnamed
  refine ⟨?_, fun g => ?_, fun owner held => ?_⟩
  · rw [stopOf, if_neg hpoints, hnamed, Option.bind_some, hrefused, otherFailure, hbad, Bool.true_or,
      if_pos rfl]
  · rw [givenBy_of_named hnamed, hrefused]
    exact ite_self none
  · rw [reportsOf, if_neg hpoints, hnamed]
    dsimp only
    rw [hrefused]

theorem get_accept (t : Strategy Float) (e : String × Value) (f : Field) :
    (t.accept e).settings.get f = (givenBy f e).getD (t.settings.get f) := by
  rw [accept]
  split
  · next hname =>
      have hnamed : Field.named? e.1 = none := by
        cases hg : Field.named? e.1 with
        | none => rfl
        | some g =>
            exact absurd ((Field.canonicalName_eq_reduction e.1).1 hname) (namesPoints_of_named hg)
      rw [givenBy_of_unnamed hnamed]
      rfl
  · rw [Field.ofName?_canonicalName]
    cases hg : Field.named? e.1 with
    | none =>
        rw [givenBy_of_unnamed hg]
        rfl
    | some g =>
        rw [givenBy_of_named hg]
        dsimp only
        cases hconvert : g.convert e.2 with
        | error cause =>
            have hnothing : (if f = g then (Except.error cause : Except Failure Value).toOption
                else none) = none := ite_self none
            rw [(Settings.set_eq_error_iff t.settings).2 hconvert, hnothing]
            rfl
        | ok w =>
            obtain ⟨u, hu, hget⟩ := Settings.set_of_convert t.settings hconvert
            rw [hu]
            dsimp only
            rw [hget]
            split <;> rfl

theorem curve_accept (t : Strategy Float) (e : String × Value) :
    (t.accept e).curve = (t.curve.addAll (pointsOf e)).value := by
  rw [accept, pointsOf, Curve.value_addAll]
  simp only [Field.canonicalName_eq_reduction]
  split
  · rfl
  · split
    · rfl
    · split <;> rfl

end Strategy

/-! ## Reports -/

/-- The reports that are more than remarks. -/
def Notice.audible (log : List Notice) : List Notice :=
  log.filter fun n => n.severity != .debug

theorem Notice.audible_append (log more : List Notice) :
    audible (log ++ more) = audible log ++ audible more :=
  List.filter_append log more

/-- That a point replaces another one is a remark. -/
theorem Curve.audible_addAll (c : Curve Float) (pairs : List (Float × Float)) :
    Notice.audible (c.addAll pairs).log = [] := by
  induction pairs generalizing c with
  | nil => rfl
  | cons p rest ih =>
      rw [addAll, List.foldlM_cons, Logged.log_bind, Notice.audible_append]
      have hrest : Notice.audible (((c.add p.1 p.2).value).addAll rest).log = [] := ih _
      rw [addAll] at hrest
      rw [hrest, List.append_nil, add]
      split <;> rfl

namespace ReductionField

variable {owner : String} {entries : List Value}

theorem log_readEntries (h : ∀ e ∈ entries, Takes e) :
    (readEntries owner entries).log = Strategy.entryReports owner entries := by
  induction entries with
  | nil => rfl
  | cons entry rest ih =>
      have htakes : ∀ e ∈ rest, Takes e := fun e he => h e (List.mem_cons_of_mem _ he)
      rcases readEntry_settles (h entry List.mem_cons_self) with ⟨p, hp⟩ | ⟨cause, hcause, hskip⟩
      · have hreport : Strategy.entryReports owner (entry :: rest) =
            Strategy.entryReports owner rest := List.filterMap_cons_none (by rw [hp])
        rw [readEntries_of_ok hp, Attempt.log_bind (outcome_readEntries htakes), hreport,
          ih htakes]
        exact List.append_nil _
      · have hreport : Strategy.entryReports owner (entry :: rest) =
            .ignoredEntry entry owner cause :: Strategy.entryReports owner rest :=
          List.filterMap_cons_some (by rw [hcause])
        rw [readEntries_of_skipped hcause hskip, hreport, ← ih htakes]
        rfl

/-- The first entry whose failure is not reported stops the reading. -/
theorem outcome_readEntries_of_other {cause : Failure}
    (h : entries.findSome? (fun e => Strategy.otherFailure (readEntry e)) = some cause) :
    (readEntries owner entries).outcome = .error cause := by
  induction entries with
  | nil => cases h
  | cons entry rest ih =>
      rw [List.findSome?_cons] at h
      cases hread : readEntry entry with
      | ok p =>
          rw [hread] at h
          rw [readEntries_of_ok hread, Attempt.outcome_bind, ih h]
          rfl
      | error failure =>
          rw [hread] at h
          by_cases hskip : Skipped failure
          · have hnone : Strategy.otherFailure (.error failure : Except Failure (Float × Float)) =
                none := if_pos hskip
            rw [hnone] at h
            rw [readEntries_of_skipped hread hskip, Attempt.outcome_bind]
            exact ih h
          · have hsome := Strategy.otherFailure_eq_some_iff (r := readEntry entry).2 ⟨hread, hskip⟩
            rw [hread] at hsome
            rw [hsome] at h
            cases h
            rw [Skipped] at hskip
            rw [readEntries, hread]
            dsimp only
            rw [if_neg hskip]
            rfl

end ReductionField

namespace Strategy

theorem audible_entryReports (owner : String) (entries : List Value) :
    Notice.audible (entryReports owner entries) = entryReports owner entries := by
  refine List.filter_eq_self.2 fun n hn => ?_
  obtain ⟨entry, -, hreport⟩ := List.mem_filterMap.1 hn
  split at hreport
  · cases hreport
  · cases hreport
    rfl

/-- A field that does not stop the reading is reported as it deserves. -/
theorem audible_readField (t : Strategy Float) {e : String × Value} (h : stopOf e = none) :
    Notice.audible (t.readField (fieldItem e.1 e.2)).log = reportsOf t.name t.settings.get e := by
  have htakes := takesField_of_stopOf h
  rw [reportsOf]
  by_cases hname : Field.namesPoints e.1 = true
  · have hreduction := (Field.canonicalName_eq_reduction e.1).2 hname
    rw [readField_of_reduction t hreduction, if_pos hname]
    cases hentries : ReductionField.entries? e.2 with
    | none =>
        rw [ReductionField.read_of_no_entries hentries]
        rfl
    | some entries =>
        have htakes := htakes.entries hreduction entries hentries
        have hpoints : (ReductionField.readEntries t.name entries).outcome = _ :=
          ReductionField.outcome_readEntries htakes
        rw [ReductionField.read_of_entries hentries, Attempt.log_bind hpoints,
          Attempt.log_bind (Attempt.outcome_ofLogged _), Attempt.log_ofLogged,
          ReductionField.log_readEntries htakes, Notice.audible_append, Notice.audible_append,
          Curve.audible_addAll]
        exact (List.append_nil _).trans (audible_entryReports t.name entries)
  · have hreduction := mt (Field.canonicalName_eq_reduction e.1).1 hname
    rw [if_neg hname]
    cases hnamed : Field.named? e.1 with
    | none =>
        have hfield := (Field.ofName?_canonicalName e.1).trans hnamed
        rw [readField_of_unknown t hreduction hfield]
        rfl
    | some f =>
        have hfield := (Field.ofName?_canonicalName e.1).trans hnamed
        rw [readField_of_setting t hfield]
        dsimp only
        cases hconvert : f.convert e.2 with
        | ok w =>
            obtain ⟨u, hu, -⟩ := t.settings.set_of_convert hconvert
            rw [hu]
            rfl
        | error cause =>
            have hset := (t.settings.set_eq_error_iff).2 hconvert
            rcases t.settings.set_settles (htakes.setting f hfield) with ⟨u, hu⟩ | ⟨_, hother, hbad⟩
            · rw [hu] at hset
              cases hset
            · rw [hother] at hset
              cases hset
              rw [hother]
              dsimp only
              rw [if_pos hbad, Field.canonicalName_of_named hnamed]
              rfl

/-- A field that stops the reading ends it with its failure. -/
theorem outcome_readField_of_stop (t : Strategy Float) {e : String × Value} {cause : Failure}
    (h : stopOf e = some cause) : (t.readField (fieldItem e.1 e.2)).outcome = .error cause := by
  rw [stopOf] at h
  split at h
  · next hname =>
      rw [readField_of_reduction t ((Field.canonicalName_eq_reduction e.1).2 hname),
        Attempt.outcome_bind]
      cases hentries : ReductionField.entries? e.2 with
      | none =>
          rw [hentries] at h
          cases h
      | some entries =>
          rw [hentries, Option.getD_some] at h
          rw [ReductionField.read_of_entries hentries,
            ReductionField.outcome_readEntries_of_other h, error_bind]
  · cases hnamed : Field.named? e.1 with
    | none =>
        rw [hnamed] at h
        cases h
    | some f =>
        rw [hnamed, Option.bind_some, otherFailure_eq_some_iff, ReductionField.Skipped] at h
        obtain ⟨hconvert, hother⟩ := h
        rw [readField_of_setting t ((Field.ofName?_canonicalName e.1).trans hnamed),
          t.settings.set_eq_error_iff.2 hconvert]
        dsimp only
        rw [if_neg]
        · rfl
        · intro hbad
          rw [hbad, Bool.true_or] at hother
          exact hother rfl

/-! ## What a whole list says -/

/-- What a setting holds after some fields: the last value that one of them gives it. -/
def heldAfter (s : Settings Float) (fields : List (String × Value)) (f : Field) : Value :=
  ((fields.filterMap (givenBy f)).getLast?).getD (s.get f)

/-- The reports that fields deserve when others stand before them. -/
def reportsAfter (s : Strategy Float) (before : List (String × Value)) :
    List (String × Value) → List Notice
  | [] => []
  | e :: rest =>
    reportsOf s.name (heldAfter s.settings before) e ++ reportsAfter s (before ++ [e]) rest

/-- What a strategy is after some fields. -/
structure Says (s : Strategy Float) (fields : List (String × Value)) (t : Strategy Float) :
    Prop where
  name : t.name = s.name
  settings : ∀ f, t.settings.get f = heldAfter s.settings fields f
  curve : t.curve = (Curve.empty.addAll (fields.flatMap pointsOf)).value

theorem says_nothing (s : Strategy Float) : s.Says [] { s with curve := Curve.empty } :=
  ⟨rfl, fun _ => rfl, rfl⟩

variable {s t : Strategy Float} {before fields : List (String × Value)}

/-- One field more says what the field says. -/
theorem Says.accept (h : s.Says before t) (e : String × Value) :
    s.Says (before ++ [e]) (t.accept e) where
  name := (name_accept t e).trans h.name
  settings f := by
    rw [get_accept, h.settings, heldAfter, heldAfter, List.filterMap_append]
    cases hgiven : givenBy f e with
    | none => rw [List.filterMap_cons_none hgiven, List.filterMap_nil, List.append_nil]; rfl
    | some w =>
        rw [List.filterMap_cons_some hgiven, List.filterMap_nil, List.getLast?_concat]
        rfl
  curve := by
    rw [curve_accept, h.curve, Curve.value_addAll, Curve.value_addAll, Curve.value_addAll,
      ← List.foldl_append, List.flatMap_append, List.flatMap_singleton]

/-- Fields that do not stop the reading are read to the end, and leave what they say. -/
theorem Says.foldlM (h : s.Says before t) (hgo : ∀ e ∈ fields, stopOf e = none) :
    ∃ u, (fields.foldlM (fun t e => t.readField (fieldItem e.1 e.2)) t : Attempt _).outcome =
        .ok u ∧ s.Says (before ++ fields) u ∧
      Notice.audible
          (fields.foldlM (fun t e => t.readField (fieldItem e.1 e.2)) t : Attempt _).log =
        reportsAfter s before fields := by
  induction fields generalizing before t with
  | nil => exact ⟨t, rfl, by rwa [List.append_nil], rfl⟩
  | cons e rest ih =>
      have he := hgo e List.mem_cons_self
      have hstep := t.outcome_readField (takesField_of_stopOf he)
      obtain ⟨u, hu, hsaid, hlog⟩ := ih (h.accept e) fun e he => hgo e (List.mem_cons_of_mem _ he)
      refine ⟨u, ?_, ?_, ?_⟩
      · rw [List.foldlM_cons, Attempt.outcome_bind, hstep]
        exact hu
      · rwa [List.append_assoc] at hsaid
      · have hheld : t.settings.get = heldAfter s.settings before := funext h.settings
        rw [List.foldlM_cons, Attempt.log_bind hstep, Notice.audible_append,
          t.audible_readField he, hlog, h.name, hheld]
        rfl

/-! ## Items that are fields, and items that are none -/

/-- The field that an item is: a name and a value. Names are texts; what stands in the place of one
counts by the text that it has, and an item is no field where it has none. -/
def fieldOf (item : Value) : Except Failure (String × Value) := do
  let (name, value) ← splitField item
  return (← name.toText, value)

def fieldsIn (items : List Value) : List (String × Value) :=
  items.filterMap fun item => (fieldOf item).toOption

theorem fieldOf_of_no_text {name v : Value} {cause : Failure} (h : name.toText = .error cause) :
    fieldOf (.list [name, v]) = .error cause := by
  change (name.toText >>= _) = _
  rw [h, error_bind]

/-- What stops the reading at an item. -/
def stopAt (item : Value) : Option Failure :=
  match fieldOf item with
  | .ok e => stopOf e
  | .error cause => some cause

/-- The first thing among some items that stops the reading. -/
def firstStop (items : List Value) : Option Failure :=
  items.findSome? stopAt

theorem fieldOf_eq_ok_iff {item : Value} {e : String × Value} :
    fieldOf item = .ok e ↔ ∃ name, splitField item = .ok (name, e.2) ∧ name.toText = .ok e.1 := by
  constructor
  · intro h
    obtain ⟨⟨name, value⟩, hsplit, h⟩ := bind_eq_ok_iff.1 h
    obtain ⟨written, htext, h⟩ := bind_eq_ok_iff.1 h
    cases h
    exact ⟨name, hsplit, htext⟩
  · rintro ⟨name, hsplit, htext⟩
    rw [fieldOf, hsplit, ok_bind]
    dsimp only
    rw [htext]
    rfl

theorem readField_of_fieldOf (t : Strategy Float) {item : Value} {e : String × Value}
    (h : fieldOf item = .ok e) : t.readField item = t.readField (fieldItem e.1 e.2) := by
  obtain ⟨name, hsplit, htext⟩ := fieldOf_eq_ok_iff.1 h
  have hitem : splitField (fieldItem e.1 e.2) = .ok (.text e.1, e.2) := rfl
  rw [readField, readField, hsplit, hitem, Attempt.ofExcept_ok, Attempt.ofExcept_ok, pure_bind,
    pure_bind]
  dsimp only
  rw [htext, Value.toText_text]

theorem outcome_readField_of_no_field (t : Strategy Float) {item : Value} {cause : Failure}
    (h : fieldOf item = .error cause) : (t.readField item).outcome = .error cause := by
  rw [fieldOf] at h
  rw [readField]
  cases hsplit : splitField item with
  | error failure =>
      rw [hsplit] at h
      cases h
      rfl
  | ok f =>
      rw [hsplit, ok_bind] at h
      rw [Attempt.ofExcept_ok, pure_bind]
      dsimp only at h ⊢
      rw [bind_pure_eq_error_iff.1 h]
      rfl

theorem firstStop_cons (item : Value) (rest : List Value) :
    firstStop (item :: rest) = (stopAt item).or (firstStop rest) := by
  rw [firstStop, List.findSome?_cons]
  cases stopAt item <;> rfl

/-- Where nothing stops the reading, items are read as the fields that they are. -/
theorem foldlM_fieldsIn {items : List Value} (h : firstStop items = none) (t : Strategy Float) :
    items.foldlM readField t =
        (fieldsIn items).foldlM (fun t e => t.readField (fieldItem e.1 e.2)) t ∧
      ∀ e ∈ fieldsIn items, stopOf e = none := by
  induction items generalizing t with
  | nil => exact ⟨rfl, fun e he => by cases he⟩
  | cons item rest ih =>
      rw [firstStop_cons, Option.or_eq_none_iff] at h
      obtain ⟨hitem, hrest⟩ := h
      rw [stopAt] at hitem
      cases hfield : fieldOf item with
      | error cause =>
          rw [hfield] at hitem
          cases hitem
      | ok e =>
          rw [hfield] at hitem
          have hfields : fieldsIn (item :: rest) = e :: fieldsIn rest :=
            List.filterMap_cons_some (by rw [hfield]; rfl)
          rw [hfields]
          refine ⟨?_, List.forall_mem_cons.2 ⟨hitem, (ih hrest t).2⟩⟩
          rw [List.foldlM_cons, List.foldlM_cons, t.readField_of_fieldOf hfield]
          congr 1
          funext u
          exact (ih hrest u).1

/-- The first thing that stops the reading ends it. -/
theorem outcome_foldlM_of_stop {items : List Value} {cause : Failure}
    (h : firstStop items = some cause) (t : Strategy Float) :
    (items.foldlM readField t).outcome = .error cause := by
  induction items generalizing t with
  | nil => cases h
  | cons item rest ih =>
      rw [firstStop_cons] at h
      rw [List.foldlM_cons, Attempt.outcome_bind]
      cases hfield : fieldOf item with
      | error failure =>
          rw [stopAt, hfield] at h
          cases h
          rw [t.outcome_readField_of_no_field hfield, error_bind]
      | ok e =>
          rw [t.readField_of_fieldOf hfield]
          rw [stopAt, hfield] at h
          dsimp only at h
          cases hstop : stopOf e with
          | some failure =>
              rw [hstop] at h
              cases h
              rw [t.outcome_readField_of_stop hstop, error_bind]
          | none =>
              rw [hstop, Option.none_or] at h
              rw [t.outcome_readField (takesField_of_stopOf hstop), ok_bind]
              exact ih h _

/-- What is read is what the fields among the items say. -/
theorem says_of_parse {s t : Strategy Float} {items : List Value}
    (h : (s.parse items).outcome = .ok t) : s.Says (fieldsIn items) t := by
  cases hstop : firstStop items with
  | some cause =>
      rw [parse, outcome_foldlM_of_stop hstop] at h
      cases h
  | none =>
      obtain ⟨hfields, hgo⟩ := foldlM_fieldsIn hstop { s with curve := Curve.empty }
      obtain ⟨u, hu, hsaid, -⟩ := (says_nothing s).foldlM hgo
      rw [parse, hfields, hu] at h
      cases h
      exact hsaid

/-! ## Reading in place -/

/-- A strategy while fields are read into it: what others see, and what the reading has come to. -/
structure Reading where
  shown : Strategy Float
  draft : Strategy Float

/-- A step of a reading in place; what it has changed stays changed when it fails. -/
abbrev InPlace := ExceptT Failure (StateT Reading Logged)

namespace InPlace

def change (f : Reading → Reading) : InPlace Unit :=
  ExceptT.mk fun r => pure (.ok (), f r)

def readField (item : Value) : InPlace Unit :=
  ExceptT.mk fun r => do
    match ← (r.draft.readField item).run with
    | .ok t => return (.ok (), { r with draft := t })
    | .error cause => return (.error cause, r)

/-- Reads fields into the strategy that is shown, which is changed after the last of them. -/
def read (items : List Value) : InPlace Unit := do
  change fun r => { r with draft := { r.shown with curve := Curve.empty } }
  items.forM readField
  change fun r => { r with shown := r.draft }

def perform (m : InPlace Unit) (r : Reading) : Logged (Except Failure Unit × Reading) :=
  m.run.run r

theorem perform_bind_ok {m k : InPlace Unit} {r r' : Reading} {log : List Notice}
    (h : m.perform r = ⟨(.ok (), r'), log⟩) :
    (m >>= fun _ => k).perform r = ⟨(k.perform r').value, log ++ (k.perform r').log⟩ := by
  change (m.perform r >>= fun a => (ExceptT.bindCont (fun _ => k) a.1) a.2) = _
  rw [h]
  rfl

theorem perform_bind_error {m k : InPlace Unit} {r r' : Reading} {cause : Failure}
    {log : List Notice} (h : m.perform r = ⟨(.error cause, r'), log⟩) :
    (m >>= fun _ => k).perform r = ⟨(.error cause, r'), log⟩ := by
  change (m.perform r >>= fun a => (ExceptT.bindCont (fun _ => k) a.1) a.2) = _
  rw [h]
  exact congrArg (Logged.mk _) (List.append_nil log)

theorem perform_readField (s d : Strategy Float) (item : Value) :
    (readField item).perform ⟨s, d⟩ =
      ⟨match (d.readField item).outcome with
        | .ok t => (.ok (), ⟨s, t⟩)
        | .error cause => (.error cause, ⟨s, d⟩), (d.readField item).log⟩ := by
  change ((d.readField item).run >>= fun outcome => _) = _
  rw [Attempt.outcome, Attempt.log]
  rcases (d.readField item).run with ⟨_ | _, log⟩ <;>
    exact congrArg (Logged.mk _) (List.append_nil log)

/-- A reading in place comes to what the reading comes to, shows nothing of it, and keeps what it
had read when it fails. -/
theorem perform_forM (s d : Strategy Float) (items : List Value) :
    ∃ left : Strategy Float, (items.forM readField).perform ⟨s, d⟩ =
      ⟨match (items.foldlM Strategy.readField d).outcome with
        | .ok t => (.ok (), ⟨s, t⟩)
        | .error cause => (.error cause, ⟨s, left⟩), (items.foldlM Strategy.readField d).log⟩ := by
  induction items generalizing d with
  | nil => exact ⟨d, rfl⟩
  | cons item rest ih =>
      have hstep := perform_readField s d item
      rw [List.foldlM_cons, Attempt.outcome_bind]
      cases hread : (d.readField item).outcome with
      | ok t =>
          rw [hread] at hstep
          obtain ⟨left, hrest⟩ := ih t
          refine ⟨left, ?_⟩
          change (readField item >>= fun _ => rest.forM readField).perform ⟨s, d⟩ = _
          rw [perform_bind_ok hstep, Attempt.log_bind hread, hrest]
          rfl
      | error cause =>
          rw [hread] at hstep
          refine ⟨d, ?_⟩
          change (readField item >>= fun _ => rest.forM readField).perform ⟨s, d⟩ = _
          rw [perform_bind_error hstep, Attempt.log_bind_error hread]
          rfl

/-- Reading in place leaves the strategy that is read, or the one that was there. -/
theorem perform_read (s : Strategy Float) (items : List Value) :
    ∃ left : Strategy Float, (read items).perform ⟨s, s⟩ =
      ⟨match (s.parse items).outcome with
        | .ok t => (.ok (), ⟨t, t⟩)
        | .error cause => (.error cause, ⟨s, left⟩), (s.parse items).log⟩ := by
  obtain ⟨left, hforM⟩ := perform_forM s { s with curve := Curve.empty } items
  refine ⟨left, ?_⟩
  have hstart : (change fun r => { r with draft := { r.shown with curve := Curve.empty } }).perform
      ⟨s, s⟩ = ⟨(.ok (), ⟨s, { s with curve := Curve.empty }⟩), []⟩ := rfl
  rw [read, perform_bind_ok hstart, parse]
  cases hread : (items.foldlM Strategy.readField { s with curve := Curve.empty }).outcome with
  | ok t =>
      rw [hread] at hforM
      rw [perform_bind_ok hforM]
      exact congrArg (Logged.mk _) (List.append_nil _)
  | error cause =>
      rw [hread] at hforM
      rw [perform_bind_error hforM]
      rfl

end InPlace

/-- A list of items either stops the reading, and then nothing of the strategy is changed, or it
says what the strategy is after it and what is reported. What stops it is an item that cannot be
taken apart into a name and a value, or a value whose failure is none that is reported. -/
theorem parse_says_last_values (s : Strategy Float) (items : List Value) :
    match firstStop items with
    | none => ∃ t, (s.parse items).outcome = .ok t ∧
        (InPlace.read items).perform ⟨s, s⟩ = ⟨(.ok (), ⟨t, t⟩), (s.parse items).log⟩ ∧
        s.Says (fieldsIn items) t ∧
        Notice.audible (s.parse items).log = reportsAfter s [] (fieldsIn items)
    | some cause => (s.parse items).outcome = .error cause ∧
        ∃ left, (InPlace.read items).perform ⟨s, s⟩ =
          ⟨(.error cause, ⟨s, left⟩), (s.parse items).log⟩ := by
  obtain ⟨left, hread⟩ := InPlace.perform_read s items
  cases hstop : firstStop items with
  | none =>
      obtain ⟨hfields, hgo⟩ := foldlM_fieldsIn hstop { s with curve := Curve.empty }
      obtain ⟨t, ht, hsaid, hlog⟩ := (says_nothing s).foldlM hgo
      rw [← hfields] at ht hlog
      have houtcome : (s.parse items).outcome = .ok t := ht
      rw [houtcome] at hread
      exact ⟨t, houtcome, hread, hsaid, hlog⟩
  | some cause =>
      have houtcome : (s.parse items).outcome = .error cause := outcome_foldlM_of_stop hstop _
      rw [houtcome] at hread
      exact ⟨houtcome, left, hread⟩

/-- A strategy with a point that was read before. -/
def readBefore : Strategy Float :=
  { fresh threeYears "MAC" with curve := ⟨[⟨5, 0.25⟩]⟩ }

/-- Both spellings of a field, a name that is a number, entries of every shape, and two that are
accepted at one price. -/
def mixedItems : List Value :=
  [fieldItem "phase_in" (.float 2), fieldItem " phaseIn " (.text "soon"), .list [.int 7, .null],
    fieldItem "reduction"
      (.list [.list [.int 100, .float 0.5], .text "none", .list [.int 1, .int 2, .int 3],
        .table [("tax", .int 100)], pointTable (0, -0.0)]),
    fieldItem "noBelowZero" (.text "yes"), fieldItem " reduction" (.list [.int 100, .text "0.75"]),
    fieldItem "reduction" (.int 1)]

def readMixed : Strategy Float :=
  ⟨"MAC", { Settings.default threeYears with phaseIn := 2, noBelowZero := true },
    ⟨[⟨0, -0.0⟩, ⟨100, 0.75⟩]⟩⟩

def mixedReports : List String :=
  ["Invalid value 'soon' for phaseIn in MAC; keeping 2.0: could not convert string to float: 'soon'",
    "Unrecognized field 7 found while parsing mac.",
    "Ignoring reduction entry 'none' in MAC: expected a (tax, value) pair",
    "Ignoring reduction entry [1, 2, 3] in MAC: expected a (tax, value) pair",
    "Ignoring reduction entry \x7b'tax': 100\x7d in MAC: 'value'", "Ignoring reduction entry 1 in MAC"]

/-- A fuel without a text is refused like any other value, and a name without one stops the reading
of what stands before it. -/
theorem parse_says_last_values_mixed :
    ((readBefore.parse mixedItems).outcome = .ok readMixed ∧
      readBefore.Says (fieldsIn mixedItems) readMixed ∧
      (Notice.audible (readBefore.parse mixedItems).log).map Notice.message = mixedReports) ∧
    (∃ t, (readBefore.parse [fieldItem "curveShiftFuelName" .tooLong]).outcome = .ok t ∧
      t.settings.get .shiftFuel = .text "" ∧
      Notice.audible (readBefore.parse [fieldItem "curveShiftFuelName" .tooLong]).log =
        [.invalidField .tooLong "curveShiftFuelName" "MAC" (.text "") .unwritableInteger]) ∧
    ∃ left log, (InPlace.read (mixedItems ++ [.list [.tooLong, .null]])).perform
      ⟨readBefore, readBefore⟩ = ⟨(.error .unwritableInteger, ⟨readBefore, left⟩), log⟩ := by
  have hgo : firstStop mixedItems = none := Option.isNone_iff_eq_none.1 (by decide +kernel)
  have hread : (readBefore.parse mixedItems).outcome = .ok readMixed := by
    rw [← toOption_eq_some_iff]
    decide +kernel
  have hsays (items : List Value) (h : firstStop items = none) :
      ∃ t, (readBefore.parse items).outcome = .ok t ∧ readBefore.Says (fieldsIn items) t ∧
        Notice.audible (readBefore.parse items).log =
          reportsAfter readBefore [] (fieldsIn items) := by
    have hall := parse_says_last_values readBefore items
    rw [h] at hall
    obtain ⟨t, ht, -, hsaid⟩ := hall
    exact ⟨t, ht, hsaid⟩
  have hstops (items : List Value) {cause : Failure} (h : firstStop items = some cause) :
      ∃ left log, (InPlace.read items).perform ⟨readBefore, readBefore⟩ =
        ⟨(.error cause, ⟨readBefore, left⟩), log⟩ := by
    have hall := parse_says_last_values readBefore items
    rw [h] at hall
    obtain ⟨-, left, hleft⟩ := hall
    exact ⟨left, _, hleft⟩
  refine ⟨⟨hread, ?_, by decide +kernel⟩, ?_, hstops _ ?_⟩
  · obtain ⟨t, ht, hsaid, -⟩ := hsays mixedItems hgo
    rw [hread] at ht
    rwa [← Except.ok.inj ht] at hsaid
  · have hnamed : Field.named? "curveShiftFuelName" = some .shiftFuel := by decide +kernel
    obtain ⟨hstop, hgiven, hreports⟩ :=
      nothing_of_refused (e := ("curveShiftFuelName", .tooLong)) hnamed
        (map_eq_error_iff.2 (Value.toName_of_no_text Value.toText_tooLong)) rfl
    have hfields : fieldsIn [fieldItem "curveShiftFuelName" .tooLong] =
        [("curveShiftFuelName", .tooLong)] := rfl
    have hgo : firstStop [fieldItem "curveShiftFuelName" .tooLong] = none := by
      rw [firstStop_cons]
      exact (Option.or_none).trans hstop
    obtain ⟨t, ht, hsaid, hlog⟩ := hsays _ hgo
    rw [hfields] at hsaid hlog
    refine ⟨t, ht, ?_, ?_⟩
    · rw [hsaid.settings, heldAfter, List.filterMap_cons_none (hgiven _)]
      rfl
    · rw [hlog, reportsAfter, hreports]
      rfl
  · rw [firstStop, List.findSome?_append, ← firstStop, hgo, Option.none_or,
      List.findSome?_singleton, stopAt, fieldOf_of_no_text Value.toText_tooLong]

end Strategy

end Macc
