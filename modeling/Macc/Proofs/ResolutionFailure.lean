import Macc.Proofs.FieldRefusal
import Macc.Proofs.Overrides

/-!
# When a resolution fails

An override that is of no use is meant to be reported and passed over, and so is
a configuration that is of no use. Nearly all of them are: files that are missing
or are directories, documents that are none, values of the wrong kind, words,
fractions. What is left has failures of another family, and they end the
resolution: an integer beyond all doubles where a double is wanted, an infinity
where an integer is wanted, and on the side of the configuration a path that
means nothing, a name too long to be looked up, bytes that are no text and a
number too long to be read.

The configuration is looked at only for a constant without a variable of its own,
so with all four variables set none of its troubles counts.
-/

namespace Macc

/-! ## Configurations -/

theorem Path.eq_noHome_of_expandHome {home : Option String} {p : Path} {failure : Failure}
    (h : p.expandHome home = .error failure) : failure = .noHome := by
  rw [Path.expandHome] at h
  split at h
  · split at h
    · dsimp only at h
      split at h
      · split at h
        · cases h
          rfl
        · cases h
      · cases h
        rfl
    · cases h
  · cases h

theorem World.eq_noHome_of_activeConfig {w : World} {failure : Failure}
    (h : w.activeConfig = .error failure) : failure = .noHome := by
  rw [World.activeConfig] at h
  split at h
  · cases h
  · split at h
    · cases h
    · exact Path.eq_noHome_of_expandHome h
  · cases h

theorem FileTree.pathExists_error_iff (t : FileTree) (p : Path) :
    (∃ failure, t.pathExists p = .error failure) ↔ t.locate p = .nameTooLong := by
  rw [FileTree.pathExists]
  constructor
  · rintro ⟨failure, h⟩
    split at h
    · cases h
    · cases h
    · assumption
    · cases h
  · intro h
    rw [h]
    exact ⟨_, rfl⟩

/-- Whether bytes are refused before they can be told to be no document: they are no text, or they
hold a number that is too long. -/
def StopsReader (bytes : ByteArray) : Prop :=
  Toml.parseBytes bytes = .error .notUtf8 ∨
    ∃ digits, Toml.parseBytes bytes = .error (.integerDigits digits)

/-- Whether a file stops the reading of overrides. -/
def FileTree.StopsOverrides (t : FileTree) (p : Path) : Prop :=
  t.locate p = .nameTooLong ∨ ∃ bytes, t.read p = .ok bytes ∧ StopsReader bytes

theorem readOverrides_returns_iff (files : FileTree) (path : Path) :
    (∃ table, (readOverrides files path).outcome = .ok table) ↔ ¬files.StopsOverrides path := by
  have hlong := files.pathExists_error_iff path
  rw [readOverrides, Attempt.outcome_bind, Attempt.outcome_ofExcept, FileTree.StopsOverrides,
    ← hlong]
  cases hthere : files.pathExists path with
  | error failure =>
      refine iff_of_false ?_ fun h => h (.inl ⟨failure, rfl⟩)
      rintro ⟨table, htable⟩
      cases htable
  | ok there =>
      rw [ok_bind]
      cases there with
      | false =>
          refine iff_of_true ⟨_, rfl⟩ ?_
          rintro (⟨failure, h⟩ | ⟨bytes, hbytes, -⟩)
          · cases h
          · rw [FileTree.pathExists_of_read hbytes] at hthere
            cases hthere
      | true =>
          rw [if_pos rfl]
          cases hread : files.read path with
          | error failure =>
              refine iff_of_true ?_ ?_
              · rw [FileTree.read] at hread
                split at hread <;> cases hread <;> exact ⟨_, rfl⟩
              · rintro (⟨failure, h⟩ | ⟨bytes, h, -⟩) <;> cases h
          | ok bytes =>
              rw [ok_bind]
              by_cases hstops : StopsReader bytes
              · refine iff_of_false ?_ fun h => h (.inr ⟨bytes, rfl, hstops⟩)
                rintro ⟨table, htable⟩
                rcases hstops with hparse | ⟨digits, hparse⟩ <;> rw [hparse] at htable <;>
                  cases htable
              · refine iff_of_true ?_ ?_
                · cases hparse : Toml.parseBytes bytes with
                  | ok entries => exact ⟨_, rfl⟩
                  | error cause =>
                      cases cause with
                      | notUtf8 => exact absurd (.inl hparse) hstops
                      | integerDigits digits => exact absurd (.inr ⟨digits, hparse⟩) hstops
                      | _ => exact ⟨_, rfl⟩
                · rintro (⟨failure, h⟩ | ⟨read, h, hread⟩)
                  · cases h
                  · cases h
                    exact hstops hread

/-- Whether the run configuration in force stops a resolution that looks at it. -/
def World.ConfigStops (w : World) : Prop :=
  w.activeConfig = .error .noHome ∨
    ∃ path, w.activeConfig = .ok path ∧ w.files.StopsOverrides path

theorem World.table_returns_iff (w : World) : (∃ table, w.table = .ok table) ↔ ¬w.ConfigStops := by
  rw [World.table, World.ConfigStops]
  cases hactive : w.activeConfig with
  | error failure =>
      obtain rfl := World.eq_noHome_of_activeConfig hactive
      refine iff_of_false ?_ fun h => h (.inl rfl)
      rintro ⟨table, htable⟩
      cases htable
  | ok path =>
      rw [ok_bind, readOverrides_returns_iff]
      refine not_congr ⟨fun h => .inr ⟨path, rfl, h⟩, ?_⟩
      rintro (h | ⟨other, h, hstops⟩)
      · cases h
      · cases h
        exact hstops

/-! ## Conversions -/

/-- Whether a value can be asked for an integer: it is not infinite. -/
def Value.IsFinite : Value → Prop
  | .float x => x.isInf = false
  | _ => True

theorem Value.toReal_settles_iff (v : Value) : Settles v.toReal ↔ v.FitsReal := by
  refine ⟨fun h => ?_, toReal_settles⟩
  by_contra hlarge
  rw [toReal_of_not_fits hlarge] at h
  rcases h with ⟨x, hx⟩ | ⟨cause, hcause, hbad⟩
  · cases hx
  · cases hcause
    cases hbad

theorem truncateFloat_settles_iff (x : Float) : Settles (truncateFloat x) ↔ x.isInf = false := by
  have hinf := isInf_iff (x := x)
  rw [truncateFloat]
  cases hx : Binary64.ofFloat x with
  | finite negative m e =>
      rw [hx] at hinf
      have hfinite : x.isInf = false := by
        rw [← Bool.not_eq_true, hinf]
        rintro ⟨s, hs⟩
        cases hs
      refine iff_of_true ?_ hfinite
      cases negative <;> exact .inl ⟨_, rfl⟩
  | infinite negative =>
      rw [hx] at hinf
      have hnumber : x.isNaN = false := by
        rw [← Bool.not_eq_true, isNaN_iff, hx]
        intro h
        cases h
      refine iff_of_false ?_ ?_
      · dsimp only [Binary64.truncate?]
        rw [hnumber]
        rintro (⟨n, hn⟩ | ⟨cause, hcause, hbad⟩)
        · cases hn
        · cases hcause
          cases hbad
      · rw [hinf.2 ⟨negative, rfl⟩]
        intro h
        cases h
  | nan =>
      rw [hx] at hinf
      have hfinite : x.isInf = false := by
        rw [← Bool.not_eq_true, hinf]
        rintro ⟨s, hs⟩
        cases hs
      refine iff_of_true ?_ hfinite
      dsimp only [Binary64.truncate?]
      rw [isNaN_iff.2 hx]
      exact .inr ⟨_, rfl, rfl⟩

theorem Value.toInteger_settles_iff (v : Value) : Settles v.toInteger ↔ v.IsFinite := by
  cases v with
  | float x => exact truncateFloat_settles_iff x
  | text s =>
      refine iff_of_true ?_ trivial
      rw [toInteger]
      split
      · exact .inl ⟨_, rfl⟩
      · exact .inr ⟨_, rfl, rfl⟩
      · exact .inr ⟨_, rfl, rfl⟩
  | bool b => exact iff_of_true (.inl ⟨_, rfl⟩) trivial
  | int n => exact iff_of_true (.inl ⟨n, rfl⟩) trivial
  | null | list _ | table _ | date _ | time _ | moment _ =>
      exact iff_of_true (.inr ⟨_, rfl, rfl⟩) trivial

/-! ## Constants -/

namespace Constant

variable {β : Type}

/-- The override of a constant in a world; none where the configuration cannot be read. -/
def override (c : Constant β) (w : World) : Option (Value × Source) :=
  c.found w.environment (overridesIn w.contents)

theorem resolved_returns_iff (c : Constant β) (w : World) :
    (∃ r, c.resolved w = .ok r) ↔ (w.ConfigStops → c.HasVariable w) ∧
      ∀ raw source, c.override w = some (raw, source) → Settles (c.convert raw) := by
  have hneeded : (w.ConfigStops → c.HasVariable w) ↔
      c.HasVariable w ∨ ∃ table, w.table = .ok table := by
    rw [World.table_returns_iff, ← imp_iff_or_not]
  rw [resolved, Resolution.constant, c.upper_name, exists_bind_iff, hneeded]
  constructor
  · rintro ⟨found, hfound, r, hr⟩
    have hready := (override_returns_iff c w).1 ⟨found, hfound⟩
    refine ⟨hready, fun raw source hraw => ?_⟩
    rw [override_eq hready] at hfound
    obtain rfl := hraw.symm.trans (Except.ok.inj hfound)
    dsimp only at hr
    cases hconvert : c.convert raw with
    | ok value => exact .inl ⟨value, rfl⟩
    | error cause =>
        rw [hconvert] at hr
        dsimp only at hr
        split at hr
        · next hbad => exact .inr ⟨cause, rfl, hbad⟩
        · cases hr
  · rintro ⟨hready, hsettles⟩
    refine ⟨_, override_eq hready, ?_⟩
    cases hfound : c.found w.environment (overridesIn w.contents) with
    | none => exact ⟨_, rfl⟩
    | some pair =>
        rcases hsettles pair.1 pair.2 hfound with ⟨value, hvalue⟩ | ⟨cause, hcause, hbad⟩
        · simp only [hvalue]
          exact ⟨_, rfl⟩
        · simp only [hcause, hbad]
          exact ⟨_, rfl⟩

/-- Whether a constant without an override that can be converted is at its default. -/
def FallsBack (c : Constant β) (before after : World) : Prop :=
  (∀ raw source, c.override before = some (raw, source) → ∃ cause, c.convert raw = .error cause) →
    c.value after.constants = c.default ∧ (c.name, Source.default.name) ∈ after.sortedSources

theorem refused_of_all {c : Constant β} {w : World}
    (h : ((c.override w).all fun o => !(c.convert o.1).isOk) = true) (raw : Value)
    (source : Source) (hraw : c.override w = some (raw, source)) :
    ∃ cause, c.convert raw = .error cause := by
  rw [hraw, Option.all_some, Bool.not_eq_true'] at h
  exact exists_error_of_not_isOk h

theorem taken_of_refused {c : Constant β} {w : World}
    (h : ∀ raw source, c.override w = some (raw, source) →
      ∃ cause, c.convert raw = .error cause) :
    c.taken w.environment (overridesIn w.contents) = (c.default, .default) := by
  rw [taken]
  cases hfound : c.found w.environment (overridesIn w.contents) with
  | none => rfl
  | some pair =>
      obtain ⟨cause, hcause⟩ := h pair.1 pair.2 hfound
      simp only [hcause]

theorem FallsBack.of_taken {c : Constant β} {w after : World}
    (hvalue : c.value after.constants = (c.taken w.environment (overridesIn w.contents)).1)
    (hsource : (c.name, (c.taken w.environment (overridesIn w.contents)).2.name) ∈
      after.sortedSources) : c.FallsBack w after := by
  intro h
  rw [taken_of_refused h] at hvalue hsource
  exact ⟨hvalue, hsource⟩

end Constant

/-! ## Resolutions -/

theorem resolves_iff_all_resolved (w : World) :
    (∃ after, resolveConstants.result w = (.ok (), after)) ↔
      (∃ r, Constant.carbonMarket.resolved w = .ok r) ∧
      (∃ r, Constant.normFactor.resolved w = .ok r) ∧
      (∃ r, Constant.fuelShiftBasePeriod.resolved w = .ok r) ∧
      ∃ r, Constant.techChangeStartPeriod.resolved w = .ok r := by
  have hreturns : (∃ after, resolveConstants.result w = (.ok (), after)) ↔
      ∃ r, Resolution.constants w.environment w.table = .ok r := by
    cases hr : Resolution.constants w.environment w.table with
    | ok r =>
        obtain ⟨o, hresult⟩ := result_resolveConstants_ok hr
        exact iff_of_true ⟨_, hresult⟩ ⟨r, rfl⟩
    | error failure =>
        obtain ⟨o, s, c, hresult⟩ := result_resolveConstants_error hr
        rw [hresult]
        refine iff_of_false ?_ ?_
        · rintro ⟨after, h⟩
          cases h
        · rintro ⟨r, h⟩
          cases h
  rw [hreturns, constants_eq]
  simp only [exists_bind_iff]
  constructor
  · rintro ⟨market, hmarket, factor, hfactor, base, hbase, start, hstart, -⟩
    exact ⟨⟨market, hmarket⟩, ⟨factor, hfactor⟩, ⟨base, hbase⟩, ⟨start, hstart⟩⟩
  · rintro ⟨⟨market, hmarket⟩, ⟨factor, hfactor⟩, ⟨base, hbase⟩, ⟨start, hstart⟩⟩
    exact ⟨market, hmarket, factor, hfactor, base, hbase, start, hstart, _, rfl⟩

theorem forall_hasVariable_iff (w : World) :
    (∀ name ∈ Constants.names,
      ∃ text, Entries.get? w.environment ("GHGMAC_" ++ name) = some text) ↔
      Constant.carbonMarket.HasVariable w ∧ Constant.normFactor.HasVariable w ∧
      Constant.fuelShiftBasePeriod.HasVariable w ∧
      Constant.techChangeStartPeriod.HasVariable w := by
  simp only [Constants.names, List.forall_mem_cons, List.not_mem_nil, false_implies, implies_true,
    and_true]
  rfl

/-- A resolution returns exactly when the run configuration, if a constant has no variable, can be
read or is passed over, no integer beyond all doubles stands for the factor and no infinity for a
period. When it returns, a constant has its default, and says so, unless it has an override that can
be converted. -/
theorem resolveConstants_returns_iff (w : World) :
    ((∃ after, resolveConstants.result w = (.ok (), after)) ↔
      (w.ConfigStops → ∀ name ∈ Constants.names,
        ∃ text, Entries.get? w.environment ("GHGMAC_" ++ name) = some text) ∧
      (∀ raw source, Constant.normFactor.override w = some (raw, source) → raw.FitsReal) ∧
      (∀ raw source, Constant.fuelShiftBasePeriod.override w = some (raw, source) →
        raw.IsFinite) ∧
      (∀ raw source, Constant.techChangeStartPeriod.override w = some (raw, source) →
        raw.IsFinite)) ∧
    ∀ after, resolveConstants.result w = (.ok (), after) →
      Constant.carbonMarket.FallsBack w after ∧ Constant.normFactor.FallsBack w after ∧
      Constant.fuelShiftBasePeriod.FallsBack w after ∧
      Constant.techChangeStartPeriod.FallsBack w after := by
  constructor
  · rw [resolves_iff_all_resolved, forall_hasVariable_iff]
    simp only [Constant.resolved_returns_iff]
    have hmarket : ∀ raw source, Constant.carbonMarket.override w = some (raw, source) →
        Settles (Constant.carbonMarket.convert raw) := fun raw _ _ => raw.toText_settles
    have hfactor : ∀ raw, Settles (Constant.normFactor.convert raw) ↔ raw.FitsReal :=
      Value.toReal_settles_iff
    have hbase : ∀ raw, Settles (Constant.fuelShiftBasePeriod.convert raw) ↔ raw.IsFinite :=
      Value.toInteger_settles_iff
    have hstart : ∀ raw, Settles (Constant.techChangeStartPeriod.convert raw) ↔ raw.IsFinite :=
      Value.toInteger_settles_iff
    simp only [hfactor, hbase, hstart]
    constructor
    · rintro ⟨⟨h₁, -⟩, ⟨h₂, hfits⟩, ⟨h₃, hfinite⟩, ⟨h₄, hfinite'⟩⟩
      exact ⟨fun hstops => ⟨h₁ hstops, h₂ hstops, h₃ hstops, h₄ hstops⟩, hfits, hfinite, hfinite'⟩
    · rintro ⟨hvariables, hfits, hfinite, hfinite'⟩
      exact ⟨⟨fun hstops => (hvariables hstops).1, hmarket⟩,
        ⟨fun hstops => (hvariables hstops).2.1, hfits⟩,
        ⟨fun hstops => (hvariables hstops).2.2.1, hfinite⟩,
        ⟨fun hstops => (hvariables hstops).2.2.2, hfinite'⟩⟩
  · intro after hafter
    obtain ⟨hconstants, hsources⟩ := settled_of_resolved hafter
    have hmem : ∀ e ∈ settledSources w.environment (overridesIn w.contents),
        e ∈ after.sortedSources := by
      rw [hsources]
      exact fun e he => he
    exact ⟨.of_taken (congrArg Constants.carbonMarket hconstants) (hmem _ (.head _)),
      .of_taken (congrArg Constants.normFactor hconstants) (hmem _ (.tail _ (.tail _ (.head _)))),
      .of_taken (congrArg Constants.fuelShiftBasePeriod hconstants) (hmem _ (.tail _ (.head _))),
      .of_taken (congrArg Constants.techChangeStartPeriod hconstants)
        (hmem _ (.tail _ (.tail _ (.tail _ (.head _)))))⟩

/-- A world whose run configuration has some contents. -/
def configuredWorld (contents : ByteArray) : World :=
  .ofFiles ⟨[(["run.toml"], .file contents)], []⟩

def refusedOverrides : ByteArray :=
  ("[abatement.constants]\nNORM_FACTOR = \"many\"\nFUEL_SHIFT_BASE_PERIOD = nan\n" ++
    "TECH_CHANGE_START_PERIOD = 3.7\n").toUTF8

theorem resolveConstants_returns_on_refusedOverrides :
    ∃ after, resolveConstants.result (configuredWorld refusedOverrides) = (.ok (), after) ∧
      after.constants.carbonMarket = "CO2" ∧ after.constants.normFactor = 0.6 ∧
      after.constants.fuelShiftBasePeriod = 1 ∧
      ("NORM_FACTOR", "default") ∈ after.sortedSources ∧
      ("FUEL_SHIFT_BASE_PERIOD", "default") ∈ after.sortedSources := by
  have hresolves : (resolveConstants.result (configuredWorld refusedOverrides)).1.isOk = true := by
    decide +kernel
  rcases hr : resolveConstants.result (configuredWorld refusedOverrides) with ⟨failure | _, after⟩
  · rw [hr] at hresolves
    cases hresolves
  · obtain ⟨market, factor, base, -⟩ := (resolveConstants_returns_iff _).2 after hr
    have hmarket := market (Constant.refused_of_all (by decide +kernel))
    have hfactor := factor (Constant.refused_of_all (by decide +kernel))
    have hbase := base (Constant.refused_of_all (by decide +kernel))
    exact ⟨after, rfl, hmarket.1, hfactor.1, hbase.1, hfactor.2, hbase.2⟩

/-- The kind of failure that ends a resolution under some contents of the configuration. -/
def endedBy (contents : ByteArray) : Option FailureKind :=
  match (resolveConstants.result (configuredWorld contents)).1 with
  | .ok () => none
  | .error failure => some failure.kind

/-- An infinite period, and bytes that are no text, end a resolution. -/
theorem resolveConstants_fails_on_stoppingContents :
    endedBy "[abatement.constants]\nTECH_CHANGE_START_PERIOD = inf\n".toUTF8 = some .overflow ∧
      endedBy ⟨#[255]⟩ = some .encoding := by
  constructor
  · decide +kernel
  · decide +kernel

end Macc
