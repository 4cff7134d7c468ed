import Macc.Proofs.Assignments
import Macc.Proofs.Files
import Macc.Proofs.Resolution

/-!
# What overrides say

A resolution finds an override through several hands: a configuration that may
not be there, a document, a table with its keys turned to upper case, a memory
of that table. What it finds is said here without any of them. A constant has
the text of its variable; without one, the last entry of the configuration whose
key spells its name in some mixture of cases; without either, its default. And
an override that cannot be converted is no reason to look at the next one.

Whatever has to be proved of a resolution that succeeds is proved of this.
-/

namespace Macc

/-! ## The overrides of a configuration -/

/-- The table that some keys lead to, one below the other; without entries where there is none. -/
def tableAt (entries : List (String × Value)) : List String → List (String × Value)
  | [] => entries
  | key :: rest =>
    match Entries.get? entries key with
    | some (.table below) => tableAt below rest
    | _ => []

/-- The overrides in the contents of a run configuration, with keys as they are written there. What
cannot be read holds none. -/
def overridesIn (contents : Except Failure ByteArray) : List (String × Value) :=
  match contents >>= Toml.parseBytes with
  | .ok document => tableAt document ["abatement", "constants"]
  | .error _ => []

/-- What stands in the run configuration in force. -/
def World.contents (w : World) : Except Failure ByteArray :=
  w.activeConfig >>= w.files.read

theorem constantsTable_eq (document : List (String × Value)) :
    constantsTable (.table document) = Entries.ofAssignments
      ((tableAt document ["abatement", "constants"]).map fun e => (Text.upper e.1, e.2)) := by
  simp only [constantsTable, tableAt]
  cases Entries.get? document "abatement" with
  | none => rfl
  | some outer =>
      cases outer with
      | table below =>
          dsimp only [Option.getD_some]
          cases Entries.get? below "constants" with
          | none => rfl
          | some inner => cases inner <;> rfl
      | _ => rfl

theorem FileTree.exists_failure_of_not_exists {t : FileTree} {p : Path}
    (h : t.pathExists p = .ok false) : ∃ failure, t.read p = .error failure := by
  cases hread : t.read p with
  | error failure => exact ⟨failure, rfl⟩
  | ok bytes =>
      rw [FileTree.pathExists_of_read hread] at h
      cases h

/-- The table that a resolution reads holds the overrides of the configuration, under their names in
upper case. -/
theorem World.table_eq {w : World} {table : List (String × Value)} (h : w.table = .ok table) :
    table = Entries.ofAssignments
      ((overridesIn w.contents).map fun e => (Text.upper e.1, e.2)) := by
  obtain ⟨path, hpath, hread⟩ := bind_eq_ok_iff.1 h
  rw [readOverrides] at hread
  obtain ⟨there, hthere, hread⟩ := Attempt.outcome_bind_eq_ok_iff.1 hread
  rw [Attempt.outcome_ofExcept] at hthere
  rw [overridesIn, World.contents, hpath, ok_bind]
  cases there with
  | false =>
      obtain ⟨failure, hfailure⟩ := FileTree.exists_failure_of_not_exists hthere
      rw [hfailure, error_bind]
      cases hread
      rfl
  | true =>
      cases hdocument : w.files.read path >>= Toml.parseBytes with
      | ok document =>
          rw [if_pos rfl, hdocument] at hread
          cases hread
          exact constantsTable_eq document
      | error cause =>
          rw [if_pos rfl, hdocument] at hread
          cases cause <;> cases hread <;> rfl

/-- The last of some overrides whose key is a name in upper case. -/
def lastNamed (overrides : List (String × Value)) (name : String) : Option Value :=
  ((overrides.filter fun e => Text.upper e.1 == name).getLast?).map (·.2)

theorem World.get?_table {w : World} {table : List (String × Value)} (h : w.table = .ok table)
    (name : String) : Entries.get? table name = lastNamed (overridesIn w.contents) name := by
  rw [World.table_eq h, Entries.get?_ofAssignments, List.filter_map, List.getLast?_map,
    Option.map_map]
  rfl

/-! ## One constant -/

/-- What a resolution knows of one of the constants. -/
structure Constant (β : Type) where
  name : String
  default : β
  convert : Value → Except Failure β
  /-- Where the constant stands among the constants. -/
  value : Constants Float → β
  upper_name : Text.upper name = name

namespace Constant

def carbonMarket : Constant String where
  name := "CARBON_MARKET"
  default := "CO2"
  convert := Value.toText
  value := Constants.carbonMarket
  upper_name := rfl

def normFactor : Constant Float where
  name := "NORM_FACTOR"
  default := 0.6
  convert := Value.toReal
  value := Constants.normFactor
  upper_name := rfl

def fuelShiftBasePeriod : Constant Int where
  name := "FUEL_SHIFT_BASE_PERIOD"
  default := 1
  convert := Value.toInteger
  value := Constants.fuelShiftBasePeriod
  upper_name := rfl

def techChangeStartPeriod : Constant Int where
  name := "TECH_CHANGE_START_PERIOD"
  default := 2
  convert := Value.toInteger
  value := Constants.techChangeStartPeriod
  upper_name := rfl

variable {β : Type}

/-- The override of a constant: the text of its variable, else the last entry whose key is its name
in upper case. -/
def found (c : Constant β) (environment : Entries String String)
    (overrides : List (String × Value)) : Option (Value × Source) :=
  match Entries.get? environment ("GHGMAC_" ++ c.name) with
  | some text => some (.text text, .environment)
  | none =>
    match lastNamed overrides c.name with
    | none | some .null => none
    | some v => some (v, .runConfig)

/-- What a constant is resolved to, and from where. -/
def taken (c : Constant β) (environment : Entries String String)
    (overrides : List (String × Value)) : β × Source :=
  match c.found environment overrides with
  | none => (c.default, .default)
  | some (raw, source) =>
    match c.convert raw with
    | .ok value => (value, source)
    | .error _ => (c.default, .default)

/-- Whether the constant has a variable of its own. -/
def HasVariable (c : Constant β) (w : World) : Prop :=
  ∃ text, Entries.get? w.environment ("GHGMAC_" ++ c.name) = some text

theorem override_eq {c : Constant β} {w : World}
    (h : c.HasVariable w ∨ ∃ table, w.table = .ok table) :
    Resolution.override w.environment w.table c.name =
      .ok (c.found w.environment (overridesIn w.contents)) := by
  rw [Resolution.override, found, World.variableOf]
  cases hvariable : Entries.get? w.environment ("GHGMAC_" ++ c.name) with
  | some text => rfl
  | none =>
      rcases h with ⟨text, htext⟩ | ⟨table, htable⟩
      · rw [hvariable] at htext
        cases htext
      · dsimp only
        rw [htable, ok_bind, World.get?_table htable]
        cases lastNamed (overridesIn w.contents) c.name with
        | none => rfl
        | some v => cases v <;> rfl

theorem override_returns_iff (c : Constant β) (w : World) :
    (∃ found, Resolution.override w.environment w.table c.name = .ok found) ↔
      c.HasVariable w ∨ ∃ table, w.table = .ok table := by
  refine ⟨fun ⟨found, hfound⟩ => ?_, fun h => ⟨_, override_eq h⟩⟩
  rw [Resolution.override, World.variableOf] at hfound
  cases hvariable : Entries.get? w.environment ("GHGMAC_" ++ c.name) with
  | some text => exact .inl ⟨text, hvariable⟩
  | none =>
      rw [hvariable] at hfound
      obtain ⟨table, htable, -⟩ := bind_eq_ok_iff.1 hfound
      exact .inr ⟨table, htable⟩

/-- What a resolution makes of one of the constants. -/
def resolved (c : Constant β) (w : World) : Except Failure (β × Source) :=
  Resolution.constant w.environment w.table c.name c.default c.convert

theorem resolved_eq {c : Constant β} {w : World} {r : β × Source} (h : c.resolved w = .ok r) :
    r = c.taken w.environment (overridesIn w.contents) := by
  rw [resolved, Resolution.constant, c.upper_name] at h
  obtain ⟨found, hfound, h⟩ := bind_eq_ok_iff.1 h
  have hoverride := override_eq ((override_returns_iff c w).1 ⟨found, hfound⟩)
  rw [hfound] at hoverride
  rw [taken, ← Except.ok.inj hoverride]
  cases found with
  | none =>
      cases h
      rfl
  | some pair =>
      obtain ⟨raw, source⟩ := pair
      dsimp only at h ⊢
      cases hconvert : c.convert raw with
      | ok value =>
          rw [hconvert] at h
          cases h
          rfl
      | error cause =>
          rw [hconvert] at h
          dsimp only at h
          split at h
          · cases h
            rfl
          · cases h

end Constant

/-! ## The four constants -/

/-- The constants under an environment and the overrides of a configuration. -/
def settledConstants (environment : Entries String String)
    (overrides : List (String × Value)) : Constants Float where
  carbonMarket := (Constant.carbonMarket.taken environment overrides).1
  normFactor := (Constant.normFactor.taken environment overrides).1
  fuelShiftBasePeriod := (Constant.fuelShiftBasePeriod.taken environment overrides).1
  techChangeStartPeriod := (Constant.techChangeStartPeriod.taken environment overrides).1

/-- Where each of the constants comes from, in the order of their names. -/
def settledSources (environment : Entries String String)
    (overrides : List (String × Value)) : List (String × String) :=
  [("CARBON_MARKET", (Constant.carbonMarket.taken environment overrides).2.name),
    ("FUEL_SHIFT_BASE_PERIOD", (Constant.fuelShiftBasePeriod.taken environment overrides).2.name),
    ("NORM_FACTOR", (Constant.normFactor.taken environment overrides).2.name),
    ("TECH_CHANGE_START_PERIOD",
      (Constant.techChangeStartPeriod.taken environment overrides).2.name)]

theorem constants_eq (w : World) :
    Resolution.constants w.environment w.table = do
      let market ← Constant.carbonMarket.resolved w
      let factor ← Constant.normFactor.resolved w
      let base ← Constant.fuelShiftBasePeriod.resolved w
      let start ← Constant.techChangeStartPeriod.resolved w
      return (⟨market.1, factor.1, base.1, start.1⟩,
        [("CARBON_MARKET", market.2), ("NORM_FACTOR", factor.2),
          ("FUEL_SHIFT_BASE_PERIOD", base.2), ("TECH_CHANGE_START_PERIOD", start.2)]) := rfl

/-- A resolution that succeeds leaves the constants and sources that the environment and the
overrides in force say. -/
theorem settled_of_resolved {w after : World}
    (h : resolveConstants.result w = (.ok (), after)) :
    after.constants = settledConstants w.environment (overridesIn w.contents) ∧
      after.sortedSources = settledSources w.environment (overridesIn w.contents) := by
  cases hr : Resolution.constants w.environment w.table with
  | error failure =>
      obtain ⟨o, s, c, hresult⟩ := result_resolveConstants_error hr
      rw [hresult] at h
      cases h
  | ok r =>
      obtain ⟨o, hresult⟩ := result_resolveConstants_ok hr
      rw [hresult] at h
      cases h
      rw [constants_eq] at hr
      obtain ⟨market, hmarket, hr⟩ := bind_eq_ok_iff.1 hr
      obtain ⟨factor, hfactor, hr⟩ := bind_eq_ok_iff.1 hr
      obtain ⟨base, hbase, hr⟩ := bind_eq_ok_iff.1 hr
      obtain ⟨start, hstart, hr⟩ := bind_eq_ok_iff.1 hr
      obtain rfl := Except.ok.inj hr
      rw [settledConstants, settledSources, ← Constant.resolved_eq hmarket,
        ← Constant.resolved_eq hfactor, ← Constant.resolved_eq hbase,
        ← Constant.resolved_eq hstart]
      refine ⟨rfl, ?_⟩
      simp [World.sortedSources, List.mergeSort, List.MergeSort.Internal.splitInTwo]

end Macc
