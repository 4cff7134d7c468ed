import Macc.Proofs.CatalogueEntries
import Macc.Proofs.Files
import Macc.Proofs.Scopes

/-!
# What a run writes

A run that succeeds has written a report with one row for every curve, region
and period, in this order, and each row holds the reduction of the last entry
with its key. Prices, entries and constants are what the files and the
environment say, so whatever was resolved before the run has no part in it.

A run that fails has written nothing, with one exception, and the exception is
in the order of events: the report is written inside the scope of the run, and
the scope is left after that. When the constants of the scope outside cannot be
resolved again the run fails with its report in place.
-/

namespace Macc

/-! ## The rows of a report -/

/-- What the rows of a report stand for, in their order: keys, below them regions, below them
periods. -/
def reportPlaces (keys : List SourceKey) (regions : List String) (count : Nat) :
    List (SourceKey × String × Nat) :=
  keys.flatMap fun key => regions.flatMap fun region =>
    (List.range count).map fun period => (key, region, period)

/-- Whether a row is the one for a place: with the year of its period, and with the reduction that
the last entry with its key has there. -/
structure ReductionRow.Answers (e : Economy Float) (entries : List (SourceKey × Strategy Float))
    (place : SourceKey × String × Nat) (row : ReductionRow Float) : Prop where
  source : row.source = place.1
  region : row.region = place.2.1
  period : row.period = place.2.2
  year : e.horizon.years[place.2.2]? = some row.year
  reduction : ∃ s, ((entries.filter fun entry => entry.1 == place.1).getLast?).map (·.2) = some s ∧
    (s.reduction e place.2.1 place.2.2).outcome = .ok row.reduction

section

variable {e : Economy Float} {entries : List (SourceKey × Strategy Float)} {regions : List String}

theorem map_reportCells (cat : Catalogue Float) (regions : List String) (h : Horizon) :
    (reportCells cat regions h.periods).map (fun c => (c.1.1, c.2.1, c.2.2.toNat)) =
      reportPlaces (Entries.keys cat) regions h.count := by
  simp only [reportCells, reportPlaces, Entries.keys, Horizon.periods, List.map_flatMap,
    List.flatMap_map, List.map_map, Function.comp_def, Int.toNat_natCast]

theorem mem_reportCells {cat : Catalogue Float} {h : Horizon}
    {c : (SourceKey × Strategy Float) × String × Int} (hc : c ∈ reportCells cat regions h.periods) :
    c.1 ∈ cat ∧ 0 ≤ c.2.2 := by
  simp only [reportCells, List.mem_flatMap, List.mem_map, Horizon.periods, List.mem_range] at hc
  obtain ⟨entry, hentry, region, -, period, ⟨k, -, rfl⟩, rfl⟩ := hc
  exact ⟨hentry, Int.natCast_nonneg k⟩

theorem answers_of_reductionRow {c : (SourceKey × Strategy Float) × String × Int}
    (hc : c.1 ∈ Entries.ofAssignments entries) (hperiod : 0 ≤ c.2.2) {row : ReductionRow Float}
    (hrow : (reductionRow e c.1.1 c.1.2 c.2.1 c.2.2).outcome = .ok row) :
    ReductionRow.Answers e entries (c.1.1, c.2.1, c.2.2.toNat) row := by
  obtain ⟨⟨key, s⟩, region, period⟩ := c
  obtain ⟨year, hyear, hrow⟩ := Attempt.outcome_bind_eq_ok_iff.1 hrow
  obtain ⟨reduction, hreduction, hrow⟩ := Attempt.outcome_bind_eq_ok_iff.1 hrow
  cases hrow
  have hnat : ((period.toNat : Nat) : Int) = period := Int.toNat_of_nonneg hperiod
  refine ⟨rfl, rfl, hnat.symm, ?_, s, Catalogue.getLast?_of_mem hc, ?_⟩
  · rw [Attempt.outcome_ofExcept, Horizon.yearOf, Horizon.yearAt,
      if_neg (Int.not_lt.2 hperiod)] at hyear
    dsimp only
    split at hyear
    · next y hy =>
        cases hyear
        exact hy
    · cases hyear
  · dsimp only
    rw [hnat]
    exact hreduction

theorem forall₂_answers {rows : List (ReductionRow Float)}
    (h : (reductionReport e (Entries.ofAssignments entries) regions none).outcome = .ok rows) :
    List.Forall₂ (ReductionRow.Answers e entries)
      (reportPlaces (entries.map (·.1)).eraseDups regions e.horizon.count) rows := by
  rw [← Entries.keys_ofAssignments, ← map_reportCells, List.forall₂_map_left_iff]
  rw [reductionReport, Attempt.outcome_mapM, Option.getD_none] at h
  have hcells := (List.forall₂_and_left _ _).2
    ⟨fun c hc => mem_reportCells hc, forall₂_of_mapM h⟩
  refine hcells.imp fun c row hrow => ?_
  obtain ⟨⟨hmem, hperiod⟩, hrow⟩ := hrow
  exact answers_of_reductionRow hmem hperiod hrow

end

/-! ## The parts of a run -/

namespace RunSettings

structure Inputs where
  constants : Constants Float
  prices : PriceTable Float
  entries : List (SourceKey × Strategy Float)

/-- What a run evaluates, as the files and the environment say. The constants are those of its own
configuration, after the environment and before the defaults. -/
def inputs (s : RunSettings) (w : World) : Except Failure Inputs :=
  match s.catalogueFile, s.priceFile with
  | none, _ => .error .catalogueUnset
  | _, none => .error .pricesUnset
  | some catalogueFile, some priceFile => do
    let (constants, _) ← Resolution.constants w.environment
      (readOverrides w.files s.configPath).outcome
    let prices ← (PriceTable.load w.files priceFile (some s.horizon)).outcome
    let entries ← Catalogue.entriesIn w.files s.horizon catalogueFile
    return ⟨constants, prices, entries⟩

def reportPath (s : RunSettings) : Path :=
  s.output.child reportName

variable (s : RunSettings)

theorem outcome_rows (files : FileTree) (constants : Constants Float)
    (catalogueFile priceFile : Path) :
    (s.rows files constants catalogueFile priceFile).outcome = (do
      let prices ← (PriceTable.load files priceFile (some s.horizon)).outcome
      let entries ← Catalogue.entriesIn files s.horizon catalogueFile
      (reductionReport ⟨constants, s.horizon, prices⟩ (Entries.ofAssignments entries) s.regions
        none).outcome) := by
  have hreported : ∀ (n : Notice) (rest : PUnit → Attempt (List (ReductionRow Float))),
      (report n >>= rest).outcome = (rest PUnit.unit).outcome := by
    intro n rest
    rw [Attempt.outcome_bind]
    rfl
  rw [rows, hreported, Attempt.outcome_bind]
  cases (PriceTable.load files priceFile (some s.horizon)).outcome with
  | error failure => rfl
  | ok prices =>
      rw [ok_bind, ok_bind, hreported, Attempt.outcome_bind, Catalogue.outcome_load]
      cases Catalogue.entriesIn files s.horizon catalogueFile with
      | error failure => rfl
      | ok entries =>
          rw [ok_bind, ok_bind, ok_bind, Attempt.outcome_bind, Attempt.outcome_forM_ofLogged,
            ok_bind]
          split
          · rw [hreported]
          · rfl

theorem result_writeReport (text : String) (w : World) :
    (∃ written, w.files.write s.reportPath text.toUTF8 = .ok written ∧
      (s.writeReport text).result w = (.ok s.reportPath, { w with files := written })) ∨
    ∃ failure, (s.writeReport text).result w = (.error failure, w) := by
  rw [writeReport, Work.result_bind_ok (Work.result_world w)]
  split
  · have hwrite : Work.result (Work.onFiles fun files =>
        files.withFile s.reportPath text.toUTF8) w =
        ((w.files.withFile s.reportPath text.toUTF8).2,
          { w with files := (w.files.withFile s.reportPath text.toUTF8).1 }) := rfl
    cases hfiles : w.files.write s.reportPath text.toUTF8 with
    | ok written =>
        rw [FileTree.withFile, hfiles] at hwrite
        exact .inl ⟨written, rfl, Work.result_bind_ok hwrite⟩
    | error failure =>
        rw [FileTree.withFile, hfiles] at hwrite
        exact .inr ⟨failure, Work.result_bind_error hwrite⟩
  · exact .inr ⟨_, rfl⟩

/-- What a run does inside its scope: it writes its rows, or it fails and changes nothing. -/
theorem result_evaluateHere (catalogueFile priceFile : Path) (w : World) :
    (∃ found written,
      (s.rows w.files w.constants catalogueFile priceFile).outcome = .ok found ∧
      w.files.write s.reportPath (reportText found).toUTF8 = .ok written ∧
      (s.evaluateHere catalogueFile priceFile).result w =
        (.ok s.reportPath, { w with files := written })) ∨
    ∃ failure, (s.evaluateHere catalogueFile priceFile).result w = (.error failure, w) := by
  have htold : ∀ (n : Notice) (rest : Unit → Work Path),
      (Work.tell n >>= rest).result w = (rest ()).result w :=
    fun n _ => Work.result_bind_ok (Work.result_tell n w)
  have hrest : ∀ found, (do
      let path ← s.writeReport (reportText found)
      Work.tell (.wroteReductions found.length path.text)
      return path : Work Path).result w = (s.writeReport (reportText found)).result w := by
    intro found
    rw [Work.result_bind]
    rcases (s.writeReport (reportText found)).result w with ⟨_ | path, v⟩ <;> rfl
  have hwhole : (s.evaluateHere catalogueFile priceFile).result w =
      match (s.rows w.files w.constants catalogueFile priceFile).outcome with
      | .ok found => (s.writeReport (reportText found)).result w
      | .error failure => (.error failure, w) := by
    have hfound := Work.result_ofAttempt (s.rows w.files w.constants catalogueFile priceFile) w
    rw [evaluateHere, Work.result_bind_ok (Work.result_world w), htold]
    split
    all_goals
      try rw [htold]
      cases hrows : (s.rows w.files w.constants catalogueFile priceFile).outcome with
      | ok found =>
          rw [hrows] at hfound
          rw [Work.result_bind_ok hfound]
          exact hrest found
      | error failure =>
          rw [hrows] at hfound
          exact Work.result_bind_error hfound
  rw [hwhole]
  cases hrows : (s.rows w.files w.constants catalogueFile priceFile).outcome with
  | error failure => exact .inr ⟨failure, rfl⟩
  | ok found =>
      rcases s.result_writeReport (reportText found) w with ⟨written, hwrite, hresult⟩ | hfail
      · exact .inl ⟨found, written, rfl, hwrite, hresult⟩
      · exact .inr hfail

end RunSettings

/-! ## Entering and leaving -/

theorem result_openScope_of_not_entered {w : World} {path : Path} {failure : Failure}
    (h : w.entered path = .error failure) :
    ∃ cause left, (openScope path).result w = (.error cause, left) ∧ left.files = w.files := by
  have hfiles := keeps_openScope outer_files path w
  obtain ⟨cause, left, hresult⟩ : ∃ cause left,
      (openScope path).result w = (.error cause, left) := by
    rw [openScope, Work.result_bind_ok (Work.result_world w),
      Work.result_bind_ok (Work.result_world w)]
    rw [World.entered] at h
    cases htarget : path.expandHome w.home with
    | error cause => exact ⟨cause, w, Work.result_bind_error (Work.result_ofExcept _ w)⟩
    | ok target =>
        rw [htarget, ok_bind] at h
        rw [Work.result_bind_ok (Work.result_ofExcept _ w),
          Work.result_bind_ok (Work.result_change _ w),
          Work.result_bind_ok (Work.result_attempted _ _)]
        rcases hr : resolveConstants.result { w with scope := some target } with ⟨cause | _, v⟩
        · -- closing may fail in its own way, and then that is the failure
          change ∃ cause' left, (closeScope w.scope >>= fun _ => throw cause).result v = _
          rw [Work.result_bind]
          rcases (closeScope w.scope).result v with ⟨other | _, left⟩
          · exact ⟨other, left, rfl⟩
          · exact ⟨cause, left, rfl⟩
        · rw [hr] at h
          cases h
  rw [hresult] at hfiles
  exact ⟨cause, left, hresult, hfiles⟩

/-- Inside a scope the constants are those of its configuration. -/
theorem constants_of_entered {w inside : World} {path : Path} (h : w.entered path = .ok inside)
    (hplain : path.expandHome w.home = .ok path) :
    inside.files = w.files ∧ Resolution.constants w.environment (readOverrides w.files path).outcome =
      .ok (inside.constants, inside.sources) := by
  rw [World.entered, hplain, ok_bind] at h
  obtain ⟨o, s, c, hresult, hvalue⟩ := resolves_resolveConstants { w with scope := some path }
  have htable : World.table { w with scope := some path } =
      (readOverrides w.files path).outcome := rfl
  rw [htable] at hresult hvalue
  rw [hresult] at h
  cases hr : Resolution.constants w.environment (readOverrides w.files path).outcome with
  | error failure =>
      rw [hr] at h
      cases h
  | ok r =>
      obtain ⟨rfl, rfl⟩ := hvalue r hr
      rw [hr] at h
      cases h
      exact ⟨rfl, rfl⟩

/-- Leaving a scope fails only as the resolution of the constants outside does. -/
theorem result_closeScope_error {before : Option Path} {v after : World} {failure : Failure}
    (h : (closeScope before).result v = (.error failure, after)) :
    Resolution.constants after.environment after.table = .error failure := by
  obtain ⟨o, s, c, hresolve, -⟩ := resolves_resolveConstants { v with scope := before }
  have hclose : (closeScope before).result v =
      resolveConstants.result { v with scope := before } := rfl
  rw [hclose, hresolve] at h
  obtain ⟨hfailure, rfl⟩ := Prod.mk.inj h
  cases hr : Resolution.constants v.environment (World.table { v with scope := before }) with
  | ok r =>
      rw [hr] at hfailure
      cases hfailure
  | error cause =>
      rw [hr] at hfailure
      cases hfailure
      exact hr

section

variable {α : Type} {w after : World} {path : Path} {body : Work α}

theorem result_withScope_of_entered {inside : World} (h : w.entered path = .ok inside) :
    (withScope path body).result w =
      match (closeScope w.scope).result (body.result inside).2 with
      | (.ok (), w') => ((body.result inside).1, w')
      | (.error failure, w') => (.error failure, w') := by
  rw [withScope, Work.result_bind_ok (result_openScope_ok h)]
  exact Work.result_always body (closeScope w.scope) inside

theorem exists_body_of_withScope {a : α} (h : (withScope path body).result w = (.ok a, after)) :
    ∃ inside left, w.entered path = .ok inside ∧ body.result inside = (.ok a, left) ∧
      after.files = left.files := by
  cases hentered : w.entered path with
  | error failure =>
      obtain ⟨cause, left, hopen, -⟩ := result_openScope_of_not_entered hentered
      rw [withScope, Work.result_bind_error hopen] at h
      cases h
  | ok inside =>
      have hfiles := keeps_closeScope outer_files w.scope (body.result inside).2
      rw [result_withScope_of_entered hentered] at h
      rcases hclose : (closeScope w.scope).result (body.result inside).2 with ⟨failure | _, v⟩
      · rw [hclose] at h
        cases h
      · rw [hclose] at h hfiles
        obtain ⟨hbody, rfl⟩ := Prod.mk.inj h
        exact ⟨inside, (body.result inside).2, rfl, Prod.ext hbody rfl, hfiles⟩

/-- What fails in a scope has not entered it, has failed inside, or cannot leave it. -/
theorem withScope_error {failure : Failure}
    (h : (withScope path body).result w = (.error failure, after)) :
    after.files = w.files ∨
      (∃ inside left, w.entered path = .ok inside ∧ body.result inside = (.error failure, left) ∧
        after.files = left.files) ∨
      Resolution.constants after.environment after.table = .error failure := by
  cases hentered : w.entered path with
  | error cause =>
      obtain ⟨other, left, hopen, hfiles⟩ := result_openScope_of_not_entered hentered
      rw [withScope, Work.result_bind_error hopen] at h
      cases h
      exact .inl hfiles
  | ok inside =>
      have hfiles := keeps_closeScope outer_files w.scope (body.result inside).2
      rw [result_withScope_of_entered hentered] at h
      rcases hclose : (closeScope w.scope).result (body.result inside).2 with ⟨cause | _, v⟩
      · rw [hclose] at h
        cases h
        exact .inr (.inr (result_closeScope_error hclose))
      · rw [hclose] at h hfiles
        obtain ⟨hbody, rfl⟩ := Prod.mk.inj h
        exact .inr (.inl ⟨inside, (body.result inside).2, rfl, Prod.ext hbody rfl, hfiles⟩)

end

namespace Path

/-- Whether the path does not begin with a tilde. -/
def IsPlain (p : Path) : Prop :=
  ∀ first ∈ p.parts.head?, first.toList.head? ≠ some '~'

theorem expandHome_of_isPlain {p : Path} (h : p.IsPlain) (home : Option String) :
    p.expandHome home = .ok p := by
  rw [expandHome]
  split
  · next first rest _ hparts =>
      have hfirst : first.toList.head? ≠ some '~' := h first (by rw [hparts]; rfl)
      rw [if_neg (by simpa using hfirst)]
  · rfl

end Path

/-! ## The whole run -/

namespace RunSettings

variable {s : RunSettings} {w : World}

theorem exists_inputs {catalogueFile priceFile : Path} {inside : World}
    {found : List (ReductionRow Float)} (hcatalogue : s.catalogueFile = some catalogueFile)
    (hprice : s.priceFile = some priceFile) (hplain : s.configPath.IsPlain)
    (hentered : w.entered s.configPath = .ok inside)
    (hrows : (s.rows inside.files inside.constants catalogueFile priceFile).outcome = .ok found) :
    ∃ inputs, s.inputs w = .ok inputs ∧
      List.Forall₂ (ReductionRow.Answers ⟨inputs.constants, s.horizon, inputs.prices⟩
        inputs.entries)
        (reportPlaces (inputs.entries.map (·.1)).eraseDups s.regions s.horizon.count) found := by
  obtain ⟨hfiles, hconstants⟩ := constants_of_entered hentered
    (Path.expandHome_of_isPlain hplain w.home)
  rw [outcome_rows, hfiles] at hrows
  obtain ⟨prices, hprices, hrows⟩ := bind_eq_ok_iff.1 hrows
  obtain ⟨entries, hentries, hrows⟩ := bind_eq_ok_iff.1 hrows
  refine ⟨⟨inside.constants, prices, entries⟩, ?_, forall₂_answers hrows⟩
  rw [inputs, hcatalogue, hprice]
  dsimp only
  rw [hconstants, ok_bind, hprices, ok_bind, hentries]
  rfl

/-- Whether the report of a run is in the files that it leaves: a row for every key in the order of
first appearance, region and period, each with the reduction of the last entry with its key. -/
def Wrote (s : RunSettings) (before after : World) : Prop :=
  ∃ inputs found, s.inputs before = .ok inputs ∧
    List.Forall₂ (ReductionRow.Answers ⟨inputs.constants, s.horizon, inputs.prices⟩ inputs.entries)
      (reportPlaces (inputs.entries.map (·.1)).eraseDups s.regions s.horizon.count) found ∧
    after.files.read s.reportPath = .ok (reportText found).toUTF8

/-- A run that succeeds has written its report. A run that fails leaves the files as they were,
unless the constants of the scope outside cannot be resolved in the world that it leaves. -/
theorem evaluate_writes_report (s : RunSettings) (w : World) (hplain : s.configPath.IsPlain) :
    (∀ path after, s.evaluate.result w = (.ok path, after) →
      path = s.reportPath ∧ s.Wrote w after) ∧
    (∀ failure after, s.evaluate.result w = (.error failure, after) →
      after.files = w.files ∨
        Resolution.constants after.environment after.table = .error failure) := by
  rw [evaluate]
  cases hcatalogue : s.catalogueFile with
  | none =>
      refine ⟨fun path after h => ?_, fun failure after h => ?_⟩
      · cases h
      · cases h
        exact .inl rfl
  | some catalogueFile =>
      cases hprice : s.priceFile with
      | none =>
          refine ⟨fun path after h => ?_, fun failure after h => ?_⟩
          · cases h
          · cases h
            exact .inl rfl
      | some priceFile =>
          dsimp only
          refine ⟨fun path after h => ?_, fun failure after h => ?_⟩
          · obtain ⟨inside, left, hentered, hbody, hfiles⟩ := exists_body_of_withScope h
            rcases s.result_evaluateHere catalogueFile priceFile inside with
              ⟨found, written, hrows, hwrite, hresult⟩ | ⟨failure, hresult⟩
            · rw [hresult] at hbody
              cases hbody
              obtain ⟨inputs, hinputs, hanswers⟩ :=
                exists_inputs hcatalogue hprice hplain hentered hrows
              refine ⟨rfl, inputs, found, hinputs, hanswers, ?_⟩
              -- leaving the scope changes no file, so the report is read as it was written
              rw [hfiles]
              exact FileTree.read_of_write hwrite
            · rw [hresult] at hbody
              cases hbody
          · rcases withScope_error h with hsame | ⟨inside, left, hentered, hbody, hfiles⟩ | hclose
            · exact .inl hsame
            · rcases s.result_evaluateHere catalogueFile priceFile inside with
                ⟨found, written, hrows, hwrite, hresult⟩ | ⟨cause, hresult⟩
              · rw [hresult] at hbody
                cases hbody
              · rw [hresult] at hbody
                cases hbody
                rw [hfiles]
                exact .inl (constants_of_entered hentered
                  (Path.expandHome_of_isPlain hplain w.home)).1
            · exact .inr hclose

/-! A run with one curve, whose configuration is the active one or is hidden by the environment. The
variable names a path through the output directory, so it leads nowhere until this is made. -/

def curvePath : Path := ⟨.single, ["run.toml"]⟩

def curveFiles : FileTree where
  nodes :=
    [(["run.toml"], .file ("years = [2005, 2010]\nregions = [\"USA\"]\nmac_file = \"mac.toml\"\n" ++
        "price_file = \"prices.csv\"\noutput_dir = \"out\"\noutput_name = \"x\"\n").toUTF8),
      (["mac.toml"], .file "[[mac]]\ngas = \"CO2\"\nreduction = [[0, 0], [100, 0.5]]\n".toUTF8),
      (["prices.csv"], .file "market,region,year,price\nCO2,USA,2005,10\nCO2,USA,2010,50\n".toUTF8),
      (["bad.toml"], .file "[abatement.constants]\nFUEL_SHIFT_BASE_PERIOD = inf\n".toUTF8)]
  here := []

def curveWorld (environment : Entries String String) : World where
  files := curveFiles
  environment := environment
  defaultConfig := curvePath
  scope := none
  overrides := none
  sources := []
  constants := Constants.default

def prepared (environment : Entries String String) : Except Failure RunSettings × World :=
  (prepare ⟨false, .null⟩ .fresh curvePath).result
    (resolveConstants.result (curveWorld environment)).2

theorem isPlain_curvePath : curvePath.IsPlain := by
  intro first hfirst
  cases hfirst
  decide

/-- The rows of the curve: in the base period the multiplier of the phase-in is minus one, and in the
next one it is zero. -/
def curveReport : String :=
  "gas,sector,region,period,year,reduction\nCO2,,USA,0,2005,-0.05\nCO2,,USA,1,2010,0.0\n"

theorem evaluate_writes_report_curve :
    ∃ s w path after, prepared [] = (.ok s, w) ∧ s.configPath.IsPlain ∧
      s.evaluate.result w = (.ok path, after) ∧ path = s.reportPath ∧ s.Wrote w after ∧
      after.files.read s.reportPath = .ok curveReport.toUTF8 := by
  have hruns : (match prepared [] with
      | (.ok s, w) => (s.configPath == curvePath && (s.evaluate.result w).1.isOk) &&
        decide (((s.evaluate.result w).2.files.read s.reportPath).toOption =
          some curveReport.toUTF8)
      | (.error _, _) => false) = true := by
    decide +kernel
  rcases hprepared : prepared [] with ⟨failure | s, w⟩
  · rw [hprepared] at hruns
    cases hruns
  · rw [hprepared] at hruns
    obtain ⟨hrun, hreport⟩ := Bool.and_eq_true_iff.1 hruns
    obtain ⟨hpath, hok⟩ := Bool.and_eq_true_iff.1 hrun
    have hplain : s.configPath.IsPlain := by
      rw [eq_of_beq hpath]
      exact isPlain_curvePath
    obtain ⟨path, hreturned⟩ := exists_ok_of_isOk hok
    have hresult : s.evaluate.result w = (.ok path, (s.evaluate.result w).2) :=
      Prod.ext hreturned rfl
    obtain ⟨hwhere, hwrote⟩ := (evaluate_writes_report s w hplain).1 path _ hresult
    exact ⟨s, w, path, _, rfl, hplain, hresult, hwhere, hwrote,
      toOption_eq_some_iff.1 (of_decide_eq_true hreport)⟩

def hidden : Entries String String := [(World.configVariable, "/out/../bad.toml")]

/-- The world outside resolves before the run, and no longer when its output directory is there: the
report has been written, and the run fails. -/
theorem evaluate_fails_after_writing :
    ∃ s w failure after, (resolveConstants.result (curveWorld hidden)).1 = .ok () ∧
      prepared hidden = (.ok s, w) ∧ s.configPath.IsPlain ∧
      s.evaluate.result w = (.error failure, after) ∧
      (∃ cause, w.files.read s.reportPath = .error cause) ∧
      ∃ bytes, after.files.read s.reportPath = .ok bytes := by
  have hruns : (match prepared hidden with
      | (.ok s, w) => (s.configPath == curvePath && !(s.evaluate.result w).1.isOk) &&
        (!(w.files.read s.reportPath).isOk &&
          ((s.evaluate.result w).2.files.read s.reportPath).isOk)
      | (.error _, _) => false) = true := by
    decide +kernel
  have hresolves : (resolveConstants.result (curveWorld hidden)).1 = .ok () := by
    rw [← toOption_eq_some_iff]
    decide +kernel
  rcases hprepared : prepared hidden with ⟨failure | s, w⟩
  · rw [hprepared] at hruns
    cases hruns
  · rw [hprepared] at hruns
    obtain ⟨hrun, hreport⟩ := Bool.and_eq_true_iff.1 hruns
    obtain ⟨hpath, hfails⟩ := Bool.and_eq_true_iff.1 hrun
    obtain ⟨hbefore, hafter⟩ := Bool.and_eq_true_iff.1 hreport
    have hplain : s.configPath.IsPlain := by
      rw [eq_of_beq hpath]
      exact isPlain_curvePath
    obtain ⟨failure, hfailure⟩ := exists_error_of_not_isOk (by simpa using hfails)
    exact ⟨s, w, failure, _, hresolves, rfl, hplain, Prod.ext hfailure rfl,
      exists_error_of_not_isOk (by simpa using hbefore), exists_ok_of_isOk hafter⟩

end RunSettings

end Macc
