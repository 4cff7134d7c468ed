import Macc.Proofs.Quotes
import Macc.Reduction.Report

/-!
# A region is reported for itself

A row of a report belongs to one curve, one region and one period. On its way it
looks up prices of several markets and of two periods, but always in its own
region; so it depends on a table of prices only through the prices of this
region. These in turn are entered from the rows of the region, in their order,
whatever stands between them: leaving the other rows out leaves them out of the
list of what is entered, and changes nothing else of it.

Which other curves, regions and periods are asked for decides where a row stands
in the report, and not what it says.
-/

namespace Macc

/-! ## One row -/

section

variable {α : Type} [Scalar α] {constants : Constants α} {h : Horizon}
  {prices prices' : PriceTable α} {region : String} (hprices : ∀ market period,
    prices.price? market region period = prices'.price? market region period)
include hprices

theorem fuelPriceRatio_congr (fuel : String) (period : Int) :
    Adjust.fuelPriceRatio constants prices fuel region period =
      Adjust.fuelPriceRatio constants prices' fuel region period := by
  have hexpect : ∀ q, prices.expectPrice fuel region q = prices'.expectPrice fuel region q := by
    intro q
    rw [PriceTable.expectPrice, PriceTable.expectPrice, hprices]
  rw [Adjust.fuelPriceRatio, Adjust.fuelPriceRatio, hexpect, hexpect]

/-- A reduction in a region depends on the prices of this region, and so does what is reported on
the way to it. -/
theorem Strategy.reduction_congr (s : Strategy α) (period : Int) :
    s.reduction ⟨constants, h, prices⟩ region period =
      s.reduction ⟨constants, h, prices'⟩ region period := by
  have hcarbon : carbonPrice ⟨constants, h, prices⟩ region period =
      carbonPrice ⟨constants, h, prices'⟩ region period := by
    rw [carbonPrice, carbonPrice, hprices]
  have hshift : ∀ carbon,
      Adjust.fuelShift constants s.settings s.curve prices region period carbon =
        Adjust.fuelShift constants s.settings s.curve prices' region period carbon := by
    intro carbon
    rw [Adjust.fuelShift, Adjust.fuelShift, fuelPriceRatio_congr hprices]
  have hprice : s.effectivePrice ⟨constants, h, prices⟩ region period =
      s.effectivePrice ⟨constants, h, prices'⟩ region period := by
    rw [effectivePrice, effectivePrice, hcarbon, hshift]
  rw [reduction, reduction, hprice]
  rfl

theorem reductionRow_congr (constants : Constants α) (h : Horizon) (key : SourceKey)
    (s : Strategy α) (period : Int) :
    reductionRow ⟨constants, h, prices⟩ key s region period =
      reductionRow ⟨constants, h, prices'⟩ key s region period := by
  rw [reductionRow, reductionRow, s.reduction_congr hprices]

end

/-! ## The prices of a region -/

theorem region_of_enters {readDate : Value → Option (Except Failure Int)}
    {readPrice : Value → Option Float} {q : Quote} {entry : PriceKey × Float}
    (h : q.enters readDate readPrice = some (.ok entry)) : entry.1.region = some q.region := by
  rw [Quote.enters, Quote.read] at h
  cases hdate : readDate q.date with
  | none =>
      rw [hdate] at h
      cases h
  | some period =>
      cases hprice : readPrice q.price with
      | none =>
          rw [hdate, hprice] at h
          cases h
      | some price =>
          rw [hdate, hprice] at h
          cases period with
          | error failure => cases h
          | ok p =>
              cases h
              rfl

/-- What the rows of a region enter is what all rows enter for this region. -/
theorem entries_of_region {readDate : Value → Option (Except Failure Int)}
    {readPrice : Value → Option Float} (region : String) {quotes : List Quote}
    {entries : List (PriceKey × Float)}
    (h : (quotes.filterMap (Quote.enters readDate readPrice)).mapM id = .ok entries) :
    ((quotes.filter fun q => q.region == region).filterMap
        (Quote.enters readDate readPrice)).mapM id =
      .ok (entries.filter fun entry => entry.1.region == some region) := by
  induction quotes generalizing entries with
  | nil =>
      cases h
      rfl
  | cons q rest ih =>
      rw [List.filterMap_cons] at h
      rw [List.filter_cons]
      cases henters : q.enters readDate readPrice with
      | none =>
          rw [henters] at h
          split
          · rw [List.filterMap_cons, henters]
            exact ih h
          · exact ih h
      | some outcome =>
          rw [henters, List.mapM_cons] at h
          obtain ⟨entry, hentry, hrest⟩ := bind_eq_ok_iff.1 h
          obtain ⟨more, hmore, hcons⟩ := bind_eq_ok_iff.1 hrest
          obtain rfl : outcome = .ok entry := hentry
          cases hcons
          have hregion := region_of_enters henters
          have hlater := ih hmore
          rw [List.filter_cons, hregion]
          split
          · next hsame =>
              rw [if_pos (by simpa using hsame), List.filterMap_cons, henters, List.mapM_cons,
                hlater]
              rfl
          · next hother =>
              rw [if_neg (by simpa using hother)]
              exact hlater

theorem price?_ofRows (entries : List (PriceKey × Float)) (market region : String) (period : Int) :
    (PriceTable.ofRows entries).price? market region period =
      (((entries.filter fun entry => entry.1.region == some region).filter fun entry =>
        entry.1 == ⟨some market, some region, period⟩).getLast?).map (·.2) := by
  rw [PriceTable.price?, PriceTable.ofRows, Entries.get?_ofAssignments, List.filter_filter]
  congr 2
  refine List.filter_congr fun entry _ => ?_
  rw [Bool.eq_iff_iff, Bool.and_eq_true, beq_iff_eq, beq_iff_eq]
  constructor
  · intro hkey
    exact ⟨hkey, by rw [hkey]⟩
  · exact And.left

/-- Tables whose rows for a region are read as the same have the same prices in it. -/
theorem price?_congr {f f' : Frame} {mapped : Option Horizon} {t t' : PriceTable Float}
    {readDate : Value → Option (Except Failure Int)} {readPrice : Value → Option Float}
    {region : String} (hread : f.ReadsEach mapped readDate readPrice)
    (hread' : f'.ReadsEach mapped readDate readPrice)
    (ht : (PriceTable.ofFrame f mapped).outcome = .ok t)
    (ht' : (PriceTable.ofFrame f' mapped).outcome = .ok t')
    (hquotes : ((f.quotes.filter fun q => q.region == region).map (Quote.read readDate readPrice)) =
      (f'.quotes.filter fun q => q.region == region).map (Quote.read readDate readPrice))
    (market : String) (period : Int) :
    t.price? market region period = t'.price? market region period := by
  obtain ⟨entries, hentries, rfl⟩ := PriceTable.exists_entries_of_ofFrame hread ht
  obtain ⟨entries', hentries', rfl⟩ := PriceTable.exists_entries_of_ofFrame hread' ht'
  have henters := congrArg (List.filterMap enters) hquotes
  rw [List.filterMap_map, List.filterMap_map] at henters
  have hregion := entries_of_region region hentries
  rw [show Quote.enters readDate readPrice = enters ∘ Quote.read readDate readPrice from rfl,
    henters, show enters ∘ Quote.read readDate readPrice = Quote.enters readDate readPrice from rfl,
    entries_of_region region hentries'] at hregion
  rw [price?_ofRows, price?_ofRows, Except.ok.inj hregion]

/-! ## The rows of a place -/

/-- Whether a row is for a curve, a region and a period. -/
def ReductionRow.isFor {α : Type} (key : SourceKey) (region : String) (period : Int)
    (row : ReductionRow α) : Bool :=
  row.source == key && row.region == region && row.period == period

section

variable {α : Type} {key : SourceKey} {s : Strategy α} {region : String} {period : Int}

theorem filter_periods (entry : SourceKey × Strategy α) (other : String) (periods : List Int) :
    ((periods.map fun p => (entry, other, p)).filter fun c =>
        c.1.1 == key && c.2.1 == region && c.2.2 == period) =
      if entry.1 = key ∧ other = region then
        List.replicate (periods.count period) (entry, region, period)
      else [] := by
  rw [List.filter_map]
  split
  · next hsame =>
      obtain ⟨rfl, rfl⟩ := hsame
      have hperiod : ((fun c : (SourceKey × Strategy α) × String × Int =>
          c.1.1 == entry.1 && c.2.1 == other && c.2.2 == period) ∘ fun p => (entry, other, p)) =
          (· == period) := by
        funext p
        simp
      rw [hperiod, List.filter_beq, List.map_replicate]
  · next hother =>
      rw [List.filter_eq_nil_iff.2, List.map_nil]
      intro p _
      simp only [Function.comp_apply, Bool.and_eq_true, beq_iff_eq]
      exact fun h => hother h.1

theorem flatMap_regions {β : Type} (regions : List String) (n : Nat) (b : β) :
    (regions.flatMap fun other => if other = region then List.replicate n b else []) =
      List.replicate (regions.count region * n) b := by
  induction regions with
  | nil => simp
  | cons other rest ih =>
      rw [List.flatMap_cons, ih, List.count_cons]
      by_cases hsame : other = region
      · simp [hsame, Nat.add_mul, Nat.add_comm]
      · simp [hsame]

theorem flatMap_catalogue {β : Type} {catalogue : Catalogue α}
    (hkeys : (Entries.keys catalogue).Nodup) (hs : (key, s) ∈ catalogue)
    (g : SourceKey × Strategy α → List β) :
    (catalogue.flatMap fun entry => if entry.1 = key then g entry else []) = g (key, s) := by
  induction catalogue with
  | nil => cases hs
  | cons first rest ih =>
      obtain ⟨hfirst, hrest⟩ := List.nodup_cons.1 hkeys
      rw [List.flatMap_cons]
      rcases List.mem_cons.1 hs with rfl | hs
      · have hnone : (rest.flatMap fun entry => if entry.1 = key then g entry else []) = [] := by
          rw [List.flatMap_eq_nil_iff]
          intro entry hentry
          rw [if_neg]
          rintro rfl
          exact hfirst (List.mem_map.2 ⟨entry, hentry, rfl⟩)
        rw [if_pos rfl, hnone, List.append_nil]
      · have hother : first.1 ≠ key := by
          rintro rfl
          exact hfirst (List.mem_map.2 ⟨_, hs, rfl⟩)
        rw [if_neg hother, List.nil_append]
        exact ih hrest hs

/-- A report asks for a place as often as its region and its period are asked for. -/
theorem filter_reportCells {catalogue : Catalogue α} (hkeys : (Entries.keys catalogue).Nodup)
    (hs : (key, s) ∈ catalogue) (regions : List String) (periods : List Int) :
    ((reportCells catalogue regions periods).filter fun c =>
        c.1.1 == key && c.2.1 == region && c.2.2 == period) =
      List.replicate (regions.count region * periods.count period) ((key, s), region, period) := by
  have hentry : ∀ entry : SourceKey × Strategy α,
      (regions.flatMap fun other => if entry.1 = key ∧ other = region then
        List.replicate (periods.count period) (entry, region, period) else []) =
      if entry.1 = key then List.replicate (regions.count region * periods.count period)
        (entry, region, period) else [] := by
    intro entry
    by_cases hkey : entry.1 = key
    · simp only [hkey, true_and, if_true, flatMap_regions]
    · simp [hkey]
  simp only [reportCells, List.filter_flatMap, filter_periods, hentry]
  exact flatMap_catalogue hkeys hs _

variable [Scalar α]

theorem isFor_of_reductionRow {e : Economy α} (key : SourceKey) (region : String) (period : Int)
    {c : (SourceKey × Strategy α) × String × Int} {row : ReductionRow α}
    (h : (reductionRow e c.1.1 c.1.2 c.2.1 c.2.2).outcome = .ok row) :
    row.isFor key region period = (c.1.1 == key && c.2.1 == region && c.2.2 == period) := by
  obtain ⟨year, -, h⟩ := Attempt.outcome_bind_eq_ok_iff.1 h
  obtain ⟨reduction, -, h⟩ := Attempt.outcome_bind_eq_ok_iff.1 h
  cases h
  rfl

/-- The rows of a report for a curve, a region and a period are all the one row that is computed for
them. -/
theorem exists_row_of_report {e : Economy α} {catalogue : Catalogue α} {regions : List String}
    {periods : Option (List Int)} {rows : List (ReductionRow α)}
    (hkeys : (Entries.keys catalogue).Nodup) (hs : (key, s) ∈ catalogue)
    (hregion : region ∈ regions) (hperiod : period ∈ periods.getD e.horizon.periods)
    (hrows : (reductionReport e catalogue regions periods).outcome = .ok rows) :
    ∃ row, (reductionRow e key s region period).outcome = .ok row ∧
      rows.filter (ReductionRow.isFor key region period) = List.replicate
        (regions.count region * (periods.getD e.horizon.periods).count period) row := by
  rw [reductionReport, Attempt.outcome_mapM] at hrows
  have hfilter : List.Forall₂ (fun (c : (SourceKey × Strategy α) × String × Int) row =>
        (reductionRow e c.1.1 c.1.2 c.2.1 c.2.2).outcome = .ok row)
      ((reportCells catalogue regions (periods.getD e.horizon.periods)).filter fun c =>
        c.1.1 == key && c.2.1 == region && c.2.2 == period)
      (rows.filter (ReductionRow.isFor key region period)) := by
    refine List.rel_filter (fun c row hrow => ?_) (forall₂_of_mapM hrows)
    exact Iff.of_eq (congrArg (· = true) (isFor_of_reductionRow key region period hrow).symm)
  rw [filter_reportCells hkeys hs] at hfilter
  have hpos : 0 < regions.count region * (periods.getD e.horizon.periods).count period :=
    Nat.mul_pos (List.count_pos_iff.2 hregion) (List.count_pos_iff.2 hperiod)
  generalize regions.count region * (periods.getD e.horizon.periods).count period = n
    at hfilter hpos ⊢
  have hall : ∀ row ∈ rows.filter (ReductionRow.isFor key region period),
      (reductionRow e key s region period).outcome = .ok row := by
    intro row hrow
    obtain ⟨c, hc, hcomputed⟩ := Column.exists_mem_of_forall₂ hfilter hrow
    obtain rfl := List.eq_of_mem_replicate hc
    exact hcomputed
  have hlength := hfilter.length_eq
  rw [List.length_replicate] at hlength
  obtain ⟨row, hrow⟩ := List.exists_mem_of_length_pos (hlength ▸ hpos)
  refine ⟨row, hall row hrow, List.eq_replicate_iff.2 ⟨hlength.symm, fun other hother => ?_⟩⟩
  exact Except.ok.inj ((hall other hother).symm.trans (hall row hrow))

end

/-- Two reports on one curve have the same row for it in a region and a period when the rows of
prices for the region are read as the same, whatever else they are made from. -/
theorem reports_agree_on_region {constants : Constants Float} {h : Horizon}
    {mapped : Option Horizon} {f f' : Frame} {prices prices' : PriceTable Float}
    {catalogue catalogue' : Catalogue Float} {regions regions' : List String}
    {periods periods' : Option (List Int)} {rows rows' : List (ReductionRow Float)}
    {key : SourceKey} {s : Strategy Float} {region : String} {period : Int}
    {readDate : Value → Option (Except Failure Int)} {readPrice : Value → Option Float}
    (hread : f.ReadsEach mapped readDate readPrice)
    (hread' : f'.ReadsEach mapped readDate readPrice)
    (hquotes : ((f.quotes.filter fun q => q.region == region).map (Quote.read readDate readPrice)) =
      (f'.quotes.filter fun q => q.region == region).map (Quote.read readDate readPrice))
    (hprices : (PriceTable.ofFrame f mapped).outcome = .ok prices)
    (hprices' : (PriceTable.ofFrame f' mapped).outcome = .ok prices')
    (hkeys : (Entries.keys catalogue).Nodup) (hkeys' : (Entries.keys catalogue').Nodup)
    (hs : (key, s) ∈ catalogue) (hs' : (key, s) ∈ catalogue')
    (hregion : region ∈ regions) (hregion' : region ∈ regions')
    (hperiod : period ∈ periods.getD h.periods) (hperiod' : period ∈ periods'.getD h.periods)
    (hrows : (reductionReport ⟨constants, h, prices⟩ catalogue regions periods).outcome = .ok rows)
    (hrows' : (reductionReport ⟨constants, h, prices'⟩ catalogue' regions' periods').outcome =
      .ok rows') :
    ∃ row,
      rows.filter (ReductionRow.isFor key region period) =
        List.replicate (regions.count region * (periods.getD h.periods).count period) row ∧
      rows'.filter (ReductionRow.isFor key region period) =
        List.replicate (regions'.count region * (periods'.getD h.periods).count period) row := by
  obtain ⟨row, hrow, hfilter⟩ := exists_row_of_report hkeys hs hregion hperiod hrows
  obtain ⟨row', hrow', hfilter'⟩ := exists_row_of_report hkeys' hs' hregion' hperiod' hrows'
  have hsame := reductionRow_congr (price?_congr hread hread' hprices hprices' hquotes) constants h
    key s period
  rw [hsame, hrow'] at hrow
  obtain rfl := Except.ok.inj hrow
  exact ⟨row', hfilter, hfilter'⟩

/-! Two tables of prices with the same rows for one region. In another region the second one has a
price that is no number, and then an integer among its prices stays one. -/

def usaFrame : Frame where
  columns := [("market", .texts (["oil", "CO2 ", "oil"].map some)),
    ("region", .texts (["USA", "USA", "USA"].map some)),
    ("period", .ints [0, 1, 1]), ("price", .reals [2, 50, 4])]

def mixedFrame : Frame where
  columns := [("market", .texts (["CO2", "oil", "CO2", "CO2", "oil"].map some)),
    ("region", .texts (["EU", " USA", "EU", "USA", "USA"].map some)),
    ("period", .ints [1, 0, 0, 1, 1]),
    ("price", .values [.text "none", .float 2, .float 30.5, .int 50, .float 4])]

/-- What an integer is as a period. -/
def wholePeriod (v : Value) : Option (Except Failure Int) :=
  match v with
  | .int n => some (.ok n)
  | _ => none

/-- What a cell is as a price that is read as a real. -/
def realPrice (v : Value) : Option Float :=
  CellValue.price? (.real (Column.numberOfValue v).real)

theorem readsEach_usaFrame : usaFrame.ReadsEach none wholePeriod realPrice where
  market := by
    rintro c ⟨⟩
    exact Column.isText_texts _
  region := by
    rintro c ⟨⟩
    exact Column.isText_texts _
  date := by
    rintro c ⟨⟩
    exact Column.readsEach_ints (fun n => rfl) _
  price := by
    rintro c ⟨⟩
    exact Column.readsEach_reals (fun x => rfl) _

theorem readsEach_mixedFrame : mixedFrame.ReadsEach none wholePeriod realPrice where
  market := by
    rintro c ⟨⟩
    exact Column.isText_texts _
  region := by
    rintro c ⟨⟩
    exact Column.isText_texts _
  date := by
    rintro c ⟨⟩
    exact Column.readsEach_ints (fun n => rfl) _
  price := by
    rintro c ⟨⟩
    refine Column.readsEach_values fun v hv n hn => ?_
    simp only [List.mem_cons, List.not_mem_nil, or_false] at hv
    rcases hv with rfl | rfl | rfl | rfl | rfl <;> cases hn
    exact CellValue.price?_int _

def shiftedStrategy : Strategy Float where
  name := "a"
  settings :=
    { Settings.default PriceTable.twoYears with fuelShiftRange := 10, shiftFuel := "oil" }
  curve := (Curve.empty.insert 0 0).insert 100 0.5

def oneCurve : Catalogue Float :=
  [(⟨"CO2", ""⟩, shiftedStrategy)]

def twoCurves : Catalogue Float :=
  [(⟨"CH4", "coal"⟩, Strategy.fresh PriceTable.twoYears "b"), (⟨"CO2", ""⟩, shiftedStrategy)]

def usaEconomy : Economy Float where
  constants := Constants.default
  horizon := PriceTable.twoYears
  prices := .ofRows [(⟨some "oil", some "USA", 0⟩, 2), (⟨some "CO2", some "USA", 1⟩, 50),
    (⟨some "oil", some "USA", 1⟩, 4)]

def mixedEconomy : Economy Float where
  constants := Constants.default
  horizon := PriceTable.twoYears
  prices := .ofRows [(⟨some "oil", some "USA", 0⟩, 2), (⟨some "CO2", some "EU", 0⟩, 30.5),
    (⟨some "CO2", some "USA", 1⟩, 50), (⟨some "oil", some "USA", 1⟩, 4)]

theorem reports_agree_on_shifted :
    ∃ rows rows' row,
      (PriceTable.ofFrame usaFrame none).outcome = .ok usaEconomy.prices ∧
      (PriceTable.ofFrame mixedFrame none).outcome = .ok mixedEconomy.prices ∧
      (reductionReport usaEconomy oneCurve ["USA"] (some [1])).outcome = .ok rows ∧
      (reductionReport mixedEconomy twoCurves ["EU", "USA"] none).outcome = .ok rows' ∧
      rows.filter (ReductionRow.isFor ⟨"CO2", ""⟩ "USA" 1) = [row] ∧
      rows'.filter (ReductionRow.isFor ⟨"CO2", ""⟩ "USA" 1) = [row] := by
  have hfifty : realPrice (.float 50) = realPrice (.int 50) := by decide +kernel
  have hquotes : ((usaFrame.quotes.filter fun q => q.region == "USA").map
      (Quote.read wholePeriod realPrice)) =
      (mixedFrame.quotes.filter fun q => q.region == "USA").map
        (Quote.read wholePeriod realPrice) := by
    change [(some "oil", some "USA", wholePeriod (.int 0), realPrice (.float 2)),
      (some "CO2", some "USA", wholePeriod (.int 1), realPrice (.float 50)),
      (some "oil", some "USA", wholePeriod (.int 1), realPrice (.float 4))] = _
    rw [hfifty]
    rfl
  have hprices : (PriceTable.ofFrame usaFrame none).outcome = .ok usaEconomy.prices := by
    rw [← toOption_eq_some_iff]
    decide +kernel
  have hprices' : (PriceTable.ofFrame mixedFrame none).outcome = .ok mixedEconomy.prices := by
    rw [← toOption_eq_some_iff]
    decide +kernel
  have hs : ((⟨"CO2", ""⟩, shiftedStrategy) : SourceKey × Strategy Float) ∈ oneCurve :=
    List.mem_cons_self
  have hs' : ((⟨"CO2", ""⟩, shiftedStrategy) : SourceKey × Strategy Float) ∈ twoCurves :=
    List.mem_cons_of_mem _ List.mem_cons_self
  have hperiod : (1 : Int) ∈ (some [1]).getD PriceTable.twoYears.periods := by decide
  have hperiod' : (1 : Int) ∈ none.getD PriceTable.twoYears.periods := by decide
  obtain ⟨rows, hrows⟩ := exists_ok_of_isOk
    (show (reductionReport usaEconomy oneCurve ["USA"] (some [1])).outcome.isOk = true by
      decide +kernel)
  obtain ⟨rows', hrows'⟩ := exists_ok_of_isOk
    (show (reductionReport mixedEconomy twoCurves ["EU", "USA"] none).outcome.isOk = true by
      decide +kernel)
  obtain ⟨row, hrow, hrow'⟩ := reports_agree_on_region readsEach_usaFrame readsEach_mixedFrame
    hquotes hprices hprices' (by decide) (by decide) hs hs' (by decide) (by decide) hperiod hperiod'
    hrows hrows'
  exact ⟨rows, rows', row, hprices, hprices', hrows, hrows', hrow, hrow'⟩

end Macc
