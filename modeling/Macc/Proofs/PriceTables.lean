import Mathlib.Data.Finset.Card
import Macc.Proofs.PriceRows

/-!
# What a table of prices says

A table of prices is a matter of its rows: the price of a market in a region and a
period is that of the last row with these names, this period and a number as its
price. The period of a row is an integer, or the place of the model year that its
year equals. Rows that have none, or no price, are not in the table. They are
counted, those with another year by themselves and before the others.

That a row can be taken by itself is known. What is added here is that nothing a
row says ends the reading: a period that is a number is an integer, and a year
that counts equals one. So the table is entered from the rows that have a period
and a price, and the last one stays.
-/

namespace Macc

theorem getLast?_filterMap {α β : Type} {f : α → Option β} {items : List α}
    (h : ∀ a ∈ items, ∃ b, f a = some b) :
    (items.filterMap f).getLast? = items.getLast?.bind f := by
  rcases items.eq_nil_or_concat' with rfl | ⟨before, last, rfl⟩
  · rfl
  · obtain ⟨b, hb⟩ := h last List.mem_concat_self
    rw [List.filterMap_append, List.filterMap_cons_some hb, List.filterMap_nil,
      List.getLast?_concat, List.getLast?_concat]
    exact hb.symm

theorem mapM_id_map_ok {ε α : Type} (items : List α) :
    (items.map (Except.ok : α → Except ε α)).mapM id = .ok items := by
  rw [List.mapM_map]
  exact (mapM_eq_ok fun _ _ => rfl).trans (by rw [List.map_id'])

/-! ## Cells by themselves -/

/-- The number that a cell is, whatever stands beside it. -/
def Value.cellNumber (v : Value) : CellValue :=
  match (Column.numberOfValue v).int? with
  | some n => .int n
  | none => .real (Column.numberOfValue v).real

namespace Column

/-- Whether the numbers of a column are those of its cells by themselves, in the sense in which they
are used. Integers and reals always are; among texts an integer may be used as a real, because of
another cell. -/
def ReadsCells {β : Type} (view : CellValue → β) (c : Column) : Prop :=
  c.ReadsEach view fun v => view v.cellNumber

theorem readsCells_values {β : Type} {view : CellValue → β} {vs : List Value}
    (h : ∀ v ∈ vs, ∀ n, (numberOfValue v).int? = some n →
      view (.int n) = view (.real (numberOfValue v).real)) : (values vs).ReadsCells view := by
  have hcells : (values vs).cells.map (fun v => view (.real (numberOfValue v).real)) =
      (values vs).cells.map fun v => view v.cellNumber := by
    refine List.map_congr_left fun v hv => ?_
    rw [Value.cellNumber]
    split
    · next n hn => exact (h v hv n hn).symm
    · rfl
  intro marks
  rw [readsEach_values h marks, hcells]

theorem length_cells (c : Column) : c.cells.length = c.size := by
  cases c <;> simp [cells, size]

end Column

namespace CellValue

theorem period?_of_isPeriod {v : CellValue} (h : PriceTable.IsPeriod v) :
    v.period? = v.whole?.map Except.ok := by
  rw [period?]
  rcases PriceTable.gives_whole h with ⟨hnone, hmissing⟩ | ⟨p, hp, hpresent, hread⟩
  · rw [hnone, hmissing]
    rfl
  · rw [hp, hpresent, hread]
    rfl

theorem periodIn?_eq_place? (h : Horizon) (v : CellValue) :
    v.periodIn? h = (h.place? v).map Except.ok := by
  rw [periodIn?, PriceTable.isModelYear_eq]
  cases hplace : h.place? v with
  | none => rfl
  | some p =>
      have hknown : (h.place? v).isSome = true := by rw [hplace, Option.isSome_some]
      obtain ⟨y, hy, hgives⟩ := PriceTable.gives_place hknown
      rw [hplace] at hgives
      rcases hgives with ⟨hnone, -⟩ | ⟨q, hq, -, hperiod⟩
      · cases hnone
      · cases hq
        cases hperiod
        rw [hy]
        rfl

end CellValue

/-! ## Tables -/

namespace Frame

/-- The period of a date: an integer, or the place of a model year where the table has years. -/
def periodOf? (f : Frame) (mapped : Option Horizon) (date : Value) : Option Int :=
  if (f.column? "period").isSome then date.cellNumber.whole?
  else mapped.bind fun h => h.place? date.cellNumber

/-- A table of prices with texts as names, whose numbers are those of its cells by themselves. A
number that is given as a period is an integer. -/
structure IsPriceTable (f : Frame) (mapped : Option Horizon) : Prop where
  market : ∃ c, f.column? "market" = some c ∧ c.IsText
  region : ∃ c, f.column? "region" = some c ∧ c.IsText
  price : ∃ c, f.column? "price" = some c ∧ c.ReadsCells CellValue.price?
  date :
    (∃ c, f.column? "period" = some c ∧ c.ReadsCells CellValue.period? ∧
      ∀ v ∈ c.cells, PriceTable.IsPeriod v.cellNumber) ∨
    f.column? "period" = none ∧ ∃ c h, mapped = some h ∧ f.column? "year" = some c ∧
      c.ReadsCells (CellValue.periodIn? h)
  height : ∃ n, ∀ c ∈ f.columns, c.2.size = n

/-- A name has one column. -/
theorem forall_of_column? {f : Frame} {name : String} {p : Column → Prop}
    (h : ∃ c, f.column? name = some c ∧ p c) : ∀ c, f.column? name = some c → p c := by
  obtain ⟨found, hfound, hp⟩ := h
  intro c hc
  rw [hfound] at hc
  cases hc
  exact hp

theorem mem_of_column? {f : Frame} {name : String} {c : Column} (h : f.column? name = some c) :
    (name, c) ∈ f.columns := by
  obtain ⟨entry, hfind, rfl⟩ := Option.map_eq_some_iff.1 h
  have hname := List.find?_some hfind
  have hmem := List.mem_of_find?_eq_some hfind
  rwa [← eq_of_beq hname]

end Frame

namespace Quote

def priceNumber (q : Quote) : Option Float :=
  q.price.cellNumber.price?

variable (dated : Value → Option Int)

/-- What a row with a period and a price is entered as. -/
def entered? (q : Quote) : Option (PriceKey × Float) :=
  match dated q.date, q.priceNumber with
  | some p, some x => some (⟨some q.market, some q.region, p⟩, x)
  | _, _ => none

/-- Whether a row has a price of a market in a region and a period. -/
def sets (q : Quote) (market region : String) (period : Int) : Bool :=
  q.market == market && q.region == region && dated q.date == some period && q.priceNumber.isSome

theorem sets_eq (q : Quote) (m r : String) (p : Int) :
    q.sets dated m r p = (q.entered? dated).any fun e => e.1 == ⟨some m, some r, p⟩ := by
  rw [sets, entered?]
  cases dated q.date with
  | none => simp
  | some period =>
      cases q.priceNumber with
      | none => simp
      | some x =>
          rw [Bool.eq_iff_iff]
          simp [and_assoc]

theorem snd_of_entered? {q : Quote} {e : PriceKey × Float} (h : q.entered? dated = some e) :
    q.priceNumber = some e.2 := by
  rw [entered?] at h
  split at h
  · next hprice =>
      cases h
      exact hprice
  · cases h

theorem enters_eq (q : Quote) {readDate : Value → Option (Except Failure Int)}
    (hdate : readDate q.date = (dated q.date).map Except.ok) :
    q.enters readDate (fun v => v.cellNumber.price?) = (q.entered? dated).map Except.ok := by
  rw [enters, read, hdate, entered?, priceNumber]
  cases dated q.date with
  | none => rfl
  | some p => cases q.price.cellNumber.price? <;> rfl

theorem filterMap_enters {quotes : List Quote} {readDate : Value → Option (Except Failure Int)}
    (hdate : ∀ q ∈ quotes, readDate q.date = (dated q.date).map Except.ok) :
    quotes.filterMap (enters readDate fun v => v.cellNumber.price?) =
      (quotes.filterMap (entered? dated)).map Except.ok := by
  rw [List.map_filterMap]
  exact List.filterMap_congr fun q hq => q.enters_eq dated (hdate q hq)

end Quote

namespace PriceTable

/-- A table that has the price of the last row with a period and a price, for each market, region
and period, and nothing else. -/
structure HoldsQuotes (quotes : List Quote) (dated : Value → Option Int) (t : PriceTable Float) :
    Prop where
  price : ∀ m r p, t.price? m r p =
    ((quotes.filter fun q => q.sets dated m r p).getLast?).bind Quote.priceNumber
  size : t.size = ((quotes.filterMap (Quote.entered? dated)).map (·.1)).toFinset.card

theorem size_ofRows (rows : List (PriceKey × Float)) :
    (ofRows rows).size = (rows.map (·.1)).toFinset.card := by
  have hkeys : (Entries.keys (Entries.ofAssignments rows)).toFinset =
      (rows.map (·.1)).toFinset := by
    rw [Entries.keys_ofAssignments]
    ext key
    simp
  rw [← hkeys, List.toFinset_card_of_nodup (Entries.nodup_keys_ofAssignments rows), Entries.keys,
    List.length_map]
  rfl

theorem holdsQuotes_ofRows (quotes : List Quote) (dated : Value → Option Int) :
    HoldsQuotes quotes dated (ofRows (quotes.filterMap (Quote.entered? dated))) := by
  refine ⟨fun m r p => ?_, size_ofRows _⟩
  have hchosen : (quotes.filterMap (Quote.entered? dated)).filter
        (fun e => e.1 == ⟨some m, some r, p⟩) =
      (quotes.filter fun q => q.sets dated m r p).filterMap (Quote.entered? dated) := by
    rw [List.filter_filterMap, List.filterMap_filter]
    refine List.filterMap_congr fun q _ => ?_
    rw [q.sets_eq]
    cases q.entered? dated <;> rfl
  have hentered : ∀ q ∈ quotes.filter fun q => q.sets dated m r p,
      ∃ e, q.entered? dated = some e := by
    intro q hq
    have hsets := (List.mem_filter.1 hq).2
    rw [q.sets_eq, Option.any_eq_true] at hsets
    exact hsets.imp fun e he => he.1
  rw [price?, ofRows, Entries.get?_ofAssignments, hchosen, getLast?_filterMap hentered]
  cases hlast : (quotes.filter fun q => q.sets dated m r p).getLast? with
  | none => rfl
  | some q =>
      obtain ⟨e, he⟩ := hentered q (List.mem_of_getLast? hlast)
      rw [Option.bind_some, Option.bind_some, he, Quote.snd_of_entered? dated he]
      rfl

end PriceTable

/-! ## What is dropped -/

theorem PriceRow.isComplete_eq (row : PriceRow) :
    row.isComplete = (row.read.2.2.1.isSome && row.read.2.2.2.isSome) := by
  rw [isComplete, read, CellValue.period?, CellValue.price?]
  cases row.period.isMissing <;> cases row.price.isMissing <;> rfl

namespace PriceTable

theorem countP_incomplete (rows : List PriceRow) :
    (rows.countP fun row => !row.isComplete) =
      (rows.map PriceRow.read).countP fun row => !(row.2.2.1.isSome && row.2.2.2.isSome) := by
  rw [List.countP_map]
  exact List.countP_congr fun row _ => by rw [row.isComplete_eq]; rfl

theorem log_ofFrame_year {frame : Frame} {market region price year : Column} {h : Horizon}
    {kept : List Int} (hmarket : frame.column? "market" = some market)
    (hregion : frame.column? "region" = some region) (hprice : frame.column? "price" = some price)
    (hperiod : frame.column? "period" = none) (hyear : frame.column? "year" = some year)
    (hkept : (Column.marked (year.numbers.map (isModelYear h)) year.numbers).mapM
      CellValue.toInteger = .ok kept) :
    (ofFrame frame (some h)).log =
      Notice.counted .droppedYears ((year.numbers.map (isModelYear h)).count false) ++
        (ofPriceRows (rowsOf (market.select (year.numbers.map (isModelYear h)))
          (region.select (year.numbers.map (isModelYear h)))
          (price.select (year.numbers.map (isModelYear h)))
          (kept.map fun y => .int (h.periodOf y)))).log := by
  rw [ofFrame, hmarket, hregion, hprice, hperiod, hyear, Notice.counted]
  dsimp only
  by_cases hnone : (year.numbers.map (isModelYear h)).count false = 0
  · rw [if_neg (not_not.2 hnone), if_pos hnone, hkept]
    rfl
  · rw [if_pos hnone, if_neg hnone, Attempt.log_bind rfl, hkept]
    rfl

end PriceTable

namespace Frame

variable {f : Frame} {mapped : Option Horizon}

/-- Whether a row has a year that is no model year, in a table with years. -/
def isOutside (f : Frame) (mapped : Option Horizon) (q : Quote) : Bool :=
  (f.column? "period").isNone && (f.periodOf? mapped q.date).isNone

/-- Whether a row that is not outside has no number as its period or as its price. -/
def isInvalid (f : Frame) (mapped : Option Horizon) (q : Quote) : Bool :=
  !f.isOutside mapped q && ((f.periodOf? mapped q.date).isNone || q.priceNumber.isNone)

theorem isOutside_of_period {c : Column} (hperiod : f.column? "period" = some c) (q : Quote) :
    f.isOutside mapped q = false := by
  rw [isOutside, hperiod]
  rfl

theorem countP_isOutside_of_period {c : Column} (hperiod : f.column? "period" = some c) :
    f.quotes.countP (f.isOutside mapped) = 0 :=
  List.countP_eq_zero.2 fun q _ => Bool.eq_false_iff.1 (isOutside_of_period hperiod q)

theorem IsPriceTable.readsEach (hf : f.IsPriceTable mapped) :
    f.ReadsEach mapped (fun v => f.date? mapped v.cellNumber) fun v => v.cellNumber.price? where
  market := forall_of_column? hf.market
  region := forall_of_column? hf.region
  date := by
    rcases hf.date with ⟨c, hc, hcells, -⟩ | ⟨hperiod, c, h, rfl, hc, hcells⟩
    · rw [dateName_of_period hc, date?_of_period mapped hc]
      exact forall_of_column? ⟨c, hc, hcells⟩
    · rw [dateName_of_year hperiod, date?_of_year h hperiod]
      exact forall_of_column? ⟨c, hc, hcells⟩
  price := forall_of_column? hf.price

theorem mem_cellsOf_of_mem_quotes {q : Quote} (hq : q ∈ f.quotes) :
    q.date ∈ f.cellsOf f.dateName := by
  obtain ⟨⟨m, r, date, price⟩, hmem, rfl⟩ := List.mem_map.1 hq
  exact (List.of_mem_zip (List.of_mem_zip (List.of_mem_zip hmem).2).2).1

/-- The date of a row gives its period, and nothing else. -/
theorem IsPriceTable.date?_eq (hf : f.IsPriceTable mapped) {q : Quote} (hq : q ∈ f.quotes) :
    f.date? mapped q.date.cellNumber = (f.periodOf? mapped q.date).map Except.ok := by
  rcases hf.date with ⟨c, hc, -, hperiods⟩ | ⟨hperiod, -, h, rfl, -, -⟩
  · have hcell := mem_cellsOf_of_mem_quotes hq
    rw [dateName_of_period hc, cellsOf_eq hc] at hcell
    rw [date?_of_period mapped hc, periodOf?, hc]
    exact CellValue.period?_of_isPeriod (hperiods _ hcell)
  · rw [date?_of_year h hperiod, periodOf?, hperiod]
    exact CellValue.periodIn?_eq_place? h _

theorem IsPriceTable.outcome_ofFrame (hf : f.IsPriceTable mapped) :
    (PriceTable.ofFrame f mapped).outcome =
      .ok (.ofRows (f.quotes.filterMap (Quote.entered? (f.periodOf? mapped)))) := by
  obtain ⟨market, hmarket, -⟩ := hf.market
  obtain ⟨region, hregion, -⟩ := hf.region
  obtain ⟨price, hprice, -⟩ := hf.price
  have hentered : (PriceTable.ofFrame f mapped).outcome = ((f.quotes.filterMap
      (Quote.enters (fun v => f.date? mapped v.cellNumber) fun v => v.cellNumber.price?)).mapM
        id).map .ofRows := by
    rcases hf.date with ⟨date, hdate, -⟩ | ⟨hperiod, date, h, hmapped, hyear, -⟩
    · exact PriceTable.outcome_ofFrame_of_period hf.readsEach hmarket hregion hprice hdate
    · exact PriceTable.outcome_ofFrame_of_year hf.readsEach hmarket hregion hprice hmapped hperiod
        hyear
  rw [hentered, Quote.filterMap_enters _ fun q hq => hf.date?_eq hq, mapM_id_map_ok]
  rfl

theorem length_cellsOf {n : Nat} (hn : ∀ c ∈ f.columns, c.2.size = n) {name : String} {c : Column}
    (hc : f.column? name = some c) : (f.cellsOf name).length = n := by
  rw [cellsOf_eq hc, Column.length_cells]
  exact hn _ (mem_of_column? hc)

/-- Columns of one length lose no date when they are put in step. -/
theorem IsPriceTable.map_date_quotes (hf : f.IsPriceTable mapped) {date : Column}
    (hdate : f.column? f.dateName = some date) : f.quotes.map (·.date) = date.cells := by
  obtain ⟨n, hn⟩ := hf.height
  obtain ⟨market, hmarket, -⟩ := hf.market
  obtain ⟨region, hregion, -⟩ := hf.region
  obtain ⟨price, hprice, -⟩ := hf.price
  have hdates := length_cellsOf hn hdate
  have hprices := length_cellsOf hn hprice
  have hregions : (f.namesOf "region").length = n := by
    rw [namesOf, List.length_map, length_cellsOf hn hregion]
  have hmarkets : (f.namesOf "market").length = n := by
    rw [namesOf, List.length_map, length_cellsOf hn hmarket]
  rw [quotes, List.map_map]
  change List.map (Prod.fst ∘ Prod.snd ∘ Prod.snd) _ = date.cells
  rw [← List.map_map, ← List.map_map, List.map_snd_zip, List.map_snd_zip, List.map_fst_zip,
    cellsOf_eq hdate]
  · omega
  · rw [List.length_zip]
    omega
  · rw [List.length_zip, List.length_zip]
    omega

/-- Rows outside are those whose mark is not set. -/
theorem IsPriceTable.count_marks (hf : f.IsPriceTable mapped) {year : Column} {h : Horizon}
    (hmapped : mapped = some h) (hperiod : f.column? "period" = none)
    (hyear : f.column? "year" = some year) :
    (year.numbers.map (PriceTable.isModelYear h)).count false =
      f.quotes.countP (f.isOutside mapped) := by
  subst hmapped
  have hdate : f.column? f.dateName = some year := by rw [dateName_of_year hperiod, hyear]
  have hcells : year.numbers.map (CellValue.periodIn? h) =
      f.quotes.map fun q => (f.periodOf? (some h) q.date).map Except.ok := by
    rw [← date?_of_year h hperiod, (hf.readsEach.date year hdate).numbers_eq,
      ← hf.map_date_quotes hdate, List.map_map]
    exact List.map_congr_left fun q hq => hf.date?_eq hq
  have hmarks : year.numbers.map (PriceTable.isModelYear h) =
      f.quotes.map fun q => (f.periodOf? (some h) q.date).isSome := by
    rw [PriceTable.map_isModelYear, hcells, List.map_map]
    exact List.map_congr_left fun q _ => Option.isSome_map
  rw [hmarks, List.count, List.countP_map]
  refine List.countP_congr fun q _ => ?_
  rw [isOutside, hperiod, Function.comp_apply]
  cases f.periodOf? (some h) q.date <;> simp

theorem IsPriceTable.log_ofFrame (hf : f.IsPriceTable mapped) :
    (PriceTable.ofFrame f mapped).log =
      Notice.counted .droppedYears (f.quotes.countP (f.isOutside mapped)) ++
        Notice.counted .droppedPrices (f.quotes.countP (f.isInvalid mapped)) := by
  obtain ⟨market, hmarket, -⟩ := hf.market
  obtain ⟨region, hregion, -⟩ := hf.region
  obtain ⟨price, hprice, -⟩ := hf.price
  rcases hf.date with ⟨date, hdate, -⟩ | ⟨hperiod, date, h, hmapped, hyear, -⟩
  · rw [PriceTable.ofFrame_period mapped hmarket hregion hprice hdate, PriceTable.log_ofPriceRows,
      PriceTable.countP_incomplete,
      PriceTable.map_read_of_period hf.readsEach hmarket hregion hprice hdate, List.countP_map,
      countP_isOutside_of_period hdate]
    refine congrArg (Notice.counted .droppedPrices) (List.countP_congr fun q hq => ?_)
    rw [Function.comp_apply, Quote.read, hf.date?_eq hq, isInvalid, isOutside_of_period hdate,
      Quote.priceNumber]
    cases f.periodOf? mapped q.date <;> cases q.price.cellNumber.price? <;> simp
  · -- The second count is one of the rows that the first one left.
    obtain ⟨kept, hkept, -⟩ := PriceTable.exists_periods h date.numbers
    simp only [← PriceTable.isModelYear_eq] at hkept
    have hlog : (PriceTable.ofFrame f mapped).log = _ := hmapped ▸
      PriceTable.log_ofFrame_year hmarket hregion hprice hperiod hyear hkept
    rw [hlog, hf.count_marks hmapped hperiod hyear, PriceTable.log_ofPriceRows,
      PriceTable.countP_incomplete,
      PriceTable.map_read_of_year hf.readsEach hmarket hregion hprice hmapped hperiod hyear hkept,
      List.countP_filter, List.countP_map]
    refine congrArg (Notice.counted .droppedYears _ ++ Notice.counted .droppedPrices ·)
      (List.countP_congr fun q hq => ?_)
    rw [Function.comp_apply, Quote.read, hf.date?_eq hq, isInvalid, isOutside, hperiod,
      Quote.priceNumber]
    cases f.periodOf? mapped q.date <;> cases q.price.cellNumber.price? <;> simp

end Frame

end Macc
