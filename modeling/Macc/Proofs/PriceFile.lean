import Macc.Price.Reading
import Macc.Proofs.Assignments
import Macc.Proofs.Attempts
import Macc.Proofs.ColumnNames
import Macc.Proofs.Double.Order
import Macc.Proofs.Files
import Macc.Proofs.ModelYears

/-!
# The prices of a file

What a file says of a price is said row by row: the names of a market and a
region, a period or a year, and a number. Reading the file loses none of that as
long as its columns of names are kept as they are written, and then a price is
that of the last row with its names and its period.

The rows enter the table through columns, each read by itself, and meet again
when they are put side by side. So the argument is one of lists in step: the names
of a column stay in step with the texts of its cells when some rows are left out,
the periods stay in step with the numbers they come from, and a row that is
looked up is the one that was written.
-/

namespace Macc

/-! ## Model years -/

namespace Horizon

/-- The place of a number among the model years. -/
def place? (h : Horizon) (year : CellValue) : Option Int :=
  (h.years.findIdx? year.equalsInt).map Int.ofNat

end Horizon

namespace CellValue

/-- The integer that a number equals. -/
def whole? : CellValue → Option Int
  | .int n => some n
  | .real x => if (Binary64.ofFloat x).isInteger then (Binary64.ofFloat x).truncate? else none

theorem toInteger_of_equalsInt {v : CellValue} {n : Int} (h : v.equalsInt n = true) :
    v.toInteger = .ok n := by
  cases v with
  | int m => rw [toInteger, eq_of_beq h]
  | real x =>
      obtain ⟨-, hn⟩ := Bool.and_eq_true_iff.1 h
      rw [toInteger, truncateFloat, eq_of_beq hn]

end CellValue

/-! ## The columns of a file -/

namespace Frame

variable {header : List String} {rows : List (List String)} {name : String}

def cellsUnder (header : List String) (rows : List (List String)) (name : String) : List String :=
  rows.map fun row => row[header.idxOf name]?.getD ""

def columnUnder (header : List String) (rows : List (List String)) (name : String) : Column :=
  Column.ofCells (cellsUnder header rows name)

theorem length_headerNames : (headerNames header).length = header.length := by
  rw [headerNames, List.length_map, List.length_zipIdx]

theorem getElem_headerNames_idxOf (hname : name ∈ header)
    (hk : header.idxOf name < (headerNames header).length) :
    (headerNames header)[header.idxOf name] = name := by
  have hnew : (header.take (header.idxOf name)).count name = 0 := by
    rw [List.count_eq_zero, List.mem_take_iff_idxOf_lt hname]
    exact Nat.lt_irrefl _
  simp only [headerNames, List.getElem_map, List.getElem_zipIdx, List.getElem_idxOf, Nat.zero_add,
    hnew]

/-- A name without a point is a name of the header only where it stands in it. -/
theorem getElem_headerNames_ne {k : Nat} (hk : k < header.length)
    (hk' : k < (headerNames header).length) (hother : header[k] ≠ name)
    (hpoint : '.' ∉ name.toList) : (headerNames header)[k] ≠ name := by
  simp only [headerNames, List.getElem_map, List.getElem_zipIdx]
  split
  · exact hother
  · rintro rfl
    exact hpoint (by simp)

theorem column?_ofRecords (rows : List (List String)) (hname : name ∈ header) (hpoint : '.' ∉ name.toList) :
    (ofRecords header rows).column? name = some (columnUnder header rows name) := by
  have hk : header.idxOf name < (headerNames header).length := by
    rw [length_headerNames]
    exact List.idxOf_lt_length_iff.2 hname
  have hfound : ((ofRecords header rows).columns.find? fun c => c.1 == name) =
      some (name, columnUnder header rows name) := by
    rw [List.find?_eq_some_iff_getElem]
    refine ⟨beq_self_eq_true name, header.idxOf name, by simpa [ofRecords] using hk, ?_, ?_⟩
    · simp only [ofRecords, List.getElem_map, List.getElem_zipIdx, Nat.zero_add,
        getElem_headerNames_idxOf hname hk]
      rfl
    · intro j hj
      have hlt : j < header.length := Nat.lt_trans hj (List.idxOf_lt_length_iff.2 hname)
      have hne := getElem_headerNames_ne hlt (by rw [length_headerNames]; exact hlt)
        (by simpa using List.not_of_lt_findIdx hj) hpoint
      simpa [ofRecords] using hne
  rw [column?, hfound]
  rfl

theorem column?_ofRecords_of_not_mem (rows : List (List String)) (hname : name ∉ header) (hpoint : '.' ∉ name.toList) :
    (ofRecords header rows).column? name = none := by
  have hnone : ((ofRecords header rows).columns.find? fun c => c.1 == name) = none := by
    rw [List.find?_eq_none]
    intro c hc
    obtain ⟨k, hk, rfl⟩ := List.getElem_of_mem hc
    have hlt : k < header.length := by
      simpa [ofRecords, length_headerNames] using hk
    have hother : header[k] ≠ name := by
      rintro rfl
      exact hname (List.getElem_mem hlt)
    have hne := getElem_headerNames_ne hlt (by rw [length_headerNames]; exact hlt) hother hpoint
    simpa [ofRecords] using hne
  rw [column?, hnone]
  rfl

theorem headerAndRows_of_full (hwidth : ∀ row ∈ rows, row.length = header.length) :
    Csv.headerAndRows (header :: rows) = .ok (header, rows) := by
  have hmax : max header.length ((rows.head?.map List.length).getD 0) = header.length := by
    cases rows with
    | nil => exact Nat.max_eq_left (Nat.zero_le _)
    | cons row rest =>
        rw [List.head?_cons, Option.map_some, Option.getD_some, hwidth row List.mem_cons_self,
          Nat.max_self]
  have hnone : (rows.any fun row => decide (header.length < row.length)) = false := by
    rw [List.any_eq_false]
    intro row hrow
    rw [hwidth row hrow, decide_eq_true_eq]
    exact Nat.lt_irrefl _
  have hrows : (rows.map fun row => (Csv.pad header.length row).drop 0) = rows := by
    conv_rhs => rw [← List.map_id rows]
    refine List.map_congr_left fun row hrow => ?_
    rw [Csv.pad, hwidth row hrow, Nat.sub_self, List.replicate_zero, List.append_nil]
    rfl
  rw [Csv.headerAndRows, hmax, hnone, Nat.sub_self, hrows]
  rfl

end Frame

/-! ## Rows side by side -/

/-- A row of a price file: the names that are written in it, its period when it has one, and its
price. -/
structure FileRow where
  market : String
  region : String
  period : Option Int
  price : CellValue

/-- Whether the row has a price of a market in a region and period. -/
def FileRow.sets (row : FileRow) (market region : String) (period : Int) : Bool :=
  row.market == market && row.region == region && row.period == some period && !row.price.isMissing

def FileRow.sideBySide (markets regions : List String) (periods : List (Option Int))
    (prices : List CellValue) : List FileRow :=
  (markets.zip (regions.zip (periods.zip prices))).map
    fun (market, region, period, price) => ⟨market, region, period, price⟩

/-- Whether a number is the one that a period comes from. -/
def CellValue.Gives (period : Option Int) (v : CellValue) : Prop :=
  (period = none ∧ v.isMissing = true) ∨
    ∃ p, period = some p ∧ v.isMissing = false ∧ v.toInteger = .ok p

def PriceRow.key (row : PriceRow) : PriceKey :=
  ⟨row.market, row.region, row.period.toInteger.toOption.getD 0⟩

/-- Whether a row is entered as a row of the file says. -/
structure PriceRow.Enters (written : FileRow) (row : PriceRow) : Prop where
  market : Column.Keeps written.market row.market
  region : Column.Keeps written.region row.region
  period : row.period.Gives written.period
  price : row.price = written.price

section

variable {α β γ δ : Type} {R : α → β → Prop} {S : γ → δ → Prop}

theorem forall₂_zip {xs : List α} {ys : List β} {us : List γ} {vs : List δ}
    (h : List.Forall₂ R xs ys) (h' : List.Forall₂ S us vs) :
    List.Forall₂ (fun a b => R a.1 b.1 ∧ S a.2 b.2) (xs.zip us) (ys.zip vs) := by
  induction h generalizing us vs with
  | nil => exact .nil
  | cons hxy _ ih =>
      cases h' with
      | nil => exact .nil
      | cons huv h' => exact .cons ⟨hxy, huv⟩ (ih h')

theorem map_filter_of_forall₂ {p : α → Bool} {q : β → Bool} {f : α → γ} {g : β → γ}
    {xs : List α} {ys : List β} (h : List.Forall₂ R xs ys)
    (hpq : ∀ a b, R a b → p a = q b ∧ f a = g b) : (xs.filter p).map f = (ys.filter q).map g := by
  induction h with
  | nil => rfl
  | cons hxy _ ih =>
      obtain ⟨hsame, hvalue⟩ := hpq _ _ hxy
      rw [List.filter_cons, List.filter_cons, hsame]
      split
      · rw [List.map_cons, List.map_cons, hvalue, ih]
      · exact ih

end

namespace PriceTable

variable {market region price : Column} {periods : List CellValue} {markets regions : List String}
  {written : List (Option Int)}

theorem forall₂_rowsOf (hmarket : List.Forall₂ Column.Keeps markets market.names)
    (hregion : List.Forall₂ Column.Keeps regions region.names)
    (hperiod : List.Forall₂ (fun p v => CellValue.Gives p v) written periods) :
    List.Forall₂ PriceRow.Enters (FileRow.sideBySide markets regions written price.numbers)
      (rowsOf market region price periods) := by
  have hprice : List.Forall₂ (fun v w : CellValue => w = v) price.numbers price.numbers :=
    List.forall₂_same.2 fun _ _ => rfl
  rw [FileRow.sideBySide, rowsOf, List.forall₂_map_left_iff, List.forall₂_map_right_iff]
  refine (forall₂_zip hmarket (forall₂_zip hregion (forall₂_zip hperiod hprice))).imp ?_
  rintro ⟨m, r, p, v⟩ ⟨m', r', p', v'⟩ ⟨hm, hr, hp, hv⟩
  exact ⟨hm, hr, hp, hv⟩

theorem sets_iff_of_enters {file : FileRow} {row : PriceRow} (h : PriceRow.Enters file row)
    {m r : String} (hm : m ≠ "") (hr : r ≠ "") (p : Int) :
    file.sets m r p = (row.isComplete && row.key == ⟨some m, some r, p⟩) := by
  have hperiod : (file.period == some p) =
      (!row.period.isMissing && row.period.toInteger.toOption.getD 0 == p) := by
    rcases h.period with ⟨hnone, hmissing⟩ | ⟨q, hsome, hpresent, hvalue⟩
    · rw [hnone, hmissing]
      rfl
    · rw [hsome, hpresent, hvalue]
      rfl
  have hmarket := h.market m hm
  have hregion := h.region r hr
  rw [Bool.eq_iff_iff, FileRow.sets, PriceRow.isComplete, PriceRow.key, hperiod, h.price]
  simp only [Bool.and_eq_true, beq_iff_eq, PriceKey.mk.injEq, hmarket, hregion]
  tauto

theorem outcome_ofPriceRows {rows : List PriceRow}
    (hrows : ∀ row ∈ rows, row.isComplete = true → ∃ p, row.period.toInteger = .ok p) :
    (ofPriceRows rows).outcome =
      .ok (ofRows ((rows.filter PriceRow.isComplete).map fun row => (row.key, row.price.toReal))) := by
  have hentries : (rows.filter PriceRow.isComplete).mapM PriceRow.entry =
      .ok ((rows.filter PriceRow.isComplete).map fun row => (row.key, row.price.toReal)) := by
    apply mapM_eq_ok
    intro row hrow
    obtain ⟨hmem, hcomplete⟩ := List.mem_filter.1 hrow
    obtain ⟨p, hp⟩ := hrows row hmem hcomplete
    rw [PriceRow.entry, PriceRow.key, hp]
    rfl
  rw [ofPriceRows]
  dsimp only
  split
  all_goals
    simp only [Attempt.outcome_bind, Attempt.outcome_ofExcept, hentries]
    rfl

theorem price?_ofRows_map (rows : List PriceRow) (m r : String) (p : Int) :
    (ofRows (rows.map fun row => (row.key, row.price.toReal))).price? m r p =
      (((rows.filter fun row => row.key == ⟨some m, some r, p⟩).map
        fun row => row.price.toReal)).getLast? := by
  rw [price?, ofRows, Entries.get?_ofAssignments, List.filter_map, List.getLast?_map,
    List.getLast?_map, Option.map_map]
  rfl

theorem exists_ofPriceRows {file : List FileRow} {rows : List PriceRow}
    (h : List.Forall₂ PriceRow.Enters file rows) :
    ∃ table, (ofPriceRows rows).outcome = .ok table ∧
      ∀ m r p, m ≠ "" → r ≠ "" → table.price? m r p =
        ((file.filter fun row => row.sets m r p).getLast?).map fun row => row.price.toReal := by
  have hrows : ∀ row ∈ rows, row.isComplete = true → ∃ p, row.period.toInteger = .ok p := by
    intro row hrow hcomplete
    obtain ⟨written, -, henters⟩ := Column.exists_mem_of_forall₂ h hrow
    rcases henters.period with ⟨-, hmissing⟩ | ⟨p, -, -, hp⟩
    · rw [PriceRow.isComplete, hmissing] at hcomplete
      cases hcomplete
    · exact ⟨p, hp⟩
  refine ⟨_, outcome_ofPriceRows hrows, fun m r p hm hr => ?_⟩
  rw [price?_ofRows_map, List.filter_filter, ← List.getLast?_map]
  congr 1
  refine (map_filter_of_forall₂ h fun written row henters => ⟨?_, ?_⟩).symm
  · rw [sets_iff_of_enters henters hm hr p, Bool.and_comm]
  · rw [henters.price]

/-! ## A file as a table -/

variable {header : List String} {rows : List (List String)} {h : Horizon}

open Macc.Frame (cellsUnder columnUnder)

def writtenNames (header : List String) (rows : List (List String)) (name : String) :
    List String :=
  (cellsUnder header rows name).map Text.trim

/-- What the rows of a price file say. Periods are taken as they are; without them, years that are
no model years leave their rows out and the others give the period they are the year of. -/
def fileRows (h : Horizon) (header : List String) (rows : List (List String)) : List FileRow :=
  let markets := writtenNames header rows "market"
  let regions := writtenNames header rows "region"
  let price := columnUnder header rows "price"
  if "period" ∈ header then
    FileRow.sideBySide markets regions
      ((columnUnder header rows "period").numbers.map CellValue.whole?) price.numbers
  else
    let places := (columnUnder header rows "year").numbers.map h.place?
    let known := places.map Option.isSome
    FileRow.sideBySide (Column.marked known markets) (Column.marked known regions)
      (Column.marked known places) (price.select known).numbers

theorem length_columnUnder (name : String) :
    (columnUnder header rows name).numbers.length = rows.length := by
  rw [Column.length_numbers, columnUnder, Column.size_ofCells, cellsUnder, List.length_map]

theorem length_sideBySide {markets regions : List String} {periods : List (Option Int)}
    {prices : List CellValue} {n : Nat} (hmarket : markets.length = n) (hregion : regions.length = n)
    (hperiod : periods.length = n) (hprice : prices.length = n) :
    (FileRow.sideBySide markets regions periods prices).length = n := by
  simp only [FileRow.sideBySide, List.length_map, List.length_zip]
  omega

/-- No row is lost, apart from those whose year is no model year. -/
theorem length_fileRows (h : Horizon) (header : List String) (rows : List (List String)) :
    (fileRows h header rows).length =
      if "period" ∈ header then rows.length
      else ((columnUnder header rows "year").numbers.map fun y => (h.place? y).isSome).count true := by
  have hnames : ∀ name, (writtenNames header rows name).length = rows.length := by
    intro name
    rw [writtenNames, List.length_map, cellsUnder, List.length_map]
  rw [fileRows]
  dsimp only
  split
  · refine length_sideBySide (hnames _) (hnames _) ?_ (length_columnUnder _)
    rw [List.length_map, length_columnUnder]
  · rw [List.map_map]
    have hmarks : ((columnUnder header rows "year").numbers.map
        (Option.isSome ∘ h.place?)).length = rows.length := by
      rw [List.length_map, length_columnUnder]
    refine length_sideBySide ?_ ?_ ?_ ?_
    · exact Column.length_marked (hmarks.trans (hnames _).symm)
    · exact Column.length_marked (hmarks.trans (hnames _).symm)
    · refine Column.length_marked (hmarks.trans ?_)
      rw [List.length_map, length_columnUnder]
    · rw [Column.length_numbers]
      refine Column.size_select (hmarks.trans ?_)
      rw [← Column.length_numbers, length_columnUnder]

/-- Whether a number is an integer, if it is there at all. -/
def IsPeriod (v : CellValue) : Prop :=
  v.isMissing = true ∨ ∃ p, v.whole? = some p

theorem gives_whole {v : CellValue} (hv : IsPeriod v) : v.Gives v.whole? := by
  cases v with
  | int n => exact .inr ⟨n, rfl, rfl, rfl⟩
  | real x =>
      rw [CellValue.Gives, CellValue.whole?]
      split
      · next hinteger =>
          obtain ⟨n, hn⟩ := Binary64.exists_truncate hinteger
          refine .inr ⟨n, hn, ?_, ?_⟩
          · exact isNaN_of_isInteger hinteger
          · rw [CellValue.toInteger, truncateFloat, hn]
      · next hinteger =>
          rcases hv with hmissing | ⟨p, hp⟩
          · exact .inl ⟨rfl, hmissing⟩
          · rw [CellValue.whole?, if_neg hinteger] at hp
            cases hp

theorem gives_place {year : CellValue} (hknown : (h.place? year).isSome = true) :
    ∃ y, year.toInteger = .ok y ∧ CellValue.Gives (h.place? year) (.int (h.periodOf y)) := by
  obtain ⟨p, hp⟩ := Option.isSome_iff_exists.1 hknown
  obtain ⟨k, hfound, hk⟩ := Option.map_eq_some_iff.1 hp
  obtain ⟨hlt, hequal, -⟩ := List.findIdx?_eq_some_iff_getElem.1 hfound
  refine ⟨h.years[k], CellValue.toInteger_of_equalsInt hequal, .inr ⟨p, hp, rfl, ?_⟩⟩
  rw [h.periodOf_getElem hlt, ← hk]
  rfl

theorem exists_periods (h : Horizon) (years : List CellValue) :
    ∃ kept, (Column.marked (years.map fun v => (h.place? v).isSome) years).mapM
        CellValue.toInteger = .ok kept ∧
      List.Forall₂ (fun p v => CellValue.Gives p v)
        (Column.marked (years.map fun v => (h.place? v).isSome) (years.map h.place?))
        (kept.map fun y => .int (h.periodOf y)) := by
  have hknown : ∀ v ∈ Column.marked (years.map fun v => (h.place? v).isSome) years,
      ∃ y, v.toInteger = .ok y ∧ CellValue.Gives (h.place? v) (.int (h.periodOf y)) :=
    fun v hv => gives_place (Column.mem_marked_map (f := fun v => (h.place? v).isSome) hv)
  rw [Column.marked_map]
  generalize Column.marked (years.map fun v => (h.place? v).isSome) years = items at hknown ⊢
  refine ⟨items.map fun v => v.toInteger.toOption.getD 0, mapM_eq_ok ?_, ?_⟩
  · intro v hv
    obtain ⟨y, hy, -⟩ := hknown v hv
    rw [hy]
    rfl
  · rw [List.map_map, List.forall₂_map_left_iff, List.forall₂_map_right_iff, List.forall₂_same]
    intro v hv
    obtain ⟨y, hy, hgives⟩ := hknown v hv
    rw [Function.comp_apply, hy]
    exact hgives

theorem isModelYear_eq (h : Horizon) (year : CellValue) :
    isModelYear h year = (h.place? year).isSome := by
  rw [isModelYear, Horizon.place?, Option.isSome_map, List.findIdx?_isSome]

section

variable {market region price : Column} {frame : Frame}

theorem ofFrame_period {period : Column} (horizon : Option Horizon)
    (hm : frame.column? "market" = some market) (hr : frame.column? "region" = some region)
    (hv : frame.column? "price" = some price) (hp : frame.column? "period" = some period) :
    ofFrame frame horizon = ofPriceRows (rowsOf market region price period.numbers) := by
  rw [ofFrame, hm, hr, hv, hp]

theorem outcome_ofFrame_year {year : Column} {kept : List Int}
    (hm : frame.column? "market" = some market) (hr : frame.column? "region" = some region)
    (hv : frame.column? "price" = some price) (hp : frame.column? "period" = none)
    (hy : frame.column? "year" = some year)
    (hkept : (Column.marked (year.numbers.map (isModelYear h)) year.numbers).mapM
      CellValue.toInteger = .ok kept) :
    (ofFrame frame (some h)).outcome =
      (ofPriceRows (rowsOf (market.select (year.numbers.map (isModelYear h)))
        (region.select (year.numbers.map (isModelYear h)))
        (price.select (year.numbers.map (isModelYear h)))
        (kept.map fun y => .int (h.periodOf y)))).outcome := by
  rw [ofFrame, hm, hr, hv, hp, hy]
  dsimp only
  split
  all_goals
    simp only [Attempt.outcome_bind, Attempt.outcome_ofExcept, hkept]
    rfl

end

theorem exists_ofFrame_ofRecords (h : Horizon) (hcolumns : ∀ name ∈ requiredColumns, name ∈ header)
    (hyears : "period" ∉ header → "year" ∈ header)
    (hperiods : "period" ∈ header → ∀ v ∈ (columnUnder header rows "period").numbers, IsPeriod v)
    (hmarket : Column.KeepsNames (cellsUnder header rows "market"))
    (hregion : Column.KeepsNames (cellsUnder header rows "region")) :
    ∃ table, (ofFrame (Frame.ofRecords header rows) (some h)).outcome = .ok table ∧
      ∀ m r p, m ≠ "" → r ≠ "" → table.price? m r p =
        (((fileRows h header rows).filter fun row => row.sets m r p).getLast?).map
          fun row => row.price.toReal := by
  have hm := Frame.column?_ofRecords rows (hcolumns "market" (by decide)) (by decide)
  have hr := Frame.column?_ofRecords rows (hcolumns "region" (by decide)) (by decide)
  have hv := Frame.column?_ofRecords rows (hcolumns "price" (by decide)) (by decide)
  rw [fileRows]
  dsimp only
  split
  · next hperiod =>
      have hp := Frame.column?_ofRecords rows hperiod (by decide)
      rw [ofFrame_period (some h) hm hr hv hp]
      refine exists_ofPriceRows (forall₂_rowsOf hmarket hregion ?_)
      rw [List.forall₂_map_left_iff, List.forall₂_same]
      exact fun v hv => gives_whole (hperiods hperiod v hv)
  · next hperiod =>
      have hp := Frame.column?_ofRecords_of_not_mem rows hperiod (by decide)
      have hy := Frame.column?_ofRecords rows (hyears hperiod) (by decide)
      obtain ⟨kept, hkept, hgives⟩ := exists_periods h (columnUnder header rows "year").numbers
      simp only [← isModelYear_eq] at hkept hgives
      rw [outcome_ofFrame_year hm hr hv hp hy hkept, List.map_map]
      simp only [Function.comp_def, ← isModelYear_eq]
      -- the same marks choose the rows in every column, so the columns stay in step
      refine exists_ofPriceRows (forall₂_rowsOf ?_ ?_ hgives)
      · rw [Column.names_select]
        exact Column.forall₂_marked hmarket
      · rw [Column.names_select]
        exact Column.forall₂_marked hregion

/-- A price file with full rows is read without a failure, and as long as its columns of names are
kept as they are written, a price of a market in a region and period is that of the last row with
these names and this period. -/
theorem load_answers_last_row {files : FileTree} {path : Path} {bytes : ByteArray} {text : String}
    (h : Horizon) (hread : files.read path = .ok bytes) (htext : String.fromUTF8? bytes = some text)
    (hrecords : Csv.records text = .ok (header :: rows))
    (hwidth : ∀ row ∈ rows, row.length = header.length)
    (hcolumns : ∀ name ∈ requiredColumns, name ∈ header)
    (hyears : "period" ∉ header → "year" ∈ header)
    (hperiods : "period" ∈ header → ∀ v ∈ (columnUnder header rows "period").numbers, IsPeriod v)
    (hmarket : Column.KeepsNames (cellsUnder header rows "market"))
    (hregion : Column.KeepsNames (cellsUnder header rows "region")) :
    ∃ table, (load files path (some h)).outcome = .ok table ∧
      ∀ m r p, m ≠ "" → r ≠ "" → table.price? m r p =
        (((fileRows h header rows).filter fun row => row.sets m r p).getLast?).map
          fun row => row.price.toReal := by
  have hframe : Frame.load files path (.priceFileMissing path.text) =
      .ok (Frame.ofRecords header rows) := by
    rw [Frame.load, FileTree.pathExists_of_read hread, ok_bind, if_pos rfl, hread, ok_bind,
      Frame.ofBytes, htext]
    dsimp only
    rw [Frame.ofText, hrecords, ok_bind, Frame.headerAndRows_of_full hwidth, ok_bind]
    rfl
  rw [load, hframe]
  exact exists_ofFrame_ofRecords h hcolumns hyears hperiods hmarket hregion

/-! A region that is written with a leading zero, beside one that is a word and beside another such
one. -/

def twoYears : Horizon := ⟨[2005, 2010], List.cons_ne_nil _ _, rfl⟩

def pricesPath : Path := ⟨.single, ["prices.csv"]⟩

def pricesHeader : List String := ["market", "region", "price", "year"]

def filesWith (text : String) : FileTree := ⟨[(["prices.csv"], .file text.toUTF8)], []⟩

def mixedText : String :=
  "market,region,price,year\n CO2 ,01,50,2005\nCO2,USA,75,2010\nCO2,01,60,2005\nCO2,01,1,2007\n"

def mixedRows : List (List String) :=
  [[" CO2 ", "01", "50", "2005"], ["CO2", "USA", "75", "2010"], ["CO2", "01", "60", "2005"],
    ["CO2", "01", "1", "2007"]]

theorem load_answers_last_row_mixed :
    ∃ table, (load (filesWith mixedText) pricesPath (some twoYears)).outcome = .ok table ∧
      table.price? "CO2" "01" 0 = some 60 ∧
      ∀ m r p, m ≠ "" → r ≠ "" → table.price? m r p =
        (((fileRows twoYears pricesHeader mixedRows).filter fun row =>
          row.sets m r p).getLast?).map fun row => row.price.toReal := by
  have hrecords : Csv.records mixedText = .ok (pricesHeader :: mixedRows) := by
    rw [← toOption_eq_some_iff]
    decide +kernel
  have hread : (filesWith mixedText).read pricesPath = .ok mixedText.toUTF8 := rfl
  have hmarket : Column.KeepsNames (cellsUnder pricesHeader mixedRows "market") := by
    have hword : Column.IsWord "CO2" := ⟨by decide, by decide +kernel, by decide⟩
    exact Column.keepsNames_of_word (by decide) hword (by decide)
  have hregion : Column.KeepsNames (cellsUnder pricesHeader mixedRows "region") := by
    have hword : Column.IsWord "USA" := ⟨by decide, by decide +kernel, by decide⟩
    exact Column.keepsNames_of_word (by decide) hword (by decide)
  have hyears : "period" ∉ pricesHeader := by decide
  obtain ⟨table, htable, hprices⟩ := load_answers_last_row twoYears hread (by decide +kernel)
    hrecords (by decide) (by decide) (fun _ => by decide) (fun h => absurd h hyears) hmarket hregion
  refine ⟨table, htable, ?_, hprices⟩
  rw [hprices "CO2" "01" 0 (by decide) (by decide)]
  decide +kernel

def numberedText : String := "market,region,price,year\nCO2,01,50,2005\nCO2,02,75,2010\n"

def numberedRows : List (List String) :=
  [["CO2", "01", "50", "2005"], ["CO2", "02", "75", "2010"]]

/-- A column of such regions alone is read as one of integers, and the prices are found under other
names than the written ones. -/
theorem load_renames_numbered_regions :
    ∃ table, (load (filesWith numberedText) pricesPath (some twoYears)).outcome = .ok table ∧
      table.price? "CO2" "01" 0 = none ∧ table.price? "CO2" "1" 0 = some 50 ∧
      Csv.records numberedText = .ok (pricesHeader :: numberedRows) ∧
      (((fileRows twoYears pricesHeader numberedRows).filter fun row =>
        row.sets "CO2" "01" 0).getLast?).map (fun row => row.price.toReal) = some 50 := by
  have htable : (load (filesWith numberedText) pricesPath (some twoYears)).outcome =
      .ok ⟨[(⟨some "CO2", some "1", 0⟩, 50), (⟨some "CO2", some "2", 1⟩, 75)]⟩ := by
    rw [← toOption_eq_some_iff]
    decide +kernel
  have hrecords : Csv.records numberedText = .ok (pricesHeader :: numberedRows) := by
    rw [← toOption_eq_some_iff]
    decide +kernel
  exact ⟨_, htable, rfl, rfl, hrecords, by decide +kernel⟩

end PriceTable

end Macc
