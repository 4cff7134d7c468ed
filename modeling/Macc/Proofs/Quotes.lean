import Macc.Proofs.Double.Integers
import Macc.Proofs.PriceFile

/-!
# Prices row by row

A table of prices is read column by column: the names of the markets, those of
the regions, the dates and the prices, each column as a whole. What it says is
said row by row, and the two agree as far as a column is read cell by cell. For
names that are texts this is so; for numbers it is what is asked here of the
columns of dates and prices, in the sense in which each of them is used. A price
is used as a double, or it is missing; a date is used as a period, or it leaves
its row out.

Then the table is entered from a list that is made of the rows, each by itself,
and a statement about some of the rows is one about that list.
-/

namespace Macc

/-! ## Cells -/

namespace Column

/-- The cells of a column as values. -/
def cells : Column → List Value
  | .ints ns => ns.map .int
  | .reals xs => xs.map .float
  | .flags bs => bs.map .bool
  | .texts ts => ts.map fun t => (t.map .text).getD .null
  | .values vs => vs

def IsText (c : Column) : Prop :=
  ∀ v ∈ c.cells, ∃ s, v = .text s

theorem isText_texts (ts : List String) : (texts (ts.map some)).IsText := by
  intro v hv
  rw [cells, List.map_map] at hv
  obtain ⟨s, -, rfl⟩ := List.mem_map.1 hv
  exact ⟨s, rfl⟩

/-- A column of texts is read cell by cell. -/
theorem names_of_isText {c : Column} (h : c.IsText) :
    c.names = c.cells.map fun v => some (Text.trim v.plain) := by
  have hno : ∀ {α : Type} {f : α → Value} {items : List α} {a : α}, c.cells = items.map f →
      a ∈ items → ∃ s, f a = .text s := fun heq ha => h _ (heq ▸ List.mem_map_of_mem ha)
  rw [names]
  cases c with
  | ints ns =>
      rw [cellTexts, cells, List.map_map, List.map_map]
      refine List.map_congr_left fun n hn => ?_
      obtain ⟨s, hs⟩ := hno rfl hn
      cases hs
  | reals xs =>
      rw [cellTexts, cells, List.map_map, List.map_map]
      refine List.map_congr_left fun x hx => ?_
      obtain ⟨s, hs⟩ := hno rfl hx
      cases hs
  | flags bs =>
      rw [cellTexts, cells, List.map_map, List.map_map]
      refine List.map_congr_left fun b hb => ?_
      obtain ⟨s, hs⟩ := hno rfl hb
      cases hs
  | texts ts =>
      rw [cellTexts, cells, List.map_map]
      refine List.map_congr_left fun t ht => ?_
      cases t with
      | some s => rfl
      | none =>
          obtain ⟨s, hs⟩ := hno rfl ht
          cases hs
  | values vs =>
      rw [cellTexts, cells, List.map_map]
      refine List.map_congr_left fun v hv => ?_
      obtain ⟨s, rfl⟩ := h v hv
      rfl

/-- The numbers of a column, in the sense in which they are used, are those of its cells, each read
by itself, and stay so when cells are left out. -/
def ReadsEach {β : Type} (view : CellValue → β) (read : Value → β) (c : Column) : Prop :=
  ∀ marks, (c.select marks).numbers.map view = marked marks (c.cells.map read)

theorem marked_all {α β : Type} (as : List α) (bs : List β) (h : as.length = bs.length) :
    marked (as.map fun _ => true) bs = bs := by
  induction as generalizing bs with
  | nil => rw [List.eq_nil_of_length_eq_zero h.symm]; rfl
  | cons a rest ih =>
      cases bs with
      | nil => cases h
      | cons b more => exact congrArg (b :: ·) (ih more (Nat.succ.inj h))

theorem ReadsEach.numbers_eq {β : Type} {view : CellValue → β} {read : Value → β} {c : Column}
    (h : c.ReadsEach view read) : c.numbers.map view = c.cells.map read := by
  have hall := h (c.cells.map fun _ => true)
  have hselect : c.select (c.cells.map fun _ => true) = c := by
    cases c with
    | ints ns => exact congrArg ints (marked_all _ ns (List.length_map _))
    | reals xs => exact congrArg reals (marked_all _ xs (List.length_map _))
    | flags bs => exact congrArg flags (marked_all _ bs (List.length_map _))
    | texts ts => exact congrArg texts (marked_all _ ts (List.length_map _))
    | values vs => exact congrArg values (marked_all vs vs rfl)
  rw [hselect, marked_all _ _ (List.length_map _).symm] at hall
  exact hall

/-- Integers are read cell by cell. -/
theorem readsEach_ints {β : Type} {view : CellValue → β} {read : Value → β}
    (h : ∀ n, view (.int n) = read (.int n)) (ns : List Int) :
    (ints ns).ReadsEach view read := by
  intro marks
  have hread : view ∘ CellValue.int = read ∘ Value.int := funext h
  rw [select, numbers, cells, List.map_map, List.map_map, marked_map, hread]

/-- Reals are read cell by cell. -/
theorem readsEach_reals {β : Type} {view : CellValue → β} {read : Value → β}
    (h : ∀ x, view (.real x) = read (.float x)) (xs : List Float) :
    (reals xs).ReadsEach view read := by
  intro marks
  have hread : view ∘ CellValue.real = read ∘ Value.float := funext h
  rw [select, numbers, cells, List.map_map, List.map_map, marked_map, hread]

/-- Values of several kinds are read cell by cell where an integer is used like the real next to
it: whether the other cells make a real of it then does not count. -/
theorem readsEach_values {β : Type} {view : CellValue → β} {vs : List Value}
    (h : ∀ v ∈ vs, ∀ n, (numberOfValue v).int? = some n →
      view (.int n) = view (.real (numberOfValue v).real)) :
    (values vs).ReadsEach view fun v => view (.real (numberOfValue v).real) := by
  intro marks
  have hchosen : ∀ v ∈ marked marks vs, ∀ n, (numberOfValue v).int? = some n →
      view (.int n) = view (.real (numberOfValue v).real) := by
    intro v hv
    obtain ⟨e, he, rfl⟩ := List.mem_map.1 hv
    exact h e.2 (List.of_mem_zip (List.mem_of_mem_filter he)).2
  rw [select, numbers, cells, marked_map]
  generalize marked marks vs = chosen at hchosen ⊢
  have hints : ∀ ns, (chosen.map numberOfValue).mapM (·.int?) = some ns →
      (ns.map CellValue.int).map view =
        chosen.map fun v => view (.real (numberOfValue v).real) := by
    intro ns hns
    rw [List.mapM_map] at hns
    have hread := forall₂_of_mapM_some hns
    clear hns
    induction hread with
    | nil => rfl
    | cons hv _ ih =>
        obtain ⟨hfirst, hrest⟩ := List.forall_mem_cons.1 hchosen
        exact congrArg₂ List.cons (hfirst _ hv) (ih hrest)
  have hreals : ((chosen.map numberOfValue).map fun n => CellValue.real n.real).map view =
      chosen.map fun v => view (.real (numberOfValue v).real) := by
    rw [List.map_map, List.map_map]
    rfl
  rw [unified]
  split
  · next ns hns =>
      split
      · exact hints ns hns
      · exact hreals
  · exact hreals

theorem marked_zip {α β : Type} (marks : List Bool) (as : List α) (bs : List β) :
    marked marks (as.zip bs) = (marked marks as).zip (marked marks bs) := by
  induction marks generalizing as bs with
  | nil => rfl
  | cons mark rest ih =>
      cases as with
      | nil => simp [marked]
      | cons a as =>
          cases bs with
          | nil => simp [marked]
          | cons b bs =>
              cases mark
              · exact ih as bs
              · exact congrArg ((a, b) :: ·) (ih as bs)

end Column

/-! ## Rows -/

namespace CellValue

/-- What a number is as a price: a double, if it is there. -/
def price? (v : CellValue) : Option Float :=
  if v.isMissing then none else some v.toReal

/-- An integer and the real next to it are the same price. -/
theorem price?_int (n : Int) : price? (.int n) = price? (.real (Binary64.ofInt n)) := by
  rw [price?, price?, isMissing, isMissing, isNaN_ofInt]
  rfl

/-- What a number is as a period: what stands before its point, if it is there. -/
def period? (v : CellValue) : Option (Except Failure Int) :=
  if v.isMissing then none else some v.toInteger

/-- What a number is as a year: the period of a model year. -/
def periodIn? (h : Horizon) (v : CellValue) : Option (Except Failure Int) :=
  if PriceTable.isModelYear h v then some (v.toInteger.map fun y => (h.periodOf y : Int)) else none

end CellValue

/-- A row of a table as it was given, with its names stripped. -/
structure Quote where
  market : String
  region : String
  /-- A period, or a year where the table has none. -/
  date : Value
  price : Value

namespace Frame

/-- The column that says when a price holds. -/
def dateName (f : Frame) : String :=
  if (f.column? "period").isSome then "period" else "year"

def cellsOf (f : Frame) (name : String) : List Value :=
  ((f.column? name).map Column.cells).getD []

def namesOf (f : Frame) (name : String) : List String :=
  (f.cellsOf name).map fun v => Text.trim v.plain

/-- The rows of a table of prices. -/
def quotes (f : Frame) : List Quote :=
  ((f.namesOf "market").zip ((f.namesOf "region").zip
    ((f.cellsOf f.dateName).zip (f.cellsOf "price")))).map
      fun (market, region, date, price) => ⟨market, region, date, price⟩

/-- What a number in the column of dates is, as a period. -/
def date? (f : Frame) (mapped : Option Horizon) (v : CellValue) : Option (Except Failure Int) :=
  match f.column? "period", mapped with
  | some _, _ => v.period?
  | none, some h => v.periodIn? h
  | none, none => none

/-- A table whose names are texts and whose numbers are read cell by cell. -/
structure ReadsEach (f : Frame) (mapped : Option Horizon)
    (readDate : Value → Option (Except Failure Int)) (readPrice : Value → Option Float) :
    Prop where
  market : ∀ c, f.column? "market" = some c → c.IsText
  region : ∀ c, f.column? "region" = some c → c.IsText
  date : ∀ c, f.column? f.dateName = some c → c.ReadsEach (f.date? mapped) readDate
  price : ∀ c, f.column? "price" = some c → c.ReadsEach CellValue.price? readPrice

end Frame

/-- What a row enters into a table, if it enters anything: its key and its price. -/
def enters (row : Option String × Option String × Option (Except Failure Int) × Option Float) :
    Option (Except Failure (PriceKey × Float)) :=
  match row with
  | (market, region, some period, some price) =>
    some (period.map fun p => (⟨market, region, p⟩, price))
  | _ => none

namespace Quote

variable (readDate : Value → Option (Except Failure Int)) (readPrice : Value → Option Float)

/-- A row whose cells are read each by itself. -/
def read (q : Quote) : Option String × Option String × Option (Except Failure Int) × Option Float :=
  (some q.market, some q.region, readDate q.date, readPrice q.price)

def enters (q : Quote) : Option (Except Failure (PriceKey × Float)) :=
  Macc.enters (q.read readDate readPrice)

end Quote

/-- A row whose numbers were read. -/
def PriceRow.read (row : PriceRow) :
    Option String × Option String × Option (Except Failure Int) × Option Float :=
  (row.market, row.region, row.period.period?, row.price.price?)

def PriceRow.enters (row : PriceRow) : Option (Except Failure (PriceKey × Float)) :=
  Macc.enters row.read

theorem PriceRow.enters_eq (row : PriceRow) :
    row.enters = if row.isComplete then some row.entry else none := by
  rw [enters, read, isComplete, CellValue.period?, CellValue.price?]
  cases row.period.isMissing with
  | true => rfl
  | false =>
      cases row.price.isMissing with
      | true => rfl
      | false =>
          simp only [entry]
          cases row.period.toInteger <;> rfl

namespace PriceTable

theorem outcome_ofPriceRows_eq (rows : List PriceRow) :
    (ofPriceRows rows).outcome = ((rows.filterMap PriceRow.enters).mapM id).map ofRows := by
  have hcomplete : rows.filterMap PriceRow.enters =
      (rows.filter PriceRow.isComplete).map PriceRow.entry := by
    rw [← List.filterMap_eq_map, List.filterMap_filter]
    exact List.filterMap_congr fun row _ => row.enters_eq
  have hentries : (rows.filter PriceRow.isComplete).mapM PriceRow.entry =
      (rows.filterMap PriceRow.enters).mapM id := by
    rw [hcomplete, List.mapM_map]
    rfl
  rw [ofPriceRows]
  dsimp only
  split
  all_goals
    simp only [Attempt.outcome_bind, Attempt.outcome_ofExcept, hentries]
    cases (rows.filterMap PriceRow.enters).mapM id <;> rfl

/-- Four columns in step. -/
def inStep (markets regions : List (Option String)) (dates : List (Option (Except Failure Int)))
    (prices : List (Option Float)) :
    List (Option String × Option String × Option (Except Failure Int) × Option Float) :=
  markets.zip (regions.zip (dates.zip prices))

theorem map_read_rowsOf (market region price : Column) (periods : List CellValue) :
    (rowsOf market region price periods).map PriceRow.read =
      inStep market.names region.names (periods.map CellValue.period?)
        (price.numbers.map CellValue.price?) := by
  rw [rowsOf, inStep, List.map_map, List.zip_map, List.zip_map_right, List.zip_map_right]
  rfl

/-- Leaving out the dates that are no periods, and what stands beside them, leaves out their
rows. -/
theorem inStep_marked (markets regions : List (Option String))
    (dates : List (Option (Except Failure Int))) (prices : List (Option Float)) :
    inStep (Column.marked (dates.map Option.isSome) markets)
        (Column.marked (dates.map Option.isSome) regions)
        (Column.marked (dates.map Option.isSome) dates)
        (Column.marked (dates.map Option.isSome) prices) =
      (inStep markets regions dates prices).filter fun row => row.2.2.1.isSome := by
  simp only [inStep, ← Column.marked_zip]
  induction dates generalizing markets regions prices with
  | nil => simp [Column.marked]
  | cons date rest ih =>
      cases markets with
      | nil => simp [Column.marked]
      | cons m markets =>
          cases regions with
          | nil => simp [Column.marked]
          | cons r regions =>
              cases prices with
              | nil => simp [Column.marked]
              | cons x prices =>
                  have hrest := ih markets regions prices
                  cases date with
                  | none => exact hrest
                  | some period => exact congrArg ((m, r, some period, x) :: ·) hrest

end PriceTable

namespace Frame

variable {f : Frame} {c : Column}

theorem cellsOf_eq {name : String} (h : f.column? name = some c) : f.cellsOf name = c.cells := by
  rw [cellsOf, h]
  rfl

theorem dateName_of_period (h : f.column? "period" = some c) : f.dateName = "period" := by
  rw [dateName, h]
  rfl

theorem dateName_of_year (h : f.column? "period" = none) : f.dateName = "year" := by
  rw [dateName, h]
  rfl

theorem date?_of_period (mapped : Option Horizon) (h : f.column? "period" = some c) :
    f.date? mapped = CellValue.period? := by
  funext v
  rw [date?.eq_def, h]

theorem date?_of_year (mapped : Horizon) (h : f.column? "period" = none) :
    f.date? (some mapped) = CellValue.periodIn? mapped := by
  funext v
  rw [date?.eq_def, h]

theorem map_read_quotes (f : Frame) (readDate : Value → Option (Except Failure Int))
    (readPrice : Value → Option Float) :
    f.quotes.map (Quote.read readDate readPrice) =
      PriceTable.inStep ((f.namesOf "market").map some) ((f.namesOf "region").map some)
        ((f.cellsOf f.dateName).map readDate) ((f.cellsOf "price").map readPrice) := by
  rw [quotes, PriceTable.inStep, List.map_map, List.zip_map, List.zip_map, List.zip_map]
  rfl

end Frame

/-! ## The table of a frame -/

namespace PriceTable

variable {f : Frame} {mapped : Option Horizon} {readDate : Value → Option (Except Failure Int)}
  {readPrice : Value → Option Float} {t : PriceTable Float} {h : Horizon}

theorem isSome_periodIn (v : CellValue) : (v.periodIn? h).isSome = isModelYear h v := by
  rw [CellValue.periodIn?]
  cases isModelYear h v <;> rfl

theorem map_isModelYear (years : List CellValue) :
    years.map (isModelYear h) = (years.map (CellValue.periodIn? h)).map Option.isSome := by
  rw [List.map_map]
  exact List.map_congr_left fun v _ => (isSome_periodIn v).symm

/-- The periods of the model years among some years are what these years are as periods. -/
theorem period_of_kept {years : List CellValue} {kept : List Int}
    (hkept : (Column.marked (years.map (isModelYear h)) years).mapM CellValue.toInteger =
      .ok kept) :
    (kept.map fun y => CellValue.int (h.periodOf y)).map CellValue.period? =
      Column.marked (years.map (isModelYear h)) (years.map (CellValue.periodIn? h)) := by
  have hmodel : ∀ v ∈ Column.marked (years.map (isModelYear h)) years, isModelYear h v = true :=
    fun v hv => Column.mem_marked_map hv
  rw [Column.marked_map]
  generalize Column.marked (years.map (isModelYear h)) years = known at hkept hmodel ⊢
  have hread := forall₂_of_mapM hkept
  clear hkept
  induction hread with
  | nil => rfl
  | cons hy _ ih =>
      rw [List.map_cons, List.map_cons, List.map_cons,
        ih fun v hv => hmodel v (List.mem_cons_of_mem _ hv), CellValue.periodIn?,
        if_pos (hmodel _ List.mem_cons_self), hy]
      rfl

section

variable {market region price date : Column} (hread : f.ReadsEach mapped readDate readPrice)
  (hmarket : f.column? "market" = some market) (hregion : f.column? "region" = some region)
  (hprice : f.column? "price" = some price)
include hread hmarket hregion hprice

theorem map_read_quotes_eq (hdate : f.column? f.dateName = some date) :
    f.quotes.map (Quote.read readDate readPrice) =
      inStep market.names region.names (date.numbers.map (f.date? mapped))
        (price.numbers.map CellValue.price?) := by
  rw [f.map_read_quotes, Frame.namesOf, Frame.namesOf, Frame.cellsOf_eq hmarket,
    Frame.cellsOf_eq hregion, Frame.cellsOf_eq hprice, Frame.cellsOf_eq hdate, List.map_map,
    List.map_map, Column.names_of_isText (hread.market market hmarket),
    Column.names_of_isText (hread.region region hregion), (hread.date date hdate).numbers_eq,
    (hread.price price hprice).numbers_eq]
  rfl

theorem map_read_of_period (hperiod : f.column? "period" = some date) :
    (rowsOf market region price date.numbers).map PriceRow.read =
      f.quotes.map (Quote.read readDate readPrice) := by
  have hdate : f.column? f.dateName = some date := by
    rw [Frame.dateName_of_period hperiod, hperiod]
  rw [map_read_rowsOf, map_read_quotes_eq hread hmarket hregion hprice hdate,
    Frame.date?_of_period mapped hperiod]

/-- Rows with years are those of the model years. -/
theorem map_read_of_year (hmapped : mapped = some h) (hperiod : f.column? "period" = none)
    (hyear : f.column? "year" = some date) {kept : List Int}
    (hkept : (Column.marked (date.numbers.map (isModelYear h)) date.numbers).mapM
      CellValue.toInteger = .ok kept) :
    (rowsOf (market.select (date.numbers.map (isModelYear h)))
        (region.select (date.numbers.map (isModelYear h)))
        (price.select (date.numbers.map (isModelYear h)))
        (kept.map fun y => .int (h.periodOf y))).map PriceRow.read =
      (f.quotes.map (Quote.read readDate readPrice)).filter fun row => row.2.2.1.isSome := by
  subst hmapped
  have hdate : f.column? f.dateName = some date := by
    rw [Frame.dateName_of_year hperiod, hyear]
  rw [map_read_rowsOf, map_read_quotes_eq hread hmarket hregion hprice hdate,
    Frame.date?_of_year h hperiod, period_of_kept hkept, Column.names_select,
    Column.names_select, hread.price price hprice,
    ← (hread.price price hprice).numbers_eq, map_isModelYear, inStep_marked]

theorem outcome_ofFrame_of_period (hperiod : f.column? "period" = some date) :
    (ofFrame f mapped).outcome =
      ((f.quotes.filterMap (Quote.enters readDate readPrice)).mapM id).map ofRows := by
  have hrows := map_read_of_period hread hmarket hregion hprice hperiod
  have henters := congrArg (List.filterMap Macc.enters) hrows
  rw [List.filterMap_map, List.filterMap_map] at henters
  rw [ofFrame_period mapped hmarket hregion hprice hperiod, outcome_ofPriceRows_eq]
  exact congrArg (fun entered => (List.mapM id entered).map ofRows) henters

theorem outcome_ofFrame_of_year (hmapped : mapped = some h) (hperiod : f.column? "period" = none)
    (hyear : f.column? "year" = some date) :
    (ofFrame f mapped).outcome =
      ((f.quotes.filterMap (Quote.enters readDate readPrice)).mapM id).map ofRows := by
  obtain ⟨kept, hkept, -⟩ := exists_periods h date.numbers
  simp only [← isModelYear_eq] at hkept
  have hrows := map_read_of_year hread hmarket hregion hprice hmapped hperiod hyear hkept
  have henters := congrArg (List.filterMap Macc.enters) hrows
  have hundated : (f.quotes.map (Quote.read readDate readPrice)).filterMap
      (fun row => if row.2.2.1.isSome then Macc.enters row else none) =
      (f.quotes.map (Quote.read readDate readPrice)).filterMap Macc.enters := by
    refine List.filterMap_congr fun row _ => ?_
    obtain ⟨market, region, _ | period, price⟩ := row <;> rfl
  rw [List.filterMap_filter, hundated, List.filterMap_map, List.filterMap_map] at henters
  subst hmapped
  rw [outcome_ofFrame_year hmarket hregion hprice hperiod hyear hkept, outcome_ofPriceRows_eq]
  exact congrArg (fun entered => (List.mapM id entered).map ofRows) henters

end

/-- A table is entered from what its rows enter, each by itself. -/
theorem exists_entries_of_ofFrame (hread : f.ReadsEach mapped readDate readPrice)
    (ht : (ofFrame f mapped).outcome = .ok t) :
    ∃ entries, (f.quotes.filterMap (Quote.enters readDate readPrice)).mapM id = .ok entries ∧
      t = ofRows entries := by
  have hquotes : (ofFrame f mapped).outcome =
      ((f.quotes.filterMap (Quote.enters readDate readPrice)).mapM id).map ofRows := by
    have hcolumns := ht
    rw [ofFrame] at hcolumns
    split at hcolumns
    · next market region price hmarket hregion hprice =>
        split at hcolumns
        · next date hperiod =>
            exact outcome_ofFrame_of_period hread hmarket hregion hprice hperiod
        · cases hcolumns
        · cases hcolumns
        · next date h hperiod hyear =>
            exact outcome_ofFrame_of_year hread hmarket hregion hprice rfl hperiod hyear
    · cases hcolumns
  rw [ht] at hquotes
  cases hentries : (f.quotes.filterMap (Quote.enters readDate readPrice)).mapM id with
  | error failure =>
      rw [hentries] at hquotes
      cases hquotes
  | ok entries =>
      rw [hentries] at hquotes
      exact ⟨entries, rfl, Except.ok.inj hquotes⟩

end PriceTable

end Macc
