import Macc.Proofs.PriceTables

/-!
# Prices that are given one by one

Prices given one by one become the columns of a table, and what the table says of
its rows is then said of what was given. Names and periods are in the columns as
they were. A price need not be: its column may have another value in the place of
a missing one, and a real in the place of an integer. Since a price is a double or
missing, that is not seen in the rows.

With that, both ways to a table of prices have one law, which comes last.
-/

namespace Macc

/-! ## Columns of given values -/

/-- Items that are changed without changing what is seen of them. -/
theorem map_of_mapM_some {α β γ : Type} {f : α → Option β} {g : β → α} {view : α → γ}
    {items : List α} {values : List β} (h : items.mapM f = some values)
    (hview : ∀ a b, f a = some b → view (g b) = view a) :
    (values.map g).map view = items.map view := by
  have hread := Column.forall₂_of_mapM_some h
  clear h
  induction hread with
  | nil => rfl
  | cons hb _ ih => exact congrArg₂ List.cons (hview _ _ hb) ih

namespace Column

theorem price?_of_isMissingValue {v : Value} (h : isMissingValue v = true) :
    v.cellNumber.price? = none := by
  have hmissing : CellValue.price? (.real (0 / 0)) = none := by decide +kernel
  cases v with
  | null => exact hmissing
  | float x => exact if_pos h
  | _ => cases h

theorem price?_of_textCell? {v : Value} {t : Option String} (h : textCell? v = some t) :
    ((t.map Value.text).getD .null).cellNumber.price? = v.cellNumber.price? := by
  have hother : ∀ w : Value, (if isMissingValue w then some none else none) = some t →
      ((t.map Value.text).getD .null).cellNumber.price? = w.cellNumber.price? := by
    intro w hw
    split at hw
    · next hmissing =>
        cases hw
        exact (price?_of_isMissingValue rfl).trans (price?_of_isMissingValue hmissing).symm
    · cases hw
  cases v with
  | text s =>
      cases h
      rfl
  | _ => exact hother _ h

/-- A column of given values has their prices, also where it has another value in the place of a
missing one or a real in the place of an integer. -/
theorem price?_cells_ofValues (vs : List Value) :
    (ofValues vs).cells.map (fun v => v.cellNumber.price?) =
      vs.map fun v => v.cellNumber.price? := by
  unfold ofValues
  split
  · rfl
  · split
    · next bs _ _ hbs =>
        refine map_of_mapM_some hbs fun v b hb => ?_
        cases v <;> cases hb
        rfl
    · next ns _ hns _ =>
        unfold ofInts?
        split
        · refine map_of_mapM_some hns fun v n hn => ?_
          cases v <;> cases hn
          rfl
        · rfl
    · next xs hxs _ _ =>
        refine map_of_mapM_some hxs fun v x hx => ?_
        cases v <;> cases hx
        · rfl
        · exact (CellValue.price?_int _).symm
        · rfl
    · cases hts : vs.mapM textCell? with
      | none => rfl
      | some ts => exact map_of_mapM_some hts fun v t ht => price?_of_textCell? ht

theorem cells_ofValues_ints {α : Type} (items : List α) (number : α → Int) :
    (ofValues (items.map fun a => .int (number a))).cells = items.map fun a => .int (number a) := by
  cases items with
  | nil => rfl
  | cons a rest =>
      have hints : ((a :: rest).map fun a => Value.int (number a)).mapM intCell? =
          some ((a :: rest).map number) := by
        rw [List.mapM_map]
        exact List.mapM_pure ..
      have hflags : ((a :: rest).map fun a => Value.int (number a)).mapM flagCell? = none := rfl
      unfold ofValues
      rw [hflags, hints]
      unfold ofInts?
      split
      · rfl
      · dsimp only
        split
        · exact List.map_map
        · rfl

theorem cells_ofValues_texts {α : Type} (items : List α) (name : α → String) :
    (ofValues (items.map fun a => .text (name a))).cells = items.map fun a => .text (name a) := by
  cases items with
  | nil => rfl
  | cons a rest =>
      have htexts : ((a :: rest).map fun a => Value.text (name a)).mapM textCell? =
          some ((a :: rest).map fun a => some (name a)) := by
        rw [List.mapM_map]
        exact List.mapM_pure ..
      have hflags : ((a :: rest).map fun a => Value.text (name a)).mapM flagCell? = none := rfl
      have hints : ((a :: rest).map fun a => Value.text (name a)).mapM intCell? = none := rfl
      have hreals : ((a :: rest).map fun a => Value.text (name a)).mapM realCell? = none := rfl
      unfold ofValues
      rw [hflags, hints, hreals, htexts]
      split
      · rfl
      · exact List.map_map

theorem length_cells_ofValues (vs : List Value) : (ofValues vs).cells.length = vs.length := by
  simpa using congrArg List.length (price?_cells_ofValues vs)

end Column

/-! ## Prices that are given one by one -/

namespace PriceTable

/-- The rows of prices that are given one by one. -/
def quotesOf (prices : List ((String × String × Int) × Value)) : List Quote :=
  (Entries.ofAssignments prices).map fun e => ⟨e.1.1, e.1.2.1, .int e.1.2.2, e.2⟩

/-- The columns of prices that are given one by one. -/
def frameOf (entries : Entries (String × String × Int) Value) : Frame where
  columns := [("market", .ofValues (entries.map fun e => .text e.1.1)),
    ("region", .ofValues (entries.map fun e => .text e.1.2.1)),
    ("period", .ofValues (entries.map fun e => .int e.1.2.2)),
    ("price", .ofValues (entries.map (·.2)))]

theorem ofPrices_eq (prices : List ((String × String × Int) × Value)) :
    ofPrices prices = ofFrame (frameOf (Entries.ofAssignments prices)) none := by
  rw [ofPrices, Frame.ofColumns, if_pos (by simp)]
  rfl

section

variable {entries : Entries (String × String × Int) Value}

theorem isText_frameOf (name : String × String × Int → String) :
    (Column.ofValues (entries.map fun e => .text (name e.1))).IsText := by
  intro v hv
  rw [Column.cells_ofValues_texts] at hv
  obtain ⟨e, -, rfl⟩ := List.mem_map.1 hv
  exact ⟨_, rfl⟩

theorem isPriceTable_frameOf
    (hperiods : (Column.ofValues (entries.map fun e => .int e.1.2.2)).ReadsCells CellValue.period?)
    (hprices : (Column.ofValues (entries.map (·.2))).ReadsCells CellValue.price?) :
    (frameOf entries).IsPriceTable none where
  market := ⟨_, rfl, isText_frameOf (·.1)⟩
  region := ⟨_, rfl, isText_frameOf (·.2.1)⟩
  price := ⟨_, rfl, hprices⟩
  date := by
    refine .inl ⟨_, rfl, hperiods, fun v hv => ?_⟩
    rw [Column.cells_ofValues_ints] at hv
    obtain ⟨e, -, rfl⟩ := List.mem_map.1 hv
    exact .inr ⟨_, rfl⟩
  height := by
    refine ⟨entries.length, fun c hc => ?_⟩
    rw [frameOf] at hc
    simp only [List.mem_cons, List.not_mem_nil, or_false] at hc
    rcases hc with rfl | rfl | rfl | rfl <;>
      rw [← Column.length_cells, Column.length_cells_ofValues, List.length_map]

/-- The rows of the columns are read like those that were given. -/
theorem map_read_frameOf (readDate : Value → Option (Except Failure Int))
    (htrim : ∀ e ∈ entries, Text.trim e.1.1 = e.1.1 ∧ Text.trim e.1.2.1 = e.1.2.1) :
    (frameOf entries).quotes.map (Quote.read readDate fun v => v.cellNumber.price?) =
      (entries.map fun e => (⟨e.1.1, e.1.2.1, .int e.1.2.2, e.2⟩ : Quote)).map
        (Quote.read readDate fun v => v.cellNumber.price?) := by
  have hmarkets : (frameOf entries).namesOf "market" = entries.map fun e => e.1.1 := by
    rw [Frame.namesOf, Frame.cellsOf_eq rfl, Column.cells_ofValues_texts, List.map_map]
    exact List.map_congr_left fun e he => (htrim e he).1
  have hregions : (frameOf entries).namesOf "region" = entries.map fun e => e.1.2.1 := by
    rw [Frame.namesOf, Frame.cellsOf_eq rfl, Column.cells_ofValues_texts, List.map_map]
    exact List.map_congr_left fun e he => (htrim e he).2
  have hdates : (frameOf entries).cellsOf (frameOf entries).dateName =
      entries.map fun e => .int e.1.2.2 := Column.cells_ofValues_ints _ _
  have hprices : ((frameOf entries).cellsOf "price").map (fun v => v.cellNumber.price?) =
      entries.map fun e => e.2.cellNumber.price? := by
    rw [Frame.cellsOf_eq rfl, Column.price?_cells_ofValues, List.map_map]
    rfl
  rw [Frame.map_read_quotes, hmarkets, hregions, hdates, hprices, inStep, List.map_map,
    List.map_map, List.map_map, List.zip_map', List.zip_map', List.zip_map', List.map_map]
  rfl

end

/-- Prices that are given one by one, with names that have no blanks around them, where the numbers
of a column are those of its cells by themselves. -/
structure IsPriceMapping (prices : List ((String × String × Int) × Value)) : Prop where
  unpadded : ∀ q ∈ quotesOf prices, Text.trim q.market = q.market ∧ Text.trim q.region = q.region
  period : (Column.ofValues ((quotesOf prices).map (·.date))).ReadsCells CellValue.period?
  price : (Column.ofValues ((quotesOf prices).map (·.price))).ReadsCells CellValue.price?

section

variable {prices : List ((String × String × Int) × Value)}

theorem IsPriceMapping.isPriceTable (h : IsPriceMapping prices) :
    (frameOf (Entries.ofAssignments prices)).IsPriceTable none := by
  have hperiod := h.period
  have hprice := h.price
  rw [quotesOf, List.map_map] at hperiod hprice
  exact isPriceTable_frameOf hperiod hprice

theorem IsPriceMapping.map_read (h : IsPriceMapping prices)
    (readDate : Value → Option (Except Failure Int)) :
    (frameOf (Entries.ofAssignments prices)).quotes.map
        (Quote.read readDate fun v => v.cellNumber.price?) =
      (quotesOf prices).map (Quote.read readDate fun v => v.cellNumber.price?) := by
  have hnames : ∀ e ∈ Entries.ofAssignments prices,
      Text.trim e.1.1 = e.1.1 ∧ Text.trim e.1.2.1 = e.1.2.1 := by
    intro e he
    exact h.unpadded ⟨e.1.1, e.1.2.1, .int e.1.2.2, e.2⟩ (List.mem_map.2 ⟨e, he, rfl⟩)
  rw [map_read_frameOf readDate hnames, quotesOf]

theorem periodOf?_frameOf (entries : Entries (String × String × Int) Value) :
    (frameOf entries).periodOf? none = fun v => v.cellNumber.whole? := by
  funext v
  rfl

theorem IsPriceMapping.outcome_ofPrices (h : IsPriceMapping prices) :
    (ofPrices prices).outcome =
      .ok (.ofRows ((quotesOf prices).filterMap
        (Quote.entered? fun v => v.cellNumber.whole?))) := by
  have hentered := congrArg (List.filterMap enters)
    (h.map_read fun v => v.cellNumber.whole?.map Except.ok)
  rw [List.filterMap_map, List.filterMap_map] at hentered
  have hread : ∀ quotes : List Quote, quotes.filterMap
      (Quote.enters (fun v => v.cellNumber.whole?.map Except.ok) fun v => v.cellNumber.price?) =
      (quotes.filterMap (Quote.entered? fun v => v.cellNumber.whole?)).map Except.ok :=
    fun _ => Quote.filterMap_enters _ fun _ _ => rfl
  have hsame := List.map_injective_iff.2 (fun _ _ => Except.ok.inj)
    ((hread _).symm.trans (hentered.trans (hread _)))
  rw [ofPrices_eq, h.isPriceTable.outcome_ofFrame, periodOf?_frameOf, hsame]

theorem IsPriceMapping.log_ofPrices (h : IsPriceMapping prices) :
    (ofPrices prices).log =
      Notice.counted .droppedPrices ((quotesOf prices).countP fun q => q.priceNumber.isNone) := by
  have hcount := congrArg (List.countP fun row => row.2.2.1.isNone || row.2.2.2.isNone)
    (h.map_read fun v => v.cellNumber.whole?.map Except.ok)
  rw [List.countP_map, List.countP_map] at hcount
  have hinvalid : (frameOf (Entries.ofAssignments prices)).quotes.countP
      ((frameOf (Entries.ofAssignments prices)).isInvalid none) =
      (quotesOf prices).countP fun q => q.priceNumber.isNone := by
    refine Eq.trans (List.countP_congr fun q _ => ?_)
      (hcount.trans (List.countP_congr fun q hq => ?_))
    · rw [Frame.isInvalid, Frame.isOutside_of_period rfl, periodOf?_frameOf, Function.comp_apply,
        Quote.read, Option.isNone_map]
      rfl
    · obtain ⟨e, -, rfl⟩ := List.mem_map.1 hq
      rfl
  rw [ofPrices_eq, h.isPriceTable.log_ofFrame, Frame.countP_isOutside_of_period rfl, hinvalid]
  rfl

end

/-- A table of prices answers with the price of the last row that has a number as its price, for
each market, region and period, and reports how many rows it leaves out; so does a table of prices
that are given one by one. -/
theorem ofFrame_answers_last_row :
    (∀ (f : Frame) (mapped : Option Horizon), f.IsPriceTable mapped →
      (∃ t, (ofFrame f mapped).outcome = .ok t ∧ HoldsQuotes f.quotes (f.periodOf? mapped) t) ∧
      (ofFrame f mapped).log =
        Notice.counted .droppedYears (f.quotes.countP (f.isOutside mapped)) ++
          Notice.counted .droppedPrices (f.quotes.countP (f.isInvalid mapped))) ∧
    ∀ prices, IsPriceMapping prices →
      (∃ t, (ofPrices prices).outcome = .ok t ∧
        HoldsQuotes (quotesOf prices) (fun v => v.cellNumber.whole?) t) ∧
      (ofPrices prices).log =
        Notice.counted .droppedPrices ((quotesOf prices).countP fun q => q.priceNumber.isNone) := by
  constructor
  · intro f mapped hf
    exact ⟨⟨_, hf.outcome_ofFrame, holdsQuotes_ofRows _ _⟩, hf.log_ofFrame⟩
  · intro prices h
    exact ⟨⟨_, h.outcome_ofPrices, holdsQuotes_ofRows _ _⟩, h.log_ofPrices⟩

/-! Prices by year, of which one is replaced by a later one, one is for a year between two model
years and one is no number; and prices by period, of which one is given twice. -/

def yearlyPrices : Frame where
  columns := [("market", .texts (["CO2", "CO2", " natural gas ", " CO2", "CO2"].map some)),
    ("region", .texts (["USA", "USA", "USA", "USA", "EU"].map some)),
    ("year", .ints [2010, 2007, 2005, 2010, 2010]),
    ("price", .values [.float 15, .float 11, .float 4.2, .text "45", .text "n/a"])]

theorem isPriceTable_yearlyPrices : yearlyPrices.IsPriceTable (some twoYears) where
  market := ⟨_, rfl, Column.isText_texts _⟩
  region := ⟨_, rfl, Column.isText_texts _⟩
  price := by
    refine ⟨_, rfl, Column.readsCells_values fun v hv n hn => ?_⟩
    simp only [List.mem_cons, List.not_mem_nil, or_false] at hv
    rcases hv with rfl | rfl | rfl | rfl | rfl <;> cases hn
    decide +kernel
  date := .inr ⟨rfl, _, _, rfl, rfl, Column.readsEach_ints (fun _ => rfl) _⟩
  height := ⟨5, by decide⟩

def singlePrices : List ((String × String × Int) × Value) :=
  [(("CO2", "USA", 1), .int 10), (("CO2", "EU", 0), .text "n/a"), (("CO2", "USA", 1), .float 12.5)]

theorem isPriceMapping_singlePrices : IsPriceMapping singlePrices where
  unpadded := by decide +kernel
  period := Column.readsEach_ints (fun _ => rfl) [1, 0]
  price := by
    change (Column.values [.float 12.5, .text "n/a"]).ReadsCells CellValue.price?
    refine Column.readsCells_values fun v hv n hn => ?_
    simp only [List.mem_cons, List.not_mem_nil, or_false] at hv
    rcases hv with rfl | rfl <;> cases hn

theorem ofFrame_answers_last_row_yearly :
    (∃ t, (ofFrame yearlyPrices (some twoYears)).outcome = .ok t ∧
      t.price? "natural gas" "USA" 0 = some 4.2 ∧ t.price? "CO2" "USA" 1 = some 45 ∧
      t.price? "CO2" "EU" 1 = none ∧ t.size = 2) ∧
    (ofFrame yearlyPrices (some twoYears)).log = [.droppedYears 1, .droppedPrices 1] ∧
    (∃ t, (ofPrices singlePrices).outcome = .ok t ∧ t.price? "CO2" "USA" 1 = some 12.5) ∧
    (ofPrices singlePrices).log = [.droppedPrices 1] := by
  obtain ⟨hframes, hmappings⟩ := ofFrame_answers_last_row
  obtain ⟨⟨t, ht, hyearly⟩, hlog⟩ := hframes _ _ isPriceTable_yearlyPrices
  obtain ⟨⟨u, hu, hsingle⟩, hsingleLog⟩ := hmappings _ isPriceMapping_singlePrices
  refine ⟨⟨t, ht, ?_, ?_, ?_, ?_⟩, ?_, ⟨u, hu, ?_⟩, ?_⟩
  · rw [hyearly.price]
    decide +kernel
  · rw [hyearly.price]
    decide +kernel
  · rw [hyearly.price]
    decide +kernel
  · rw [hyearly.size]
    decide +kernel
  · have houtside : yearlyPrices.quotes.countP (yearlyPrices.isOutside (some twoYears)) = 1 := by
      decide +kernel
    have hinvalid : yearlyPrices.quotes.countP (yearlyPrices.isInvalid (some twoYears)) = 1 := by
      decide +kernel
    rw [hlog, houtside, hinvalid]
    rfl
  · rw [hsingle.price]
    decide +kernel
  · have hinvalid : (quotesOf singlePrices).countP (fun q => q.priceNumber.isNone) = 1 := by
      decide +kernel
    rw [hsingleLog, hinvalid]
    rfl

end PriceTable

end Macc
