import Macc.Proofs.Quotes

/-!
# Rows that are dropped and rows that are entered

A row with a price and a period is entered, every other one is dropped and
counted. A period is meant to be an integer. What is looked at is less: whether it
is a number at all. So an infinite one gets as far as the conversion to an
integer, which ends the reading, and one with a fraction is entered under the
integer in front of it, where it takes the place of a price that belongs there.

Both are settled row by row, and only rows with a price matter. The number of
dropped rows is what shows that the conditions are exact: a row that should have
been dropped and was not is missing from the count, whatever the prices are.
-/

namespace Macc

namespace Notice

/-- The report of what happened a number of times, if it did. -/
def counted (notice : Nat → Notice) (n : Nat) : List Notice :=
  if n = 0 then [] else [notice n]

theorem counted_inj {notice : Nat → Notice} (hnotice : ∀ n m, notice n = notice m → n = m)
    {n m : Nat} (h : counted notice n = counted notice m) : n = m := by
  rw [counted, counted] at h
  split at h
  · next hn =>
      split at h
      · next hm => rw [hn, hm]
      · cases h
  · split at h
    · cases h
    · exact hnotice n m (List.cons.inj h).1

end Notice

/-- Of two properties that hold equally often, one implied by the other, neither holds alone. -/
theorem imp_of_countP_eq {α : Type} {p q : α → Bool} {items : List α}
    (himp : ∀ a ∈ items, p a = true → q a = true) (hcount : items.countP p = items.countP q) :
    ∀ a ∈ items, q a = true → p a = true := by
  induction items with
  | nil => exact fun a ha => absurd ha List.not_mem_nil
  | cons first rest ih =>
      obtain ⟨hfirst, hrest⟩ := List.forall_mem_cons.1 himp
      have hle : rest.countP p ≤ rest.countP q := List.countP_mono_left hrest
      rw [List.countP_cons, List.countP_cons] at hcount
      cases hp : p first with
      | true =>
          rw [hp, hfirst hp] at hcount
          exact List.forall_mem_cons.2 ⟨fun _ => hp, ih hrest (Nat.add_right_cancel hcount)⟩
      | false =>
          rw [hp] at hcount
          cases hq : q first with
          | true =>
              rw [hq] at hcount
              simp at hcount
              omega
          | false =>
              rw [hq] at hcount
              refine List.forall_mem_cons.2 ⟨fun h => ?_, ih hrest (Nat.add_right_cancel hcount)⟩
              rw [hq] at h
              cases h

namespace CellValue

def isInfinite : CellValue → Bool
  | .int _ => false
  | .real x => x.isInf

theorem isInfinite_of_isMissing {v : CellValue} (h : v.isMissing = true) :
    v.isInfinite = false := by
  cases v with
  | int n => rfl
  | real x =>
      rw [isInfinite, ← Bool.not_eq_true, isInf_iff, isNaN_iff.1 h]
      rintro ⟨s, hs⟩
      cases hs

/-- A number has an integer part unless it is missing or infinite. -/
theorem exists_toInteger_iff (v : CellValue) :
    (∃ n, v.toInteger = .ok n) ↔ v.isMissing = false ∧ v.isInfinite = false := by
  cases v with
  | int n => exact iff_of_true ⟨n, rfl⟩ ⟨rfl, rfl⟩
  | real x =>
      have hkind : x.isNaN = false ∧ x.isInf = false ↔
          ¬Binary64.ofFloat x = .nan ∧ ¬∃ s, Binary64.ofFloat x = .infinite s := by
        rw [← isNaN_iff, ← isInf_iff, Bool.not_eq_true, Bool.not_eq_true]
      rw [toInteger, truncateFloat, isMissing, isInfinite, hkind]
      cases Binary64.ofFloat x with
      | nan => simp [Binary64.truncate?]
      | infinite negative => simp [Binary64.truncate?]
      | finite negative m e => cases negative <;> simp [Binary64.truncate?]

theorem toInteger_of_whole {v : CellValue} {n : Int} (h : v.whole? = some n) :
    v.isMissing = false ∧ v.toInteger = .ok n := by
  have hgives := PriceTable.gives_whole (.inr ⟨n, h⟩)
  rw [h] at hgives
  rcases hgives with ⟨hnone, -⟩ | ⟨p, hp, hpresent, hread⟩
  · cases hnone
  · cases hp
    exact ⟨hpresent, hread⟩

end CellValue

namespace PriceTable

/-! ## The rows of a table -/

theorem log_ofPriceRows (rows : List PriceRow) :
    (ofPriceRows rows).log =
      Notice.counted .droppedPrices (rows.countP fun row => !row.isComplete) := by
  have hentered : ∀ read : Except Failure (List (PriceKey × Float)),
      (Attempt.ofExcept read >>= fun entries => pure (ofRows entries)).log = [] := by
    intro read
    cases read <;> rfl
  have hdropped : rows.length - (rows.filter PriceRow.isComplete).length =
      rows.countP fun row => !row.isComplete := by
    have hlength := List.length_eq_countP_add_countP PriceRow.isComplete (l := rows)
    simp only [Bool.not_eq_true, Bool.decide_eq_false] at hlength
    rw [← List.countP_eq_length_filter]
    omega
  rw [ofPriceRows, hdropped, Notice.counted]
  dsimp only
  by_cases hnone : (rows.countP fun row => !row.isComplete) = 0
  · rw [if_neg (not_not.2 hnone), if_pos hnone]
    exact hentered _
  · rw [if_pos hnone, if_neg hnone, Attempt.log_bind rfl, hentered]
    rfl

/-- Where a table is made, every row with a price and a period has been entered. -/
theorem exists_entry_of_ofPriceRows {rows : List PriceRow} {t : PriceTable Float}
    (ht : (ofPriceRows rows).outcome = .ok t) {row : PriceRow} (hrow : row ∈ rows)
    (hcomplete : row.isComplete = true) : ∃ n, row.period.toInteger = .ok n := by
  rw [outcome_ofPriceRows_eq] at ht
  have henters : row.enters = some row.entry := by rw [PriceRow.enters_eq, if_pos hcomplete]
  cases hentries : (rows.filterMap PriceRow.enters).mapM id with
  | error failure =>
      rw [hentries] at ht
      cases ht
  | ok entries =>
      have hmem : row.entry ∈ rows.filterMap PriceRow.enters :=
        List.mem_filterMap.2 ⟨row, hrow, henters⟩
      obtain ⟨e, -, he⟩ := Column.exists_mem_of_forall₂ (forall₂_of_mapM hentries).flip hmem
      obtain ⟨n, hn, -⟩ := bind_eq_ok_iff.1 (show row.entry = .ok e from he)
      exact ⟨n, hn⟩

theorem ofPriceRows_returns_iff (rows : List PriceRow) :
    (∃ t, (ofPriceRows rows).outcome = .ok t) ↔
      ∀ row ∈ rows, row.price.isMissing = false → row.period.isInfinite = false := by
  constructor
  · rintro ⟨t, ht⟩ row hrow hprice
    cases hperiod : row.period.isMissing with
    | true => exact CellValue.isInfinite_of_isMissing hperiod
    | false =>
        have hcomplete : row.isComplete = true := by
          rw [PriceRow.isComplete, hperiod, hprice]
          rfl
        exact ((CellValue.exists_toInteger_iff _).1
          (exists_entry_of_ofPriceRows ht hrow hcomplete)).2
  · intro hfinite
    refine ⟨_, outcome_ofPriceRows fun row hrow hcomplete => ?_⟩
    rw [PriceRow.isComplete, Bool.and_eq_true, Bool.not_eq_true', Bool.not_eq_true'] at hcomplete
    exact (CellValue.exists_toInteger_iff _).2 ⟨hcomplete.1, hfinite row hrow hcomplete.2⟩

/-! ## Rows by period -/

end PriceTable

namespace PriceRow

/-- Whether a row has a price of a market in a region and exactly this period. -/
def sets (row : PriceRow) (market region : String) (period : Int) : Bool :=
  row.market == some market && row.region == some region && row.period.whole? == some period &&
    !row.price.isMissing

/-- Whether a row has no integer as its period or no number as its price. -/
def isDropped (row : PriceRow) : Bool :=
  row.period.whole?.isNone || row.price.isMissing

theorem isDropped_of_not_isComplete {row : PriceRow} (h : (!row.isComplete) = true) :
    row.isDropped = true := by
  rw [isDropped, Bool.or_eq_true, Option.isNone_iff_eq_none]
  by_contra hkept
  obtain ⟨hperiod, hprice⟩ := not_or.1 hkept
  obtain ⟨n, hn⟩ := Option.ne_none_iff_exists'.1 hperiod
  rw [isComplete, (CellValue.toInteger_of_whole hn).1, Bool.eq_false_iff.2 hprice] at h
  cases h

theorem isDropped_eq {row : PriceRow}
    (h : row.price.isMissing = false → PriceTable.IsPeriod row.period) :
    row.isDropped = !row.isComplete := by
  rw [isDropped, isComplete]
  cases hprice : row.price.isMissing with
  | true => simp
  | false =>
      rcases h hprice with hmissing | ⟨p, hp⟩
      · rw [hmissing]
        rcases PriceTable.gives_whole (.inl hmissing) with ⟨hnone, -⟩ | ⟨p, -, hpresent, -⟩
        · rw [hnone]
          rfl
        · rw [hmissing] at hpresent
          cases hpresent
      · rw [(CellValue.toInteger_of_whole hp).1, hp]
        rfl

theorem sets_eq {row : PriceRow}
    (h : row.price.isMissing = false → PriceTable.IsPeriod row.period) (m r : String) (p : Int) :
    row.sets m r p = (row.isComplete && row.key == ⟨some m, some r, p⟩) := by
  have hdropped := isDropped_eq h
  rw [isDropped] at hdropped
  rw [sets]
  cases hperiod : row.period.whole? with
  | none =>
      rw [hperiod, Option.isNone_none, Bool.true_or] at hdropped
      have hincomplete : row.isComplete = false := by simpa using hdropped.symm
      rw [hincomplete, Bool.false_and]
      simp
  | some q =>
      rw [hperiod, Option.isNone_some, Bool.false_or] at hdropped
      rw [hdropped, key, (CellValue.toInteger_of_whole hperiod).2, Bool.not_not, Bool.eq_iff_iff]
      simp only [Bool.and_eq_true, beq_iff_eq, PriceKey.mk.injEq, Option.some.injEq]
      tauto

end PriceRow

namespace PriceTable

/-- A table of the rows that have an integer as their period and a number as their price, of which
the last one counts, with a report of how many others there are. -/
def KeptByPeriod (rows : List PriceRow) (made : Attempt (PriceTable Float)) : Prop :=
  (∃ t, made.outcome = .ok t ∧ ∀ m r p, t.price? m r p =
    ((rows.filter fun row => row.sets m r p).getLast?).map fun row => row.price.toReal) ∧
    made.log = Notice.counted .droppedPrices (rows.countP PriceRow.isDropped)

theorem keptByPeriod_iff (rows : List PriceRow) :
    KeptByPeriod rows (ofPriceRows rows) ↔
      ∀ row ∈ rows, row.price.isMissing = false → IsPeriod row.period := by
  constructor
  · rintro ⟨⟨t, ht, -⟩, hlog⟩ row hrow hprice
    rw [log_ofPriceRows] at hlog
    have hcount := Notice.counted_inj (fun n m h => Notice.droppedPrices.inj h) hlog
    have hdropped := imp_of_countP_eq (fun row _ => PriceRow.isDropped_of_not_isComplete) hcount
    by_contra hperiod
    obtain ⟨hpresent, hfraction⟩ := not_or.1 hperiod
    have hnone : row.period.whole? = none :=
      Option.eq_none_iff_forall_ne_some.2 fun p hp => hfraction ⟨p, hp⟩
    have hincomplete := hdropped row hrow (by rw [PriceRow.isDropped, hnone]; rfl)
    rw [PriceRow.isComplete, Bool.eq_false_iff.2 hpresent, hprice] at hincomplete
    cases hincomplete
  · intro hperiods
    refine ⟨⟨_, outcome_ofPriceRows fun row hrow hcomplete => ?_, fun m r p => ?_⟩, ?_⟩
    · rw [PriceRow.isComplete, Bool.and_eq_true, Bool.not_eq_true', Bool.not_eq_true'] at hcomplete
      rcases hperiods row hrow hcomplete.2 with hmissing | ⟨p, hp⟩
      · rw [hcomplete.1] at hmissing
        cases hmissing
      · exact ⟨p, (CellValue.toInteger_of_whole hp).2⟩
    · rw [price?_ofRows_map, List.filter_filter, List.getLast?_map]
      congr 2
      refine List.filter_congr fun row hrow => ?_
      rw [PriceRow.sets_eq (hperiods row hrow), Bool.and_comm]
    · rw [log_ofPriceRows]
      congr 1
      refine List.countP_congr fun row hrow => ?_
      rw [PriceRow.isDropped_eq (hperiods row hrow)]

/-- A table with periods is made exactly when no row with a price has an infinite one, and it keeps
its rows by period exactly when the period of each row with a price is an integer or no number. -/
theorem ofFrame_keeps_periods_iff {f : Frame} {market region price period : Column}
    (mapped : Option Horizon) (hmarket : f.column? "market" = some market)
    (hregion : f.column? "region" = some region) (hprice : f.column? "price" = some price)
    (hperiod : f.column? "period" = some period) :
    ((∃ t, (ofFrame f mapped).outcome = .ok t) ↔
      ∀ row ∈ rowsOf market region price period.numbers,
        row.price.isMissing = false → row.period.isInfinite = false) ∧
    (KeptByPeriod (rowsOf market region price period.numbers) (ofFrame f mapped) ↔
      ∀ row ∈ rowsOf market region price period.numbers,
        row.price.isMissing = false → IsPeriod row.period) := by
  rw [ofFrame_period mapped hmarket hregion hprice hperiod]
  exact ⟨ofPriceRows_returns_iff _, keptByPeriod_iff _⟩

theorem isPeriod_iff {v : CellValue} : IsPeriod v ↔ (v.isMissing || v.whole?.isSome) = true := by
  rw [IsPeriod, Bool.or_eq_true, Option.isSome_iff_exists]

/-! Periods written in words and numerals, one of which stands beside a price that is none. -/

def writtenPeriods : Frame where
  columns := [("market", .texts (["CO2", " CO2", "CO2", "CO2", "CO2"].map some)),
    ("region", .texts (["USA", "USA", "USA", "USA", "USA"].map some)),
    ("period", .texts (["1", "soon", "1.0", "-3", "inf"].map some)),
    ("price", .values [.int 50, .int 60, .float 75, .text "4.5", .text "n/a"])]

theorem ofFrame_keeps_periods_written :
    ∃ market region price period, writtenPeriods.column? "market" = some market ∧
      writtenPeriods.column? "region" = some region ∧
      writtenPeriods.column? "price" = some price ∧
      writtenPeriods.column? "period" = some period ∧
      KeptByPeriod (rowsOf market region price period.numbers) (ofFrame writtenPeriods none) ∧
      ∃ t, (ofFrame writtenPeriods none).outcome = .ok t ∧ t.price? "CO2" "USA" 1 = some 75 := by
  refine ⟨_, _, _, _, rfl, rfl, rfl, rfl, ?_⟩
  have hkept := (ofFrame_keeps_periods_iff (f := writtenPeriods) none rfl rfl rfl rfl).2.2 (by
    simp only [isPeriod_iff]
    decide +kernel)
  refine ⟨hkept, ?_⟩
  obtain ⟨⟨t, ht, hprices⟩, -⟩ := hkept
  refine ⟨t, ht, ?_⟩
  rw [hprices]
  decide +kernel

/-! A price of a period and a half, and one of an infinite period. -/

def twoCells (s : String) : Column := .texts [some s, some s]

def twoPrices (periods : List Float) : Frame where
  columns := [("market", twoCells "CO2"), ("region", twoCells "USA"), ("period", .reals periods),
    ("price", .reals [50, 75])]

def twoRows (periods : List Float) : List PriceRow :=
  rowsOf (twoCells "CO2") (twoCells "USA") (.reals [50, 75]) (Column.reals periods).numbers

/-- A period and a half takes the place of the period before it without a report, and an infinite
period ends the reading. -/
theorem not_keptByPeriod_halfPeriod :
    (∃ t, (ofFrame (twoPrices [1, 1.5]) none).outcome = .ok t ∧
      t.price? "CO2" "USA" 1 = some 75) ∧
    ((twoRows [1, 1.5]).filter fun row => row.sets "CO2" "USA" 1).map (·.price.toReal) = [50] ∧
    ¬KeptByPeriod (twoRows [1, 1.5]) (ofFrame (twoPrices [1, 1.5]) none) ∧
    (∃ failure, (ofFrame (twoPrices [1, 1 / 0]) none).outcome = .error failure ∧
      failure.kind = .overflow) ∧
    ¬KeptByPeriod (twoRows [1, 1 / 0]) (ofFrame (twoPrices [1, 1 / 0]) none) := by
  have hhalf : (ofFrame (twoPrices [1, 1.5]) none).outcome =
      .ok ⟨[(⟨some "CO2", some "USA", 1⟩, 75)]⟩ := by
    rw [← toOption_eq_some_iff]
    decide +kernel
  have hinfinite : ∃ failure, (ofFrame (twoPrices [1, 1 / 0]) none).outcome = .error failure ∧
      failure.kind = .overflow := by
    have hkind : (match (ofFrame (twoPrices [1, 1 / 0]) none).outcome with
        | .ok _ => none
        | .error failure => some failure.kind) = some .overflow := by decide +kernel
    split at hkind
    · cases hkind
    · next failure hfailure => exact ⟨failure, hfailure, Option.some.inj hkind⟩
  refine ⟨⟨_, hhalf, by decide +kernel⟩, by decide +kernel, ?_, hinfinite, ?_⟩
  · rintro ⟨-, hlog⟩
    have hsilent : (ofFrame (twoPrices [1, 1.5]) none).log.length = 0 := by decide +kernel
    have hdropped : (twoRows [1, 1.5]).countP PriceRow.isDropped = 1 := by decide +kernel
    rw [hlog, hdropped] at hsilent
    cases hsilent
  · rintro ⟨⟨t, ht, -⟩, -⟩
    obtain ⟨failure, hfailure, -⟩ := hinfinite
    rw [ht] at hfailure
    cases hfailure

end PriceTable

end Macc
