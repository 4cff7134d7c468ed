import Macc.Horizon
import Macc.Price.Table
import Macc.Table.Frame

/-!
# Reading prices

Prices come as a table with a market, a region, a price and either a period or a
year in each row. Years need a horizon, and a row whose year is no model year is
dropped; so is, after that, a row whose period or price is no number. Both are
reported with the number of rows. A period loses what stands after its point.

Of rows with the same market, region and period the last one counts.
-/

namespace Macc

/-- A row of a price table before its numbers are looked at. -/
structure PriceRow where
  market : Option String
  region : Option String
  period : CellValue
  price : CellValue

namespace PriceRow

def isComplete (r : PriceRow) : Bool :=
  !r.period.isMissing && !r.price.isMissing

def entry (r : PriceRow) : Except Failure (PriceKey × Float) := do
  let period ← r.period.toInteger
  return (⟨r.market, r.region, period⟩, r.price.toReal)

end PriceRow

namespace PriceTable

def requiredColumns : List String := ["market", "region", "price"]

def rowsOf (market region price : Column) (periods : List CellValue) : List PriceRow :=
  (market.names.zip (region.names.zip (periods.zip price.numbers))).map
    fun (m, r, period, p) => ⟨m, r, period, p⟩

/-- The table of complete rows; incomplete ones are reported. -/
def ofPriceRows (rows : List PriceRow) : Attempt (PriceTable Float) := do
  let complete := rows.filter PriceRow.isComplete
  let dropped := rows.length - complete.length
  if dropped ≠ 0 then report (.droppedPrices dropped)
  let entries ← Attempt.ofExcept (complete.mapM PriceRow.entry)
  return ofRows entries

def isModelYear (h : Horizon) (year : CellValue) : Bool :=
  h.years.any year.equalsInt

def ofFrame (frame : Frame) (horizon : Option Horizon) : Attempt (PriceTable Float) := do
  match frame.column? "market", frame.column? "region", frame.column? "price" with
  | some market, some region, some price =>
    match frame.column? "period", frame.column? "year", horizon with
    | some period, _, _ => ofPriceRows (rowsOf market region price period.numbers)
    | none, none, _ => throw .noPeriodColumn
    | none, some _, none => throw .noHorizon
    | none, some year, some h =>
      let years := year.numbers
      let known := years.map (isModelYear h)
      let dropped := known.count false
      if dropped ≠ 0 then report (.droppedYears dropped)
      let kept ← Attempt.ofExcept ((Column.marked known years).mapM CellValue.toInteger)
      ofPriceRows (rowsOf (market.select known) (region.select known) (price.select known)
        (kept.map fun y => .int (h.periodOf y)))
  | _, _, _ => throw (.priceColumns (frame.missing requiredColumns))

/-- The price table of single prices; of prices with one key the last counts, in the place of the
first. -/
def ofPrices (prices : List ((String × String × Int) × Value)) : Attempt (PriceTable Float) := do
  let entries := Entries.ofAssignments prices
  let frame ← Attempt.ofExcept (Frame.ofColumns
    [("market", entries.map fun e => .text e.1.1), ("region", entries.map fun e => .text e.1.2.1),
      ("period", entries.map fun e => .int e.1.2.2), ("price", entries.map (·.2))])
  ofFrame frame none

def load (files : FileTree) (path : Path) (horizon : Option Horizon) :
    Attempt (PriceTable Float) := do
  let frame ← Attempt.ofExcept (Frame.load files path (.priceFileMissing path.text))
  ofFrame frame horizon

end PriceTable

end Macc
