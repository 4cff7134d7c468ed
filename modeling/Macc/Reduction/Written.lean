import Macc.Reduction.Report
import Macc.Table.CsvWriter

/-!
# Written reports

A report is written as a table file with one line for each row, below a line with
the names of its columns. A reduction that is no number is left empty.
-/

namespace Macc

def reportColumns : List String :=
  ["gas", "sector", "region", "period", "year", "reduction"]

def ReductionRow.cells (r : ReductionRow Float) : List String :=
  let reduction := if r.reduction.isNaN then "" else Decimal.floatText r.reduction
  [r.source.gas, r.source.sector, r.region, toString r.period, toString r.year, reduction]

def reportText (rows : List (ReductionRow Float)) : String :=
  Csv.writeRecord reportColumns ++ String.join (rows.map fun r => Csv.writeRecord r.cells)

end Macc
