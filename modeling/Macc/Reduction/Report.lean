import Macc.Entries
import Macc.Reduction.Strategy

/-!
# Tables of reductions

A report evaluates every curve of a catalogue for every region and period: curves
in catalogue order, below them regions, below them periods. Each row depends on
its own curve, region and period and on the economy, and on no other row.
-/

namespace Macc

/-- What a curve belongs to: a gas and, if it has one, a sector. -/
structure SourceKey where
  gas : String
  sector : String
  deriving Repr, DecidableEq

def SourceKey.label (key : SourceKey) : String :=
  if key.sector.isEmpty then key.gas else key.gas ++ "/" ++ key.sector

/-- Strategies by what they belong to. -/
abbrev Catalogue (α : Type) := Entries SourceKey (Strategy α)

structure ReductionRow (α : Type) where
  source : SourceKey
  region : String
  period : Int
  year : Int
  reduction : α

variable {α : Type} [Scalar α]

def reductionRow (e : Economy α) (key : SourceKey) (s : Strategy α) (region : String)
    (period : Int) : Attempt (ReductionRow α) := do
  let year ← Attempt.ofExcept (e.horizon.yearOf period)
  let reduction ← s.reduction e region period
  return ⟨key, region, period, year, reduction⟩

/-- What a report has rows for, in order. -/
def reportCells (catalogue : Catalogue α) (regions : List String) (periods : List Int) :
    List ((SourceKey × Strategy α) × String × Int) :=
  catalogue.flatMap fun entry => regions.flatMap fun region =>
    periods.map fun period => (entry, region, period)

/-- The rows for every curve, region and period; without a choice of periods, those of the
horizon. -/
def reductionReport (e : Economy α) (catalogue : Catalogue α) (regions : List String)
    (periods : Option (List Int)) : Attempt (List (ReductionRow α)) :=
  (reportCells catalogue regions (periods.getD e.horizon.periods)).mapM
    fun (entry, region, period) => reductionRow e entry.1 entry.2 region period

end Macc
