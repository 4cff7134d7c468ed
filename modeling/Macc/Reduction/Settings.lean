import Macc.Horizon
import Macc.Scalar

/-!
# How a curve is applied

Settings are the scalar parameters beside a curve: how fast it is phased in, how
its costs decline, which fuel shifts it, and what reduction technology change
leads to. The two years default to the ends of the horizon; every other default
switches its adjustment off.
-/

namespace Macc

/-- The parameters of a reduction strategy. -/
structure Settings (α : Type) where
  /-- The year from which costs decline. -/
  baseCostYear : Int
  /-- The year by which the final reduction is reached. -/
  finalReductionYear : Int
  /-- The number of periods over which the curve takes effect; below one it takes effect at once. -/
  phaseIn : α
  /-- The fraction by which abatement becomes cheaper each year. -/
  costReductionRate : α
  /-- By how much the fuel's price shifts the carbon price at most; zero shifts nothing. -/
  fuelShiftRange : α
  /-- The market of the fuel that shifts the carbon price. -/
  shiftFuel : String
  /-- The reduction that technology change leads to; zero leads nowhere. -/
  finalReduction : α
  /-- Whether a negative price gives no reduction. -/
  noBelowZero : Bool
  deriving DecidableEq

/-- The settings of a strategy that sets none. -/
def Settings.default {α : Type} [Scalar α] (h : Horizon) : Settings α :=
  { baseCostYear := h.baseYear
    finalReductionYear := h.endYear
    phaseIn := Scalar.one
    costReductionRate := Scalar.zero
    fuelShiftRange := Scalar.zero
    shiftFuel := ""
    finalReduction := Scalar.zero
    noBelowZero := false }

end Macc
