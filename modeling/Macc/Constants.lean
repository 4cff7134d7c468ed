import Macc.Scalar

/-!
# The constants of an evaluation

Four constants are shared by every curve. They have defaults, which an
environment or a run configuration may override; an evaluation is given them as
one value.
-/

namespace Macc

structure Constants (α : Type) where
  /-- The market whose price drives every curve. -/
  carbonMarket : String
  /-- What one minus the ratio of fuel prices is scaled by, so that a halving of the fuel price
  moves the carbon price by `-0.6` of the shift range and a tripling by `0.4`. -/
  normFactor : α
  /-- The period whose fuel price others are compared with. -/
  fuelShiftBasePeriod : Int
  /-- The period from which the technology ramp rises. -/
  techChangeStartPeriod : Int
  deriving DecidableEq

/-- The names that overrides give the constants. -/
def Constants.names : List String :=
  ["CARBON_MARKET", "NORM_FACTOR", "FUEL_SHIFT_BASE_PERIOD", "TECH_CHANGE_START_PERIOD"]

/-- The constants when nothing overrides them. -/
def Constants.default : Constants Float :=
  { carbonMarket := "CO2", normFactor := 0.6, fuelShiftBasePeriod := 1, techChangeStartPeriod := 2 }

end Macc
