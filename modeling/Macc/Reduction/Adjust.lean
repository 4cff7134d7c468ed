import Macc.Constants
import Macc.Curve
import Macc.Price.Table
import Macc.Reduction.Settings

/-!
# Adjustments around a curve

Two adjustments change the price before the curve is asked, the fuel shift and
the decline of costs; two change the reduction it answers, the phase-in and the
technology ramp. Each is a function of its own, and each says in its type what
it can do besides computing: report, fail, or neither.

A period without a year is reported by its number. One with more digits than can
be written is no period of any horizon, and is treated as the others outside.
-/

namespace Macc.Adjust

variable {α : Type} [Scalar α]

/-- How the shift fuel's price stands to its price in the base period. Without a price to divide by
the ratio is one; so it is without a base price, which is reported. -/
def fuelPriceRatio (constants : Constants α) (prices : PriceTable α) (fuel region : String)
    (period : Int) : Logged α := do
  let current ← prices.expectPrice fuel region period
  let base ← prices.expectPrice fuel region constants.fuelShiftBasePeriod
  match current with
  | none => pure Scalar.one
  | some now =>
    if Scalar.eq now Scalar.zero then pure Scalar.one
    else
      match base with
      | some start => pure (start / now)
      | none =>
        note (.noBasePrice fuel region)
        pure Scalar.one

/-- How much of the shift is left at a carbon price: all of it at the bottom of the curve, half of
it at the top. -/
def convergence (low high carbon : α) : α :=
  if Scalar.eq high low then Scalar.one
  else Scalar.half + Scalar.half * ((high - carbon) / (high - low))

/-- The carbon price moved with the price of the shift fuel, within the curve's range. -/
def shiftedPrice (constants : Constants α) (settings : Settings α) (low high ratio carbon : α) :
    α :=
  let shift := constants.normFactor * (Scalar.one - ratio) * settings.fuelShiftRange *
    convergence low high carbon
  Scalar.smaller (Scalar.larger (carbon + shift) low) high

/-- The carbon price after the fuel shift. A curve without points shifts nothing. -/
def fuelShift (constants : Constants α) (settings : Settings α) (curve : Curve α)
    (prices : PriceTable α) (region : String) (period : Int) (carbon : α) : Logged α := do
  match curve.minX?, curve.maxX? with
  | some low, some high =>
    let ratio ← fuelPriceRatio constants prices settings.shiftFuel region period
    pure (shiftedPrice constants settings low high ratio carbon)
  | _, _ => pure carbon

/-- What the carbon price is multiplied by because abatement becomes cheaper: after `n` years the
inverse of `(1 + rate) ^ n`. A period outside the horizon has no year, which is reported. -/
def costDecline (h : Horizon) (period : Int) (rate : α) (baseYear : Int) : Attempt α := do
  if Scalar.eq rate Scalar.zero then pure Scalar.one
  else
    match h.yearOf period with
    | .error cause =>
      report (.noCostYear period cause)
      pure Scalar.one
    | .ok year =>
      if 0 < year - baseYear then
        let growth ← Scalar.pow (Scalar.one + rate) (year - baseYear).toNat
        Scalar.quotient Scalar.one growth
      else pure Scalar.one

/-- What the reduction is multiplied by while the curve is phased in: nothing in period one, the
whole once `phaseIn` periods have passed. -/
def phaseIn (period : Int) (periods : α) : Except Failure α := do
  if Scalar.ltInt (period - 1) periods && !Scalar.lt periods Scalar.one then
    let passed ← Scalar.ofInt (period - 1)
    pure (passed / periods)
  else pure Scalar.one

/-- What the reduction is multiplied by for technology change: up to the final period it rises from
nothing in the start period, and then it is what leads from the curve's own maximum to the final
reduction. -/
def technologyRamp (constants : Constants α) (period finalPeriod : Int) (most final : α) :
    Except Failure α := do
  let change ← Scalar.quotient most final
  if period ≤ finalPeriod then
    let passed ← Scalar.ofInt (period - constants.techChangeStartPeriod)
    let length ← Scalar.ofInt (finalPeriod - constants.techChangeStartPeriod)
    Scalar.quotient (change * passed) length
  else pure change

end Macc.Adjust
