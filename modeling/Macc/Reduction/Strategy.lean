import Macc.Reduction.Adjust

/-!
# Reduction strategies

A strategy is a named curve with settings. Evaluated in an economy, which is
the constants, the horizon and the prices, it gives for a region and a period
the fraction of emissions that is abated. The steps are, in this order: the
carbon price, the fuel shift, the decline of costs, the curve, the cut below
zero, the phase-in and the technology ramp.

The result is not clamped. What has no value is reported and replaced by zero.
-/

namespace Macc

/-- What strategies are evaluated in. -/
structure Economy (α : Type) where
  constants : Constants α
  horizon : Horizon
  prices : PriceTable α

/-- A named curve with its settings. -/
structure Strategy (α : Type) where
  name : String
  settings : Settings α
  curve : Curve α
  deriving DecidableEq

namespace Strategy

variable {α : Type} [Scalar α]

/-- A strategy without points whose settings are the defaults. -/
def fresh (h : Horizon) (name : String) : Strategy α :=
  ⟨name, Settings.default h, Curve.empty⟩

/-- Reports a curve that has no points, before any period is evaluated. -/
def check (s : Strategy α) (gas : String) : Logged Unit :=
  if s.curve.maxX?.isNone then note (.noData gas) else pure ()

/-- The price at which the curve is asked: prices above its last point count as that point. -/
def cappedPrice (s : Strategy α) (price : α) : α :=
  match s.curve.maxX? with
  | some top => Scalar.smaller price top
  | none => price

/-- The reduction at a price; zero, and a report, where the curve has no value. -/
def reductionAt (s : Strategy α) (price : α) : Logged α := do
  match s.curve.valueAt (s.cappedPrice price) with
  | some reduction => pure reduction
  | none =>
    note (.unevaluable s.name (Scalar.text price))
    pure Scalar.zero

/-- The reduction at the top of the curve. -/
def mostReduction (s : Strategy α) : Logged α :=
  s.reductionAt (s.curve.maxX?.getD Scalar.zero)

/-- The carbon price of a region and period; a market without a price is free. -/
def carbonPrice (e : Economy α) (region : String) (period : Int) : α :=
  (e.prices.price? e.constants.carbonMarket region period).getD Scalar.zero

/-- The carbon price after the adjustments that come before the curve. -/
def effectivePrice (s : Strategy α) (e : Economy α) (region : String) (period : Int) :
    Attempt α := do
  let carbon := carbonPrice e region period
  let shifted ← Attempt.ofLogged <|
    if Scalar.eq s.settings.fuelShiftRange Scalar.zero then pure carbon
    else Adjust.fuelShift e.constants s.settings s.curve e.prices region period carbon
  let decline ← Adjust.costDecline e.horizon period s.settings.costReductionRate
    s.settings.baseCostYear
  pure (shifted * decline)

/-- The reduction after the technology ramp, which acts when the final reduction exceeds what the
curve can give and is reached after period one. A ramp without length is reported and skipped. -/
def afterTechnology (s : Strategy α) (e : Economy α) (period : Int) (most reduction : α) :
    Attempt α := do
  let finalPeriod := e.horizon.periodOf s.settings.finalReductionYear
  if Scalar.lt most s.settings.finalReduction && 1 < finalPeriod then
    match Adjust.technologyRamp e.constants period finalPeriod most s.settings.finalReduction with
    | .ok factor => pure (reduction * factor)
    | .error .divisionByZero =>
      report (.undefinedRamp s.name finalPeriod)
      pure reduction
    | .error failure => throw failure
  else pure reduction

/-- The fraction of emissions abated in a region and period. -/
def reduction (s : Strategy α) (e : Economy α) (region : String) (period : Int) : Attempt α := do
  let price ← s.effectivePrice e region period
  let looked ← Attempt.ofLogged (s.reductionAt price)
  let kept := if s.settings.noBelowZero && Scalar.lt price Scalar.zero then Scalar.zero else looked
  let most ← Attempt.ofLogged s.mostReduction
  let phase ← Adjust.phaseIn period s.settings.phaseIn
  s.afterTechnology e period most (kept * phase)

end Strategy

end Macc
