import Macc.Proofs.Attempts
import Macc.Reduction.Strategy

/-!
# What an evaluation comes to

The reports of an evaluation never change its result, so a proof about the
result should not have to carry them. Here the outcome of each adjustment is
stated once, as a computation that can only succeed or fail: the price before
the curve, the reduction that the curve answers, the phase-in and the technology
ramp. Everything that is proved about results, that they exist, that they are
bounded, that they follow the prices, starts from these equations.
-/

namespace Macc

/-! ## The adjustments -/

variable {α : Type} [Scalar α]

namespace Adjust

/-- The outcome of the decline of costs; a period without a year costs as much as ever. -/
theorem outcome_costDecline (h : Horizon) (period : Int) (rate : α) (baseYear : Int) :
    (costDecline h period rate baseYear).outcome =
      if Scalar.eq rate Scalar.zero then .ok Scalar.one
      else
        match h.yearOf period with
        | .error _ => .ok Scalar.one
        | .ok year =>
          if 0 < year - baseYear then
            Scalar.pow (Scalar.one + rate) (year - baseYear).toNat >>= Scalar.quotient Scalar.one
          else .ok Scalar.one := by
  rw [costDecline]
  cases hy : h.yearOf period with
  | error cause => split <;> rfl
  | ok year =>
      dsimp only
      split
      · rfl
      · split
        · rw [Attempt.outcome_bind]
          rfl
        · rfl

end Adjust

namespace Strategy

/-- The carbon price after the fuel shift. -/
def shiftedPrice (s : Strategy α) (e : Economy α) (region : String) (period : Int) : α :=
  if Scalar.eq s.settings.fuelShiftRange Scalar.zero then carbonPrice e region period
  else
    (Adjust.fuelShift e.constants s.settings s.curve e.prices region period
      (carbonPrice e region period)).value

/-- The reduction that is left at a price after the cut below zero. -/
def keptReduction (s : Strategy α) (price : α) : α :=
  if s.settings.noBelowZero && Scalar.lt price Scalar.zero then Scalar.zero
  else (s.reductionAt price).value

/-- The cut leaves nothing or all of a reduction. -/
theorem keptReduction_eq (s : Strategy α) (price : α) :
    s.keptReduction price = Scalar.zero ∨ s.keptReduction price = (s.reductionAt price).value := by
  rw [keptReduction]
  split
  · exact .inl rfl
  · exact .inr rfl

theorem outcome_effectivePrice (s : Strategy α) (e : Economy α) (region : String)
    (period : Int) :
    (s.effectivePrice e region period).outcome = do
      let decline ← (Adjust.costDecline e.horizon period s.settings.costReductionRate
        s.settings.baseCostYear).outcome
      return s.shiftedPrice e region period * decline := by
  rw [effectivePrice, Attempt.outcome_bind, Attempt.outcome_ofLogged, ok_bind,
    Attempt.outcome_bind, shiftedPrice]
  split <;> rfl

theorem outcome_effectivePrice_of_ok (s : Strategy α) {e : Economy α} {period : Int} {decline : α}
    (hdecline : (Adjust.costDecline e.horizon period s.settings.costReductionRate
      s.settings.baseCostYear).outcome = .ok decline) (region : String) :
    (s.effectivePrice e region period).outcome =
      .ok (s.shiftedPrice e region period * decline) := by
  rw [outcome_effectivePrice, hdecline]
  rfl

/-- A price at which the curve has no value counts as zero. -/
theorem value_reductionAt (s : Strategy α) (price : α) :
    (s.reductionAt price).value = (s.curve.valueAt (s.cappedPrice price)).getD Scalar.zero := by
  rw [reductionAt]
  cases s.curve.valueAt (s.cappedPrice price) <;> rfl

/-- The outcome of the technology ramp; a ramp without length leaves the reduction as it is. -/
theorem outcome_afterTechnology (s : Strategy α) (e : Economy α) (period : Int)
    (most reduction : α) :
    (s.afterTechnology e period most reduction).outcome =
      if Scalar.lt most s.settings.finalReduction &&
          1 < e.horizon.periodOf s.settings.finalReductionYear then
        match Adjust.technologyRamp e.constants period
            (e.horizon.periodOf s.settings.finalReductionYear) most
            s.settings.finalReduction with
        | .ok factor => .ok (reduction * factor)
        | .error .divisionByZero => .ok reduction
        | .error failure => .error failure
      else .ok reduction := by
  rw [afterTechnology]
  split
  · cases Adjust.technologyRamp e.constants period
        (e.horizon.periodOf s.settings.finalReductionYear) most s.settings.finalReduction with
    | ok factor => rfl
    | error failure => cases failure <;> rfl
  · rfl

/-- Without a final reduction there is no ramp, whatever the curve can give. -/
theorem outcome_afterTechnology_of_eq_zero {s : Strategy α} (e : Economy α) (period : Int)
    (most reduction : α) (hfinal : Scalar.eq s.settings.finalReduction Scalar.zero = true) :
    (s.afterTechnology e period most reduction).outcome = .ok reduction := by
  rw [outcome_afterTechnology, Adjust.technologyRamp, Scalar.quotient, if_pos hfinal]
  split <;> rfl

/-- The outcome of an evaluation, step by step. -/
theorem outcome_reduction (s : Strategy α) (e : Economy α) (region : String) (period : Int) :
    (s.reduction e region period).outcome =
      (s.effectivePrice e region period).outcome >>= fun price =>
      Adjust.phaseIn period s.settings.phaseIn >>= fun phase =>
      (s.afterTechnology e period s.mostReduction.value
        (s.keptReduction price * phase)).outcome := by
  rw [reduction, Attempt.outcome_bind]
  refine congrArg _ (funext fun price => ?_)
  rw [Attempt.outcome_bind, Attempt.outcome_ofLogged, ok_bind, Attempt.outcome_bind,
    Attempt.outcome_ofLogged, ok_bind, Attempt.outcome_bind]
  rfl

/-- An evaluation is the reduction that is kept at the declined price, times the phase-in, times
what the ramp multiplies every reduction by. -/
theorem outcome_reduction_of_factors {s : Strategy α} {e : Economy α} {period : Int}
    {decline phase ramp : α}
    (hdecline : (Adjust.costDecline e.horizon period s.settings.costReductionRate
      s.settings.baseCostYear).outcome = .ok decline)
    (hphase : Adjust.phaseIn period s.settings.phaseIn = .ok phase)
    (hramp : ∀ r, (s.afterTechnology e period s.mostReduction.value r).outcome = .ok (r * ramp))
    (region : String) :
    (s.reduction e region period).outcome =
      .ok (s.keptReduction (s.shiftedPrice e region period * decline) * phase * ramp) := by
  rw [outcome_reduction, s.outcome_effectivePrice_of_ok hdecline region, ok_bind, hphase, ok_bind]
  exact hramp _

/-- Without a final reduction an evaluation ends with the phase-in. -/
theorem outcome_reduction_of_eq_zero {s : Strategy α} {e : Economy α} {region : String}
    {period : Int} {price phase : α}
    (hfinal : Scalar.eq s.settings.finalReduction Scalar.zero = true)
    (hprice : (s.effectivePrice e region period).outcome = .ok price)
    (hphase : Adjust.phaseIn period s.settings.phaseIn = .ok phase) :
    (s.reduction e region period).outcome = .ok (s.keptReduction price * phase) := by
  rw [outcome_reduction, hprice, ok_bind, hphase, ok_bind]
  exact outcome_afterTechnology_of_eq_zero e period _ _ hfinal

end Strategy

end Macc
