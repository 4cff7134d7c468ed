import Macc.Proofs.Double.Order
import Macc.Proofs.Evaluation

/-!
# Settings that count as the same

A value is left out of a document when it equals its default, and equality of
doubles is not identity: the zeros equal each other. So what is read back may
differ from what was written in the sign of a zero. This module says that
nobody can tell. Settings are alike when they are equal field by field, nan
counting as nan, and strategies with alike settings and one curve abate the
same, in every economy.

The reason is that each setting is compared before it is computed with, and zero
is what the comparisons are for: a zero switches its adjustment off, whatever
its sign. Away from zero, and for nan, alike is identical.
-/

namespace Macc

/-- Whether two doubles are equal or both no number. -/
def Alike (x y : Float) : Prop :=
  (x == y) = true ∨ (x.isNaN = true ∧ y.isNaN = true)

namespace Alike

theorem refl (x : Float) : Alike x x := by
  by_cases hx : x = Float.nan
  · right
    rw [Float.isNaN_eq_decide_eq_nan]
    exact ⟨decide_eq_true hx, decide_eq_true hx⟩
  · exact .inl (Float.beq_self_iff.2 hx)

/-- Doubles that are alike are one double, or two zeros. -/
theorem eq_or_zero {x y : Float} (h : Alike x y) :
    x = y ∨ Scalar.eq x Scalar.zero = true ∧ Scalar.eq y Scalar.zero = true := by
  rcases h with h | ⟨hx, hy⟩
  · obtain ⟨-, -, rfl | ⟨rfl, rfl⟩ | ⟨rfl, rfl⟩⟩ := Float.beq_iff_ne_nan_and_eq.1 h
    · exact .inl rfl
    · exact .inr ⟨by decide +kernel, by decide +kernel⟩
    · exact .inr ⟨by decide +kernel, by decide +kernel⟩
  · rw [Float.isNaN_eq_decide_eq_nan, decide_eq_true_eq] at hx hy
    left
    rw [hx, hy]

end Alike

/-- Whether settings are equal field by field, nan counting as equal to nan. -/
structure Settings.Alike (s t : Settings Float) : Prop where
  baseCostYear : s.baseCostYear = t.baseCostYear
  finalReductionYear : s.finalReductionYear = t.finalReductionYear
  phaseIn : Macc.Alike s.phaseIn t.phaseIn
  costReductionRate : Macc.Alike s.costReductionRate t.costReductionRate
  fuelShiftRange : Macc.Alike s.fuelShiftRange t.fuelShiftRange
  shiftFuel : s.shiftFuel = t.shiftFuel
  finalReduction : Macc.Alike s.finalReduction t.finalReduction
  noBelowZero : s.noBelowZero = t.noBelowZero

namespace Adjust

theorem fuelShift_congr {constants : Constants Float} {settings others : Settings Float}
    (hrange : settings.fuelShiftRange = others.fuelShiftRange)
    (hfuel : settings.shiftFuel = others.shiftFuel) (curve : Curve Float)
    (prices : PriceTable Float) (region : String) (period : Int) (carbon : Float) :
    fuelShift constants settings curve prices region period carbon =
      fuelShift constants others curve prices region period carbon := by
  have hprice : ∀ low high ratio, shiftedPrice constants settings low high ratio carbon =
      shiftedPrice constants others low high ratio carbon := by
    intro low high ratio
    rw [shiftedPrice, shiftedPrice, hrange]
  rw [fuelShift, fuelShift, hfuel]
  simp only [hprice]

theorem costDecline_congr {h : Horizon} {period : Int} {rate other : Float} {baseYear : Int}
    (hrate : Alike rate other) :
    (costDecline h period rate baseYear).outcome =
      (costDecline h period other baseYear).outcome := by
  rcases hrate.eq_or_zero with rfl | ⟨hz, hz'⟩
  · rfl
  · rw [outcome_costDecline, outcome_costDecline, if_pos hz, if_pos hz']

/-- A curve that is phased in over no periods takes effect at once. -/
theorem phaseIn_of_zero {periods : Float} (hz : Scalar.eq periods Scalar.zero = true)
    (period : Int) : phaseIn period periods = .ok Scalar.one := by
  have hone : Scalar.lt periods Scalar.one = true := by
    rw [(Ranked.lt_congr hz Scalar.one).1]
    decide +kernel
  rw [phaseIn, hone, Bool.not_true, Bool.and_false, if_neg Bool.false_ne_true]
  rfl

theorem phaseIn_congr {periods other : Float} (hperiods : Alike periods other) (period : Int) :
    phaseIn period periods = phaseIn period other := by
  rcases hperiods.eq_or_zero with rfl | ⟨hz, hz'⟩
  · rfl
  · rw [phaseIn_of_zero hz, phaseIn_of_zero hz']

/-- Technology change that leads to nothing divides by zero. -/
theorem technologyRamp_of_zero {constants : Constants Float} {final : Float}
    (hz : Scalar.eq final Scalar.zero = true) (period finalPeriod : Int) (most : Float) :
    technologyRamp constants period finalPeriod most final = .error .divisionByZero := by
  rw [technologyRamp, Scalar.quotient, if_pos hz]
  rfl

theorem technologyRamp_congr {constants : Constants Float} {final other : Float}
    (hfinal : Alike final other) (period finalPeriod : Int) (most : Float) :
    technologyRamp constants period finalPeriod most final =
      technologyRamp constants period finalPeriod most other := by
  rcases hfinal.eq_or_zero with rfl | ⟨hz, hz'⟩
  · rfl
  · rw [technologyRamp_of_zero hz, technologyRamp_of_zero hz']

end Adjust

namespace Strategy

variable {s t : Strategy Float}

theorem reductionAt_congr (hc : s.curve = t.curve) (price : Float) :
    (s.reductionAt price).value = (t.reductionAt price).value := by
  rw [reductionAt, reductionAt, cappedPrice, cappedPrice, hc]
  split <;> rfl

theorem shiftedPrice_congr (hs : s.settings.Alike t.settings) (hc : s.curve = t.curve)
    (e : Economy Float) (region : String) (period : Int) :
    s.shiftedPrice e region period = t.shiftedPrice e region period := by
  rw [shiftedPrice, shiftedPrice]
  rcases hs.fuelShiftRange.eq_or_zero with hrange | ⟨hz, hz'⟩
  · rw [hrange, hc, Adjust.fuelShift_congr hrange hs.shiftFuel]
  · rw [if_pos hz, if_pos hz']

theorem effectivePrice_congr (hs : s.settings.Alike t.settings) (hc : s.curve = t.curve)
    (e : Economy Float) (region : String) (period : Int) :
    (s.effectivePrice e region period).outcome = (t.effectivePrice e region period).outcome := by
  rw [outcome_effectivePrice, outcome_effectivePrice, shiftedPrice_congr hs hc,
    hs.baseCostYear, Adjust.costDecline_congr hs.costReductionRate]

theorem keptReduction_congr (hs : s.settings.Alike t.settings) (hc : s.curve = t.curve)
    (price : Float) : s.keptReduction price = t.keptReduction price := by
  rw [keptReduction, keptReduction, hs.noBelowZero, reductionAt_congr hc]

theorem afterTechnology_congr (hs : s.settings.Alike t.settings) (e : Economy Float)
    (period : Int) (most reduction : Float) :
    (s.afterTechnology e period most reduction).outcome =
      (t.afterTechnology e period most reduction).outcome := by
  have hbelow : Scalar.lt most s.settings.finalReduction =
      Scalar.lt most t.settings.finalReduction := by
    rcases hs.finalReduction.eq_or_zero with heq | ⟨hz, hz'⟩
    · rw [heq]
    · rw [(Ranked.lt_congr hz most).2, (Ranked.lt_congr hz' most).2]
  rw [outcome_afterTechnology, outcome_afterTechnology, hbelow, hs.finalReductionYear,
    Adjust.technologyRamp_congr hs.finalReduction]

/-- What a strategy abates depends on its curve and on its settings up to likeness. -/
theorem outcome_reduction_congr (hs : s.settings.Alike t.settings) (hc : s.curve = t.curve)
    (e : Economy Float) (region : String) (period : Int) :
    (s.reduction e region period).outcome = (t.reduction e region period).outcome := by
  have hmost : s.mostReduction.value = t.mostReduction.value := by
    rw [mostReduction, mostReduction, hc]
    exact reductionAt_congr hc _
  rw [outcome_reduction, outcome_reduction, effectivePrice_congr hs hc, hmost]
  refine congrArg _ (funext fun price => ?_)
  rw [Adjust.phaseIn_congr hs.phaseIn, keptReduction_congr hs hc]
  refine congrArg _ (funext fun phase => ?_)
  exact afterTechnology_congr hs e period _ _

end Strategy

end Macc
