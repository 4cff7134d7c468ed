import Mathlib.Order.Interval.Set.Basic
import Mathlib.Tactic.FieldSimp
import Macc.Proofs.CurveReading
import Macc.Proofs.PriceMonotone

/-!
# What the fuel shift makes of a price

Whatever moves it, a shifted price stays within the range of the curve, because
it is cut off at both ends of it. How it follows the carbon price is another
matter. Before it is cut off it lies on a straight line through the top of the
curve, and the strength of the shift decides whether that line rises: up to
twice the width of the curve it does.

Beyond that strength the line falls. Up to the top of the curve nobody sees it,
since the whole of the line lies above the top there; past the top it comes down
through the range, and the order turns. So the bound on the strength is exact
for prices of any height, and not needed for those on the curve. A curve with a
single point has no width, and every price is shifted to that point.
-/

namespace Macc

namespace Adjust

/-- How strongly a fuel shifts the carbon prices of a region and period. -/
def strength (constants : Constants Rat) (settings : Settings Rat) (prices : PriceTable Rat)
    (region : String) (period : Int) : Rat :=
  constants.normFactor *
      (1 - (fuelPriceRatio constants prices settings.shiftFuel region period).value) *
    settings.fuelShiftRange

variable {constants : Constants Rat} {settings : Settings Rat} {low high ratio : Rat}

theorem shiftedPrice_mem_Icc (h : low ≤ high) (carbon : Rat) :
    shiftedPrice constants settings low high ratio carbon ∈ Set.Icc low high := by
  rw [shiftedPrice_eq]
  exact ⟨le_min (le_max_right _ _) h, min_le_right _ _⟩

/-- Before it is cut off, the shifted price lies on a line through the top of the curve. -/
theorem add_shift_eq (h : low < high) (strength carbon : Rat) :
    carbon + strength * convergence low high carbon =
      high + strength / 2 - (strength / (2 * (high - low)) - 1) * (carbon - high) := by
  have hwidth : high - low ≠ 0 := by linarith
  rw [convergence_eq h]
  field_simp
  ring

/-- Past the top of the curve a strong shift brings some price below the top again. -/
theorem exists_add_shift_lt {strength : Rat} (h : low < high)
    (hstrong : 2 * (high - low) < strength) :
    ∃ carbon, high ≤ carbon ∧ carbon + strength * convergence low high carbon < high := by
  have hwidth : 0 < high - low := by linarith
  have hfall : 0 < strength / (2 * (high - low)) - 1 := by
    rw [sub_pos, one_lt_div (by linarith)]
    exact hstrong
  refine ⟨high + strength / (strength / (2 * (high - low)) - 1), ?_, ?_⟩
  · exact le_add_of_nonneg_right (div_nonneg (by linarith) hfall.le)
  · rw [add_shift_eq h, add_sub_cancel_left, mul_div_cancel₀ _ hfall.ne']
    linarith

/-- A curve without width leaves one price only. -/
theorem shiftedPrice_of_point (carbon : Rat) :
    shiftedPrice constants settings low low ratio carbon = low := by
  have hmem : shiftedPrice constants settings low low ratio carbon ∈ Set.Icc low low :=
    shiftedPrice_mem_Icc le_rfl carbon
  rwa [Set.Icc_self, Set.mem_singleton_iff] at hmem

/-- Past the top of the curve a strong shift brings some price below the one that the top itself is
shifted to. -/
theorem exists_shiftedPrice_lt (h : low < high)
    (hstrong : 2 * (high - low) < constants.normFactor * (1 - ratio) * settings.fuelShiftRange) :
    ∃ carbon, high ≤ carbon ∧ shiftedPrice constants settings low high ratio carbon <
      shiftedPrice constants settings low high ratio high := by
  obtain ⟨carbon, hcarbon, hbelow⟩ := exists_add_shift_lt h hstrong
  refine ⟨carbon, hcarbon, ?_⟩
  have htop : shiftedPrice constants settings low high ratio high = high := by
    rw [shiftedPrice_eq]
    exact min_eq_right ((top_le_add_shift h le_rfl hstrong).trans (le_max_left _ _))
  rw [htop, shiftedPrice_eq]
  exact (min_le_left _ _).trans_lt (max_lt hbelow h)

/-- Shifting keeps the order of all prices exactly where the curve has no width or the shift is at
most twice as strong as it is wide. -/
theorem monotone_shiftedPrice_iff (h : low ≤ high) :
    Monotone (shiftedPrice constants settings low high ratio) ↔
      low = high ∨
        constants.normFactor * (1 - ratio) * settings.fuelShiftRange ≤ 2 * (high - low) := by
  constructor
  · intro hmono
    rcases h.eq_or_lt with hpoint | hwidth
    · exact .inl hpoint
    · refine .inr (not_lt.1 fun hstrong => ?_)
      obtain ⟨carbon, hcarbon, hbelow⟩ := exists_shiftedPrice_lt hwidth hstrong
      exact absurd (hmono hcarbon) (not_le.2 hbelow)
  · rintro (rfl | hmild) p q hpq
    · rw [shiftedPrice_of_point, shiftedPrice_of_point]
    · exact shiftedPrice_mono h hpq (.inr hmild)

variable {curve : Curve Rat} {prices : PriceTable Rat} {region : String} {period : Int}

/-- With points, the fuel shift is what the ratio of the fuel's prices makes of the carbon price. -/
theorem value_fuelShift (hlow : curve.minX? = some low) (hhigh : curve.maxX? = some high)
    (carbon : Rat) :
    (fuelShift constants settings curve prices region period carbon).value =
      shiftedPrice constants settings low high
        (fuelPriceRatio constants prices settings.shiftFuel region period).value carbon := by
  rw [fuelShift, hlow, hhigh]
  rfl

/-- A shifted price lies in the range of the curve. Up to the top of the curve it does not fall when
the carbon price rises, however strong the shift is. Among prices of any height it never falls
exactly where the shift is at most twice as strong as the curve is wide, or the curve has no
width. -/
theorem fuelShift_follows_price {pairs : List (Rat × Rat)}
    (hcurve : curve = (Curve.empty.addAll pairs).value) (hpoints : curve.points ≠ [])
    (constants : Constants Rat) (settings : Settings Rat) (prices : PriceTable Rat)
    (region : String) (period : Int) :
    ∃ low high, curve.minX? = some low ∧ curve.maxX? = some high ∧
      (∀ carbon, (fuelShift constants settings curve prices region period carbon).value ∈
        Set.Icc low high) ∧
      MonotoneOn (fun carbon => (fuelShift constants settings curve prices region period
        carbon).value) (Set.Iic high) ∧
      (Monotone (fun carbon => (fuelShift constants settings curve prices region period
          carbon).value) ↔
        low = high ∨ strength constants settings prices region period ≤ 2 * (high - low)) := by
  obtain ⟨first, last, hfirst, hlast⟩ := curve.eq_nil_or_exists_ends.resolve_left hpoints
  have hlow : curve.minX? = some first.x := congrArg (Option.map ControlPoint.x) hfirst
  have hhigh : curve.maxX? = some last.x := congrArg (Option.map ControlPoint.x) hlast
  have hc : curve.Ascending := by
    rw [hcurve]
    exact Curve.ascending_empty.addAll fun _ _ => rfl
  have hle : first.x ≤ last.x := Curve.minX?_le_maxX? hc hlow hhigh
  refine ⟨first.x, last.x, hlow, hhigh, ?_, ?_, ?_⟩
  all_goals simp only [value_fuelShift hlow hhigh]
  · exact shiftedPrice_mem_Icc hle
  · intro p _ q hq hpq
    exact shiftedPrice_mono hle hpq (.inl hq)
  · exact monotone_shiftedPrice_iff hle

/-- Gas at twice the price that it had in the base period. -/
def dearGas : PriceTable Rat :=
  .ofRows [(⟨some "Gas", some "USA", 1⟩, 3), (⟨some "Gas", some "USA", 2⟩, 6)]

/-- A range of a thousand on a curve from zero to a hundred makes a shift of three hundred, which is
too strong for prices beyond the curve. -/
theorem fuelShift_follows_price_dearGas :
    (∀ carbon, (fuelShift ⟨"CO2", 3 / 5, 1, 1⟩
        { Strategy.adjusted.settings with fuelShiftRange := 1000 } Strategy.adjusted.curve dearGas
        "USA" 2 carbon).value ∈ Set.Icc 0 100) ∧
      MonotoneOn (fun carbon => (fuelShift ⟨"CO2", 3 / 5, 1, 1⟩
        { Strategy.adjusted.settings with fuelShiftRange := 1000 } Strategy.adjusted.curve dearGas
        "USA" 2 carbon).value) (Set.Iic 100) ∧
      ¬Monotone (fun carbon => (fuelShift ⟨"CO2", 3 / 5, 1, 1⟩
        { Strategy.adjusted.settings with fuelShiftRange := 1000 } Strategy.adjusted.curve dearGas
        "USA" 2 carbon).value) := by
  obtain ⟨low, high, hlow, hhigh, hrange, hmono, hiff⟩ :=
    fuelShift_follows_price (show Strategy.adjusted.curve = _ from rfl) (by decide +kernel)
      ⟨"CO2", 3 / 5, 1, 1⟩ { Strategy.adjusted.settings with fuelShiftRange := 1000 } dearGas
      "USA" 2
  obtain rfl : 0 = low := Option.some.inj hlow
  obtain rfl : 100 = high := Option.some.inj hhigh
  refine ⟨hrange, hmono, fun hall => ?_⟩
  rcases hiff.1 hall with hpoint | hmild
  · exact absurd hpoint (by decide)
  · exact absurd hmild (by decide +kernel)

end Adjust

end Macc
