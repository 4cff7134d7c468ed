import Mathlib.Tactic.NormNum
import Mathlib.Tactic.Positivity
import Mathlib.Tactic.Ring
import Macc.Proofs.Factors
import Macc.Proofs.Interpolation

/-!
# A higher carbon price abates no less

Two evaluations that differ only in one carbon price run side by side. Every
step of the pipeline keeps their order: the shifted price does not fall when the
carbon price rises, the decline of costs multiplies both by the same positive
number, a rising curve answers in order, and the cut, the phase-in and the ramp
are multiplications by a number that is not negative and does not depend on the
price.

The shift is the one step where the order could turn. What it adds shrinks as
the carbon price approaches the top of the curve, and a strong shift shrinks
faster than the price rises. Below the top this does no harm, because a shift of
that strength already reaches the top from anywhere on the curve; above the top
it would, which is why the law asks for one of the two.
-/

namespace Macc

/-! ## The shifted price -/

namespace Adjust

theorem convergence_eq {low high : Rat} (h : low < high) (carbon : Rat) :
    convergence low high carbon = 1 / 2 + 1 / 2 * ((high - carbon) / (high - low)) := by
  simp [convergence, ne_of_gt h]

theorem shiftedPrice_eq (constants : Constants Rat) (settings : Settings Rat)
    (low high ratio carbon : Rat) :
    shiftedPrice constants settings low high ratio carbon =
      min (max (carbon + constants.normFactor * (1 - ratio) * settings.fuelShiftRange *
        convergence low high carbon) low) high := by
  simp [shiftedPrice]

/-- A price moves up faster than its shift shrinks, if the shift is at most twice as strong as the
curve is wide. -/
theorem add_shift_mono {low high strength p q : Rat} (h : low < high) (hpq : p ≤ q)
    (hmild : strength ≤ 2 * (high - low)) :
    p + strength * convergence low high p ≤ q + strength * convergence low high q := by
  have hwidth : 0 < high - low := by linarith
  rw [convergence_eq h, convergence_eq h]
  have hp : (high - p) / (high - low) = (high - q) / (high - low) + (q - p) / (high - low) := by
    rw [← add_div]
    congr 1
    ring
  have hstep : strength * ((q - p) / (high - low)) ≤ 2 * (q - p) := by
    rw [← mul_div_assoc, div_le_iff₀ hwidth]
    calc strength * (q - p) ≤ 2 * (high - low) * (q - p) :=
          mul_le_mul_of_nonneg_right hmild (by linarith)
      _ = 2 * (q - p) * (high - low) := by ring
  rw [hp]
  linarith

/-- A stronger shift lifts every price on the curve to its top. -/
theorem top_le_add_shift {low high strength p : Rat} (h : low < high) (hp : p ≤ high)
    (hstrong : 2 * (high - low) < strength) :
    high ≤ p + strength * convergence low high p := by
  have hwidth : 0 < high - low := by linarith
  have hreach : high - p ≤ strength / 2 * ((high - p) / (high - low)) := by
    rw [← mul_div_assoc, le_div_iff₀ hwidth, mul_comm]
    exact mul_le_mul_of_nonneg_right (by linarith) (by linarith)
  rw [convergence_eq h]
  linarith

/-- The shifted price does not fall when the carbon price rises. -/
theorem shiftedPrice_mono {constants : Constants Rat} {settings : Settings Rat}
    {low high ratio p q : Rat} (h : low ≤ high) (hpq : p ≤ q)
    (hmild : q ≤ high ∨
      constants.normFactor * (1 - ratio) * settings.fuelShiftRange ≤ 2 * (high - low)) :
    shiftedPrice constants settings low high ratio p ≤
      shiftedPrice constants settings low high ratio q := by
  rw [shiftedPrice_eq, shiftedPrice_eq]
  generalize constants.normFactor * (1 - ratio) * settings.fuelShiftRange = strength at hmild ⊢
  rcases h.eq_or_lt with rfl | h
  · have hconstant : ∀ x : Rat, convergence low low x = 1 := by simp [convergence]
    rw [hconstant, hconstant]
    exact min_le_min_right _ (max_le_max_right _ (by linarith))
  · by_cases hweak : strength ≤ 2 * (high - low)
    · exact min_le_min_right _ (max_le_max_right _ (add_shift_mono h hpq hweak))
    · have hq : q ≤ high := hmild.resolve_right hweak
      have htop := top_le_add_shift h hq (not_le.1 hweak)
      rw [min_eq_right (htop.trans (le_max_left _ _))]
      exact min_le_right _ _

/-! ## The factors

None of them reads a price, and none of them is negative. -/

theorem exists_phaseIn {period : Int} (hp : 1 ≤ period) (periods : Rat) :
    ∃ f, phaseIn period periods = .ok f ∧ 0 ≤ f := by
  obtain ⟨f, hf, hphase⟩ := phaseIn_mem_Icc hp periods
  exact ⟨f, hphase, hf.1⟩

end Adjust

/-! ## One price raised -/

/-- Two tables with the same prices but for one, which the second has at least as high. A missing
price counts as zero. -/
structure PriceTable.RaisedAt (low high : PriceTable Rat) (market region : String)
    (period : Int) : Prop where
  agree : ∀ m r t, (m, r, t) ≠ (market, region, period) → low.price? m r t = high.price? m r t
  raised : (low.price? market region period).getD 0 ≤ (high.price? market region period).getD 0

/-- Entering two prices in one place of a table raises the lower to the higher. -/
theorem PriceTable.raisedAt_put (t : PriceTable Rat) (market region : String) (period : Int)
    {p q : Rat} (hpq : p ≤ q) :
    RaisedAt ⟨t.prices.put ⟨some market, some region, period⟩ p⟩
      ⟨t.prices.put ⟨some market, some region, period⟩ q⟩ market region period where
  agree m r t' hne := by
    have hkey : (⟨some m, some r, t'⟩ : PriceKey) ≠ ⟨some market, some region, period⟩ := by
      intro h
      cases h
      exact hne rfl
    rw [price?, price?, Entries.get?_put_of_ne _ _ hkey, Entries.get?_put_of_ne _ _ hkey]
  raised := by
    rw [price?, price?, Entries.get?_put_self, Entries.get?_put_self]
    exact hpq

namespace Adjust

/-- The ratio of the fuel's prices sees nothing of other markets. -/
theorem fuelPriceRatio_congr {constants : Constants Rat} {low high : PriceTable Rat}
    {fuel region : String} {period : Int}
    (hprice : ∀ t, low.price? fuel region t = high.price? fuel region t) :
    fuelPriceRatio constants low fuel region period =
      fuelPriceRatio constants high fuel region period := by
  have hexpect : ∀ t, low.expectPrice fuel region t = high.expectPrice fuel region t := by
    intro t
    rw [PriceTable.expectPrice, PriceTable.expectPrice, hprice]
  rw [fuelPriceRatio, fuelPriceRatio, hexpect, hexpect]

end Adjust

namespace Strategy

/-- What a fuel shift must satisfy for the price to keep its order: another market than the carbon
price shifts it, and where the carbon price is above the top of the curve the shift is at most twice
as strong as the curve is wide. -/
def MildShift (s : Strategy Rat) (e : Economy Rat) (region : String) (period : Int) : Prop :=
  s.settings.shiftFuel ≠ e.constants.carbonMarket ∧
    ∀ bottom top, s.curve.minX? = some bottom → s.curve.maxX? = some top →
      carbonPrice e region period ≤ top ∨
        e.constants.normFactor *
            (1 - (Adjust.fuelPriceRatio e.constants e.prices s.settings.shiftFuel region
              period).value) * s.settings.fuelShiftRange ≤ 2 * (top - bottom)

variable {s : Strategy Rat} {constants : Constants Rat} {h : Horizon}
  {low high : PriceTable Rat} {region : String} {period : Int}

theorem shiftedPrice_le (hc : s.curve.Ascending)
    (hraised : low.RaisedAt high constants.carbonMarket region period)
    (hshift : s.settings.fuelShiftRange ≠ 0 → s.MildShift ⟨constants, h, high⟩ region period) :
    s.shiftedPrice ⟨constants, h, low⟩ region period ≤
      s.shiftedPrice ⟨constants, h, high⟩ region period := by
  have hcarbon : carbonPrice ⟨constants, h, low⟩ region period ≤
      carbonPrice ⟨constants, h, high⟩ region period := hraised.raised
  rw [shiftedPrice, shiftedPrice]
  split
  · exact hcarbon
  · next hrange =>
      obtain ⟨hfuel, hmild⟩ := hshift (by simpa using hrange)
      have hprice : ∀ t, low.price? s.settings.shiftFuel region t =
          high.price? s.settings.shiftFuel region t := by
        intro t
        exact hraised.agree s.settings.shiftFuel region t fun hsame =>
          hfuel (Prod.mk.inj hsame).1
      have hratio := @Adjust.fuelPriceRatio_congr constants low high s.settings.shiftFuel region
        period hprice
      rw [Adjust.fuelShift, Adjust.fuelShift]
      split
      · next bottom top hbottom htop =>
          rw [Logged.value_bind, Logged.value_bind, hratio]
          exact Adjust.shiftedPrice_mono (Curve.minX?_le_maxX? hc hbottom htop) hcarbon
            (hmild bottom top hbottom htop)
      · exact hcarbon

/-! ## The curve -/

theorem value_reductionAt_rat (s : Strategy Rat) (price : Rat) :
    (s.reductionAt price).value = s.curve.valueOrZero (s.cappedPrice price) :=
  s.value_reductionAt price

theorem cappedPrice_mono (s : Strategy Rat) {p q : Rat} (hpq : p ≤ q) :
    s.cappedPrice p ≤ s.cappedPrice q := by
  rw [cappedPrice, cappedPrice]
  split
  · rw [Scalar.smaller_rat, Scalar.smaller_rat]
    exact min_le_min_right _ hpq
  · exact hpq

theorem cappedPrice_le_top (s : Strategy Rat) (price : Rat) {top : Rat}
    (htop : s.curve.maxX? = some top) : s.cappedPrice price ≤ top := by
  rw [cappedPrice, htop]
  exact (Scalar.smaller_rat price top).trans_le (min_le_right _ _)

section

variable (hc : s.curve.Ascending) (hr : s.curve.Rising) (hn : s.curve.Nonneg)
include hc hr hn

theorem value_reductionAt_nonneg (price : Rat) : 0 ≤ (s.reductionAt price).value := by
  rw [value_reductionAt_rat]
  exact Curve.valueOrZero_nonneg hc hr hn _

theorem keptReduction_mono {p q : Rat} (hpq : p ≤ q) : s.keptReduction p ≤ s.keptReduction q := by
  have hlook : (s.reductionAt p).value ≤ (s.reductionAt q).value := by
    rw [value_reductionAt_rat, value_reductionAt_rat]
    exact Curve.valueOrZero_mono hc hr hn (s.cappedPrice_mono hpq) fun top htop =>
      s.cappedPrice_le_top q htop
  have hq := value_reductionAt_nonneg hc hr hn q
  simp only [keptReduction, Scalar.lt_rat, Scalar.zero_rat, Bool.and_eq_true, decide_eq_true_eq]
  split
  · split
    · exact le_refl _
    · exact hq
  · next hp =>
      rw [if_neg]
      · exact hlook
      · rintro ⟨hcut, hneg⟩
        exact hp ⟨hcut, lt_of_le_of_lt hpq hneg⟩

end

/-! ## The law -/

/-- The ramp multiplies by a factor that is not negative and is the same for every reduction. -/
theorem exists_afterTechnology (s : Strategy Rat) (e : Economy Rat)
    (hstart : e.constants.techChangeStartPeriod ≤ period) {most : Rat} (hmost : 0 ≤ most) :
    ∃ f, 0 ≤ f ∧ ∀ r, (s.afterTechnology e period most r).outcome = .ok (r * f) := by
  obtain ⟨f, hf, hramp⟩ := s.afterTechnology_mem_Icc e hstart hmost
  exact ⟨f, hf.1, hramp⟩

/-- Where one carbon price rises and nothing else changes, the reduction does not fall. -/
theorem reduction_le_of_price_raised {pairs : List (Rat × Rat)}
    (hcurve : s.curve = (Curve.empty.addAll pairs).value) (hr : s.curve.Rising)
    (hn : s.curve.Nonneg) (hrate : -1 < s.settings.costReductionRate) (hperiod : 1 ≤ period)
    (hstart : constants.techChangeStartPeriod ≤ period)
    (hraised : low.RaisedAt high constants.carbonMarket region period)
    (hshift : s.settings.fuelShiftRange ≠ 0 → s.MildShift ⟨constants, h, high⟩ region period) :
    ∃ a b, (s.reduction ⟨constants, h, low⟩ region period).outcome = .ok a ∧
      (s.reduction ⟨constants, h, high⟩ region period).outcome = .ok b ∧ a ≤ b := by
  have hc : s.curve.Ascending := by
    rw [hcurve]
    exact Curve.ascending_empty.addAll fun _ _ => rfl
  obtain ⟨d, hd, hdpos⟩ := Adjust.exists_costDecline h period hrate s.settings.baseCostYear
  obtain ⟨f, hf, hfpos⟩ := Adjust.exists_phaseIn hperiod s.settings.phaseIn
  have hmost : 0 ≤ s.mostReduction.value := value_reductionAt_nonneg hc hr hn _
  obtain ⟨g, hgpos, hg⟩ := s.exists_afterTechnology ⟨constants, h, low⟩ hstart hmost
  -- both runs are the reduction that is kept, times the same two factors
  have hrun : ∀ t : PriceTable Rat, (s.reduction ⟨constants, h, t⟩ region period).outcome =
      .ok (s.keptReduction (s.shiftedPrice ⟨constants, h, t⟩ region period * d) * f * g) := by
    intro t
    rw [outcome_reduction, outcome_effectivePrice, hd, hf]
    exact hg _
  refine ⟨_, _, hrun low, hrun high, ?_⟩
  have hprice := mul_le_mul_of_nonneg_right (shiftedPrice_le hc hraised hshift) (le_of_lt hdpos)
  have hkept := mul_le_mul_of_nonneg_right (keptReduction_mono hc hr hn hprice) hfpos
  exact mul_le_mul_of_nonneg_right hkept hgpos

/-- A strategy with every adjustment switched on. -/
def adjusted : Strategy Rat where
  name := "adjusted"
  settings :=
    { baseCostYear := 2005, finalReductionYear := 2020, phaseIn := 3, costReductionRate := 1 / 100
      fuelShiftRange := 10, shiftFuel := "Gas", finalReduction := 4 / 5, noBelowZero := true }
  curve := (Curve.empty.addAll [(50, 1 / 5), (0, 0), (100, 3 / 5)]).value

/-- Gas at half the price that it had in the base period. -/
def cheapGas : PriceTable Rat :=
  .ofRows [(⟨some "Gas", some "USA", 1⟩, 6), (⟨some "Gas", some "USA", 2⟩, 3)]

/-- The carbon price passes the top of the curve, the gas price moves both runs, and neither the
phase-in nor the ramp is complete. -/
theorem reduction_le_of_price_raised_adjusted :
    ∃ a b,
      (adjusted.reduction
        ⟨⟨"CO2", 3 / 5, 1, 1⟩, ⟨[2005, 2010, 2015, 2020], by decide, by decide⟩,
          ⟨cheapGas.prices.put ⟨some "CO2", some "USA", 2⟩ 40⟩⟩ "USA" 2).outcome = .ok a ∧
      (adjusted.reduction
        ⟨⟨"CO2", 3 / 5, 1, 1⟩, ⟨[2005, 2010, 2015, 2020], by decide, by decide⟩,
          ⟨cheapGas.prices.put ⟨some "CO2", some "USA", 2⟩ 120⟩⟩ "USA" 2).outcome = .ok b ∧
      a ≤ b := by
  refine reduction_le_of_price_raised rfl ?_ ?_ (by decide +kernel) (by decide) (by decide)
    (PriceTable.raisedAt_put cheapGas "CO2" "USA" 2 (by decide +kernel)) ?_
  · decide +kernel
  · decide +kernel
  · intro _
    refine ⟨by decide, fun bottom top hbottom htop => .inr ?_⟩
    cases hbottom
    cases htop
    decide +kernel

end Strategy

end Macc
