import Macc.Proofs.PriceMonotone

/-!
# A dearer fuel abates no less

The shift fuel moves the carbon price in the direction of its own price. Two
evaluations that differ only in that price run side by side, and everything
behind the shift is known to keep their order, so that the shift alone is
looked at here.

Its sign is a product of four. The ratio of the fuel's prices is a reciprocal,
and one minus it rises with the price; the two settings that scale it are not
negative; and what convergence leaves of it is not negative either, as long as
the carbon price is not above the curve. Beyond the top the last factor turns,
and so would the law. In the base period the raised price is its own base, which
is why that period is left out.
-/

namespace Macc

namespace Adjust

/-- Up to the top of the curve convergence leaves some of a shift. -/
theorem convergence_nonneg {low high carbon : Rat} (h : low ≤ high) (hcarbon : carbon ≤ high) :
    0 ≤ convergence low high carbon := by
  rcases h.eq_or_lt with rfl | h
  · simp [convergence]
  · have hleft : 0 ≤ (high - carbon) / (high - low) := div_nonneg (by linarith) (by linarith)
    rw [convergence_eq h]
    linarith

/-- Up to the top of the curve the shifted price rises when the ratio falls. -/
theorem shiftedPrice_anti {constants : Constants Rat} {settings : Settings Rat}
    {low high ratio ratio' carbon : Rat} (h : low ≤ high) (hcarbon : carbon ≤ high)
    (hfactor : 0 ≤ constants.normFactor) (hrange : 0 ≤ settings.fuelShiftRange)
    (hratio : ratio' ≤ ratio) :
    shiftedPrice constants settings low high ratio carbon ≤
      shiftedPrice constants settings low high ratio' carbon := by
  have hchange : constants.normFactor * (1 - ratio) ≤ constants.normFactor * (1 - ratio') :=
    mul_le_mul_of_nonneg_left (by linarith) hfactor
  have hshift : constants.normFactor * (1 - ratio) * settings.fuelShiftRange *
        convergence low high carbon ≤
      constants.normFactor * (1 - ratio') * settings.fuelShiftRange *
        convergence low high carbon :=
    mul_le_mul_of_nonneg_right (mul_le_mul_of_nonneg_right hchange hrange)
      (convergence_nonneg h hcarbon)
  rw [shiftedPrice_eq, shiftedPrice_eq]
  exact min_le_min_right _ (max_le_max_right _ (by linarith))

/-- The ratio of two prices that are there. -/
theorem value_fuelPriceRatio {constants : Constants Rat} {prices : PriceTable Rat}
    {fuel region : String} {period : Int} {now base : Rat}
    (hnow : prices.price? fuel region period = some now) (hne : now ≠ 0)
    (hbase : prices.price? fuel region constants.fuelShiftBasePeriod = some base) :
    (fuelPriceRatio constants prices fuel region period).value = base / now := by
  have hexpect : ∀ t, (prices.expectPrice fuel region t).value = prices.price? fuel region t := by
    intro t
    rw [PriceTable.expectPrice]
    cases prices.price? fuel region t <;> rfl
  rw [fuelPriceRatio, Logged.value_bind, Logged.value_bind, hexpect, hexpect, hnow, hbase]
  simp [hne]

end Adjust

namespace Strategy

/-- What it takes for a fuel to shift the carbon price in the direction of its own price. -/
structure FollowsFuel (s : Strategy Rat) (e : Economy Rat) (region : String) (period : Int) :
    Prop where
  range : 0 ≤ s.settings.fuelShiftRange
  factor : 0 ≤ e.constants.normFactor
  /-- The carbon price is not its own shift fuel. -/
  market : s.settings.shiftFuel ≠ e.constants.carbonMarket
  /-- The period is not the one whose price the fuel's price is compared with. -/
  later : period ≠ e.constants.fuelShiftBasePeriod
  carbon : ∀ top, s.curve.maxX? = some top → carbonPrice e region period ≤ top
  base : ∃ price, 0 < price ∧
    e.prices.price? s.settings.shiftFuel region e.constants.fuelShiftBasePeriod = some price

variable {s : Strategy Rat} {constants : Constants Rat} {h : Horizon}
  {low high : PriceTable Rat} {region : String} {period : Int}

/-- Where one price of the shift fuel rises, the shifted price does not fall. -/
theorem shiftedPrice_le_of_fuel (hc : s.curve.Ascending)
    (hfollows : s.FollowsFuel ⟨constants, h, low⟩ region period)
    (hraised : low.RaisedAt high s.settings.shiftFuel region period) {f f' : Rat}
    (hlow : low.price? s.settings.shiftFuel region period = some f) (hf : 0 < f)
    (hhigh : high.price? s.settings.shiftFuel region period = some f') :
    s.shiftedPrice ⟨constants, h, low⟩ region period ≤
      s.shiftedPrice ⟨constants, h, high⟩ region period := by
  have hff : f ≤ f' := by
    have hle := hraised.raised
    rw [hlow, hhigh] at hle
    exact hle
  have hcarbon : carbonPrice ⟨constants, h, high⟩ region period =
      carbonPrice ⟨constants, h, low⟩ region period := by
    have hagree := hraised.agree constants.carbonMarket region period fun hsame =>
      hfollows.market (Prod.mk.inj hsame).1.symm
    rw [carbonPrice, carbonPrice, hagree]
  obtain ⟨base, hbase, hstart⟩ := hfollows.base
  have hstart' : high.price? s.settings.shiftFuel region constants.fuelShiftBasePeriod =
      some base := by
    have hagree := hraised.agree s.settings.shiftFuel region constants.fuelShiftBasePeriod
      fun hsame => hfollows.later (Prod.mk.inj (Prod.mk.inj hsame).2).2.symm
    rw [← hagree]
    exact hstart
  have hratio : base / f' ≤ base / f := div_le_div_of_nonneg_left hbase.le hf hff
  rw [shiftedPrice, shiftedPrice, hcarbon]
  split
  · exact le_refl _
  · rw [Adjust.fuelShift, Adjust.fuelShift]
    split
    · next bottom top hbottom htop =>
        rw [Logged.value_bind, Logged.value_bind,
          Adjust.value_fuelPriceRatio hlow hf.ne' hstart,
          Adjust.value_fuelPriceRatio hhigh (hf.trans_le hff).ne' hstart']
        exact Adjust.shiftedPrice_anti (Curve.minX?_le_maxX? hc hbottom htop)
          (hfollows.carbon top htop) hfollows.factor hfollows.range hratio
    · exact le_refl _

/-- Where one price of the shift fuel rises and nothing else changes, the reduction does not
fall. -/
theorem reduction_le_of_fuel_raised {calls : List (Rat × Rat)}
    (hcurve : s.curve = (Curve.empty.addAll calls).value) (hr : s.curve.Rising)
    (hn : s.curve.Nonneg) (hrate : -1 < s.settings.costReductionRate) (hperiod : 1 ≤ period)
    (hstart : constants.techChangeStartPeriod ≤ period)
    (hfollows : s.FollowsFuel ⟨constants, h, low⟩ region period)
    (hraised : low.RaisedAt high s.settings.shiftFuel region period) {f f' : Rat}
    (hlow : low.price? s.settings.shiftFuel region period = some f) (hf : 0 < f)
    (hhigh : high.price? s.settings.shiftFuel region period = some f') :
    ∃ a b, (s.reduction ⟨constants, h, low⟩ region period).outcome = .ok a ∧
      (s.reduction ⟨constants, h, high⟩ region period).outcome = .ok b ∧ a ≤ b := by
  have hc : s.curve.Ascending := by
    rw [hcurve]
    exact Curve.ascending_empty.addAll fun _ _ => rfl
  obtain ⟨d, hdecline, hd⟩ :=
    Adjust.exists_costDecline h period hrate s.settings.baseCostYear
  obtain ⟨p, hphase, hp⟩ := Adjust.exists_phaseIn hperiod s.settings.phaseIn
  have hmost : 0 ≤ s.mostReduction.value := value_reductionAt_nonneg hc hr hn _
  obtain ⟨g, hg, hramp⟩ := s.exists_afterTechnology ⟨constants, h, low⟩ hstart hmost
  -- the ramp does not look at prices, so that its factor is that of both runs
  have hrun : ∀ t : PriceTable Rat, (s.reduction ⟨constants, h, t⟩ region period).outcome =
      .ok (s.keptReduction (s.shiftedPrice ⟨constants, h, t⟩ region period * d) * p * g) := by
    intro t
    have hramp : ∀ r, (s.afterTechnology ⟨constants, h, t⟩ period s.mostReduction.value
        r).outcome = .ok (r * g) := hramp
    exact outcome_reduction_of_factors (e := ⟨constants, h, t⟩) hdecline hphase hramp region
  refine ⟨_, _, hrun low, hrun high, ?_⟩
  have hprice := mul_le_mul_of_nonneg_right
    (shiftedPrice_le_of_fuel (h := h) hc hfollows hraised hlow hf hhigh) hd.le
  have hkept := mul_le_mul_of_nonneg_right (keptReduction_mono hc hr hn hprice) hp
  exact mul_le_mul_of_nonneg_right hkept hg

/-- A carbon price of forty in period two, and gas prices before it. -/
def fortyWithGas : PriceTable Rat :=
  .ofRows [(⟨some "CO2", some "USA", 2⟩, 40), (⟨some "Gas", some "USA", 1⟩, 6)]

/-- Gas rises from half to twice its base price; costs decline, and neither the phase-in nor the
ramp is complete. -/
theorem reduction_le_of_fuel_raised_adjusted :
    ∃ a b,
      (adjusted.reduction
        ⟨⟨"CO2", 3 / 5, 1, 1⟩, ⟨[2005, 2010, 2015, 2020], by decide, by decide⟩,
          ⟨fortyWithGas.prices.put ⟨some "Gas", some "USA", 2⟩ 3⟩⟩ "USA" 2).outcome = .ok a ∧
      (adjusted.reduction
        ⟨⟨"CO2", 3 / 5, 1, 1⟩, ⟨[2005, 2010, 2015, 2020], by decide, by decide⟩,
          ⟨fortyWithGas.prices.put ⟨some "Gas", some "USA", 2⟩ 12⟩⟩ "USA" 2).outcome = .ok b ∧
      a ≤ b := by
  refine reduction_le_of_fuel_raised rfl ?_ ?_ (by decide +kernel) (by decide) (by decide) ?_
    (PriceTable.raisedAt_put fortyWithGas "Gas" "USA" 2 (by decide +kernel))
    (show _ = some (3 : Rat) from rfl) (by decide +kernel) (show _ = some (12 : Rat) from rfl)
  · decide +kernel
  · decide +kernel
  · refine ⟨by decide +kernel, by decide +kernel, by decide, by decide, ?_,
      ⟨6, by decide +kernel, rfl⟩⟩
    intro top htop
    cases htop
    decide +kernel

end Strategy

end Macc
