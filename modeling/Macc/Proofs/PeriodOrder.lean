import Macc.Proofs.ReductionBounds

/-!
# A later period abates no less

At one price, and without anything that moves the price from period to period,
a reduction changes with the period through two factors only. Both are ramps
that rise to their full height and stay there, so each is the smaller of a line
and a constant, and in this form there is no seam to look at: neither where the
phase-in ends nor where the technology ramp reaches its final period can there
be a drop.

The technology ramp has such a form only if its final period is not the one it
starts from, because it has no length then and is left out up to that period,
but not after it.
-/

namespace Macc

namespace Adjust

/-! ## The phase-in -/

theorem phaseIn_of_lt_one {periods : Rat} (h : periods < 1) (period : Int) :
    phaseIn period periods = .ok 1 := by
  rw [phaseIn, if_neg]
  · rfl
  · simp [h]

/-- Over one period or more the phase-in is a line up to its full height. -/
theorem phaseIn_of_one_le {periods : Rat} (h : 1 ≤ periods) (period : Int) :
    phaseIn period periods = .ok (min (((period - 1 : Int) : Rat) / periods) 1) := by
  have hpos : 0 < periods := by linarith
  rw [phaseIn, Scalar.ltInt_rat, Scalar.lt_rat, Scalar.one_rat, Scalar.ofInt_rat, ok_bind]
  generalize ((period - 1 : Int) : Rat) = passed
  by_cases hwithin : passed < periods
  · rw [if_pos (by simp [hwithin, h]), min_eq_left ((div_le_one hpos).2 hwithin.le)]
    rfl
  · rw [if_neg (by simp [hwithin]), min_eq_right ((one_le_div hpos).2 (not_lt.1 hwithin))]
    rfl

/-- The phase-in does not fall from one period to a later one. -/
theorem exists_phaseIn_le {p q : Int} (hpq : p ≤ q) (periods : Rat) :
    ∃ f g, phaseIn p periods = .ok f ∧ phaseIn q periods = .ok g ∧ f ≤ g := by
  by_cases h : 1 ≤ periods
  · have hpassed : ((p - 1 : Int) : Rat) ≤ ((q - 1 : Int) : Rat) := by
      exact_mod_cast (by omega : p - 1 ≤ q - 1)
    refine ⟨_, _, phaseIn_of_one_le h p, phaseIn_of_one_le h q, min_le_min_right _ ?_⟩
    exact div_le_div_of_nonneg_right hpassed (by linarith)
  · exact ⟨1, 1, phaseIn_of_lt_one (not_le.1 h) p, phaseIn_of_lt_one (not_le.1 h) q, le_refl _⟩

/-! ## The technology ramp -/

/-- A ramp with a length is a line up to its full height. -/
theorem technologyRamp_of_lt {constants : Constants Rat} {finalPeriod : Int}
    (h : constants.techChangeStartPeriod < finalPeriod) (period : Int) {most final : Rat}
    (hfinal : final ≠ 0) :
    technologyRamp constants period finalPeriod most final =
      .ok (most / final * min (((period - constants.techChangeStartPeriod : Int) : Rat) /
        ((finalPeriod - constants.techChangeStartPeriod : Int) : Rat)) 1) := by
  have hlength : (0 : Rat) < ((finalPeriod - constants.techChangeStartPeriod : Int) : Rat) := by
    exact_mod_cast (by omega : 0 < finalPeriod - constants.techChangeStartPeriod)
  rw [technologyRamp, Scalar.quotient_rat hfinal, ok_bind]
  by_cases hwithin : period ≤ finalPeriod
  · have hpart : ((period - constants.techChangeStartPeriod : Int) : Rat) ≤
        ((finalPeriod - constants.techChangeStartPeriod : Int) : Rat) := by
      exact_mod_cast (by omega : period - constants.techChangeStartPeriod ≤
        finalPeriod - constants.techChangeStartPeriod)
    rw [if_pos hwithin, Scalar.ofInt_rat, Scalar.ofInt_rat, ok_bind, ok_bind,
      Scalar.quotient_rat hlength.ne', min_eq_left ((div_le_one hlength).2 hpart), mul_div_assoc]
  · have hpart : ((finalPeriod - constants.techChangeStartPeriod : Int) : Rat) ≤
        ((period - constants.techChangeStartPeriod : Int) : Rat) := by
      exact_mod_cast (by omega : finalPeriod - constants.techChangeStartPeriod ≤
        period - constants.techChangeStartPeriod)
    rw [if_neg hwithin, min_eq_right ((one_le_div hlength).2 hpart), mul_one]
    rfl

/-- A ramp whose final period has passed has its full height. -/
theorem technologyRamp_of_passed {constants : Constants Rat} {period finalPeriod : Int}
    (h : finalPeriod < period) {most final : Rat} (hfinal : final ≠ 0) :
    technologyRamp constants period finalPeriod most final = .ok (most / final) := by
  rw [technologyRamp, Scalar.quotient_rat hfinal, ok_bind, if_neg (not_le.2 h)]
  rfl

/-- From its start period on the ramp does not fall from one period to a later one. -/
theorem exists_technologyRamp_le {constants : Constants Rat} {p q finalPeriod : Int} (hpq : p ≤ q)
    (hstart : constants.techChangeStartPeriod ≤ p)
    (hlength : finalPeriod ≠ constants.techChangeStartPeriod) {most final : Rat}
    (hmost : 0 ≤ most) (hfinal : 0 < final) :
    ∃ f g, technologyRamp constants p finalPeriod most final = .ok f ∧
      technologyRamp constants q finalPeriod most final = .ok g ∧ 0 ≤ f ∧ f ≤ g := by
  have hchange : 0 ≤ most / final := div_nonneg hmost hfinal.le
  rcases lt_or_gt_of_ne hlength with hbefore | hafter
  · exact ⟨_, _, technologyRamp_of_passed (by omega) hfinal.ne',
      technologyRamp_of_passed (by omega) hfinal.ne', hchange, le_refl _⟩
  · have hwhole : (0 : Rat) ≤ ((finalPeriod - constants.techChangeStartPeriod : Int) : Rat) := by
      exact_mod_cast (by omega : 0 ≤ finalPeriod - constants.techChangeStartPeriod)
    have hpassed : (0 : Rat) ≤ ((p - constants.techChangeStartPeriod : Int) : Rat) := by
      exact_mod_cast (by omega : 0 ≤ p - constants.techChangeStartPeriod)
    have hparts : ((p - constants.techChangeStartPeriod : Int) : Rat) ≤
        ((q - constants.techChangeStartPeriod : Int) : Rat) := by
      exact_mod_cast (by omega : p - constants.techChangeStartPeriod ≤
        q - constants.techChangeStartPeriod)
    refine ⟨_, _, technologyRamp_of_lt hafter p hfinal.ne',
      technologyRamp_of_lt hafter q hfinal.ne', ?_, ?_⟩
    · exact mul_nonneg hchange (le_min (div_nonneg hpassed hwhole) zero_le_one)
    · exact mul_le_mul_of_nonneg_left
        (min_le_min_right _ (div_le_div_of_nonneg_right hparts hwhole)) hchange

end Adjust

namespace Strategy

/-- The part that the ramp leaves of every reduction does not fall either. -/
theorem exists_afterTechnology_le (s : Strategy Rat) (e : Economy Rat) {p q : Int} (hpq : p ≤ q)
    (hstart : e.constants.techChangeStartPeriod ≤ p)
    (hlength : (e.horizon.periodOf s.settings.finalReductionYear : Int) ≠
      e.constants.techChangeStartPeriod) {most : Rat} (hmost : 0 ≤ most) :
    ∃ f g, (∀ r, (s.afterTechnology e p most r).outcome = .ok (r * f)) ∧
      (∀ r, (s.afterTechnology e q most r).outcome = .ok (r * g)) ∧ 0 ≤ f ∧ f ≤ g := by
  by_cases hacts : (Scalar.lt most s.settings.finalReduction &&
      1 < e.horizon.periodOf s.settings.finalReductionYear) = true
  · have hfinal : most < s.settings.finalReduction := by
      simp only [Scalar.lt_rat, Bool.and_eq_true, decide_eq_true_eq] at hacts
      exact hacts.1
    obtain ⟨f, g, hp, hq, hnonneg, hle⟩ := Adjust.exists_technologyRamp_le hpq hstart hlength hmost
      (hmost.trans_lt hfinal)
    refine ⟨f, g, fun r => ?_, fun r => ?_, hnonneg, hle⟩
    · rw [outcome_afterTechnology, if_pos hacts, hp]
    · rw [outcome_afterTechnology, if_pos hacts, hq]
  · refine ⟨1, 1, fun r => ?_, fun r => ?_, by norm_num, le_refl _⟩
    · rw [outcome_afterTechnology, if_neg hacts, mul_one]
    · rw [outcome_afterTechnology, if_neg hacts, mul_one]

variable {s : Strategy Rat} {e : Economy Rat} {region : String}

/-- Without a fuel shift the curve is asked at the carbon price itself. -/
theorem shiftedPrice_of_eq_zero (hrange : s.settings.fuelShiftRange = 0) (period : Int) :
    s.shiftedPrice e region period = carbonPrice e region period := by
  rw [shiftedPrice, if_pos (by simpa using hrange)]

/-- Without a rate costs stay as they are. -/
theorem outcome_costDecline_of_eq_zero {rate : Rat} (hrate : rate = 0) (h : Horizon) (period : Int)
    (baseYear : Int) : (Adjust.costDecline h period rate baseYear).outcome = .ok 1 := by
  rw [Adjust.outcome_costDecline, if_pos (by simpa using hrate)]
  rfl

/-- At the same price, and with no adjustment of it, a later period abates no less than an earlier
one. -/
theorem reduction_le_of_later_period {p q : Int} {calls : List (Rat × Rat)}
    (hcurve : s.curve = (Curve.empty.addAll calls).value) (hn : s.curve.Nonneg)
    (hrate : s.settings.costReductionRate = 0) (hrange : s.settings.fuelShiftRange = 0)
    (hlength : (e.horizon.periodOf s.settings.finalReductionYear : Int) ≠
      e.constants.techChangeStartPeriod)
    (hprice : carbonPrice e region p = carbonPrice e region q) (hpq : p ≤ q) (hp : 1 ≤ p)
    (hstart : e.constants.techChangeStartPeriod ≤ p) :
    ∃ a b, (s.reduction e region p).outcome = .ok a ∧ (s.reduction e region q).outcome = .ok b ∧
      a ≤ b := by
  have hc : s.curve.Ascending := by
    rw [hcurve]
    exact Curve.ascending_empty.addAll fun _ _ => rfl
  have hmost : 0 ≤ s.mostReduction.value :=
    reductionAt_mem hc Set.ordConnected_Ici Set.self_mem_Ici hn _
  obtain ⟨f, g, hf, hg, hphase⟩ := Adjust.exists_phaseIn_le hpq s.settings.phaseIn
  obtain ⟨f', hf', hfirst⟩ := Adjust.phaseIn_mem_Icc hp s.settings.phaseIn
  obtain rfl : f' = f := Except.ok.inj (hfirst.symm.trans hf)
  obtain ⟨u, v, hu, hv, hnonneg, hramp⟩ := s.exists_afterTechnology_le e hpq hstart hlength hmost
  refine ⟨_, _, outcome_reduction_of_factors (outcome_costDecline_of_eq_zero hrate _ p _) hf hu
    region, outcome_reduction_of_factors (outcome_costDecline_of_eq_zero hrate _ q _) hg hv region,
    ?_⟩
  rw [shiftedPrice_of_eq_zero hrange, shiftedPrice_of_eq_zero hrange, hprice]
  have hkept : 0 ≤ s.keptReduction (carbonPrice e region q * 1) :=
    keptReduction_mem hc Set.ordConnected_Ici Set.self_mem_Ici hn _
  calc s.keptReduction (carbonPrice e region q * 1) * f' * u
      ≤ s.keptReduction (carbonPrice e region q * 1) * g * u :=
        mul_le_mul_of_nonneg_right (mul_le_mul_of_nonneg_left hphase hkept) hnonneg
    _ ≤ s.keptReduction (carbonPrice e region q * 1) * g * v :=
        mul_le_mul_of_nonneg_left hramp (mul_nonneg hkept (hf'.1.trans hphase))

/-- A curve that falls from its middle on, phased in over two and a half periods and with a ramp
that ends in period three. -/
def fallingRamped : Strategy Rat :=
  { falling with
    settings := { falling.settings with
      phaseIn := 5 / 2, costReductionRate := 0, fuelShiftRange := 0 } }

/-- Five model years, and a price of eighty in the second and the last one. -/
def eightyTwice : Economy Rat :=
  ⟨⟨"CO2", 3 / 5, 1, 1⟩, ⟨[2005, 2010, 2015, 2020, 2025], by decide, by decide⟩,
    .ofRows [(⟨some "CO2", some "USA", 1⟩, 80), (⟨some "CO2", some "USA", 4⟩, 80)]⟩

/-- From a period in which both ramps begin to one in which both have ended. -/
theorem reduction_le_of_later_period_ramped :
    ∃ a b, (fallingRamped.reduction eightyTwice "USA" 1).outcome = .ok a ∧
      (fallingRamped.reduction eightyTwice "USA" 4).outcome = .ok b ∧ a ≤ b :=
  reduction_le_of_later_period rfl (by decide +kernel) rfl rfl (by decide +kernel) rfl (by decide)
    (by decide) (by decide)

end Strategy

end Macc
