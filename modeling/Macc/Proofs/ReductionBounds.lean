import Macc.Proofs.CurveReading
import Macc.Proofs.PriceMonotone

/-!
# A reduction keeps to the range of its curve

If every point of a curve lies between nothing and some most, so does every
reduction that an evaluation comes to. The prices do not matter: whatever they
are, and whatever the fuel shift and the decline of costs make of them, the curve
is asked at some price, and answers with one of its points, with a mean of two
neighbours, or not at all, which counts as zero. Behind the curve stand two
factors that leave a part of what it answers.

Both factors have a first period. Before period one the phase-in counts
backwards, and before its start period the ramp does; from both on neither is
negative, and neither is ever more than the whole.
-/

namespace Macc

namespace Curve

/-- A curve answers within every range that holds zero and the values of its points. -/
theorem Ascending.valueOrZero_mem {c : Curve Rat} (hc : c.Ascending) {range : Set Rat}
    (hrange : range.OrdConnected) (hzero : 0 ∈ range) (hvalues : ∀ p ∈ c.points, p.y ∈ range)
    (x : Rat) : c.valueOrZero x ∈ range := by
  have hanswer := hc.answer x
  rw [valueOrZero]
  generalize c.valueAt x = v at hanswer
  cases hanswer with
  | none _ => exact hzero
  | @point before after p hdiv _ => exact hvalues p hdiv.mem
  | @line before after low high hdiv hhigh =>
      obtain ⟨hnext, hlow⟩ := hdiv.neighbours
      have hlow : low.x < x := by simpa using hlow
      have hhigh : x < high.x := by simpa using hhigh
      have hbetween := between_mem_Icc (hlow.trans hhigh) ⟨hlow.le, hhigh.le⟩
        (@Set.left_mem_uIcc _ _ low.y high.y) Set.right_mem_uIcc
      exact hrange.uIcc_subset (hvalues low hnext.mem.1) (hvalues high hnext.mem.2) hbetween

end Curve

theorem mul_mem_Icc {a f most : Rat} (ha : a ∈ Set.Icc 0 most) (hf : f ∈ Set.Icc (0 : Rat) 1) :
    a * f ∈ Set.Icc 0 most :=
  ⟨mul_nonneg ha.1 hf.1, (mul_le_of_le_one_right ha.1 hf.2).trans ha.2⟩

namespace Strategy

variable {s : Strategy Rat}

section

variable (hc : s.curve.Ascending) {range : Set Rat} (hrange : range.OrdConnected)
  (hzero : 0 ∈ range) (hvalues : ∀ p ∈ s.curve.points, p.y ∈ range)

include hc hrange hzero hvalues

theorem reductionAt_mem (price : Rat) : (s.reductionAt price).value ∈ range := by
  rw [value_reductionAt_rat]
  exact hc.valueOrZero_mem hrange hzero hvalues _

theorem keptReduction_mem (price : Rat) : s.keptReduction price ∈ range := by
  rcases s.keptReduction_eq price with hcut | hleft
  · rw [hcut]
    exact hzero
  · rw [hleft]
    exact reductionAt_mem hc hrange hzero hvalues price

end

/-- From the first periods of its factors on, an evaluation returns a reduction that is in the range
of the curve. -/
theorem reduction_mem_Icc {most : Rat} {e : Economy Rat} {region : String} {period : Int}
    {calls : List (Rat × Rat)} (hcurve : s.curve = (Curve.empty.addAll calls).value)
    (hmost : 0 ≤ most) (hvalues : ∀ p ∈ s.curve.points, p.y ∈ Set.Icc 0 most)
    (hrate : -1 < s.settings.costReductionRate) (hperiod : 1 ≤ period)
    (hstart : e.constants.techChangeStartPeriod ≤ period) :
    ∃ r ∈ Set.Icc 0 most, (s.reduction e region period).outcome = .ok r := by
  have hc : s.curve.Ascending := by
    rw [hcurve]
    exact Curve.ascending_empty.addAll fun _ _ => rfl
  obtain ⟨d, hdecline, -⟩ :=
    Adjust.exists_costDecline e.horizon period hrate s.settings.baseCostYear
  obtain ⟨f, hf, hphase⟩ := Adjust.phaseIn_mem_Icc hperiod s.settings.phaseIn
  have hzero : (0 : Rat) ∈ Set.Icc 0 most := ⟨le_refl _, hmost⟩
  have htop := reductionAt_mem hc Set.ordConnected_Icc hzero hvalues
    (s.curve.maxX?.getD Scalar.zero)
  obtain ⟨g, hg, hramp⟩ := s.afterTechnology_mem_Icc e hstart htop.1
  have hkept := keptReduction_mem hc Set.ordConnected_Icc hzero hvalues
    (s.shiftedPrice e region period * d)
  refine ⟨_, mul_mem_Icc (mul_mem_Icc hkept hf) hg, ?_⟩
  rw [outcome_reduction, outcome_effectivePrice, hdecline, hphase]
  exact hramp _

/-- A curve that falls from its middle on, with every adjustment switched on. -/
def falling : Strategy Rat :=
  { adjusted with curve := (Curve.empty.addAll [(50, 3 / 5), (0, 1 / 5), (100, 2 / 5)]).value }

theorem reduction_mem_Icc_falling :
    ∃ r ∈ Set.Icc (0 : Rat) (3 / 5),
      (falling.reduction
        ⟨⟨"CO2", 3 / 5, 1, 1⟩, ⟨[2005, 2010, 2015, 2020], by decide, by decide⟩,
          ⟨cheapGas.prices.put ⟨some "CO2", some "USA", 2⟩ 80⟩⟩ "USA" 2).outcome = .ok r := by
  refine reduction_mem_Icc rfl (by norm_num) ?_ ?_ (by decide) (by decide)
  · decide +kernel
  · decide +kernel

end Strategy

end Macc
