import Mathlib.Order.Interval.Set.Basic
import Mathlib.Tactic.Linarith
import Mathlib.Tactic.NormNum
import Mathlib.Tactic.Positivity
import Macc.Proofs.Evaluation
import Macc.Proofs.Exact

/-!
# The factors of an evaluation

Between the curve and the result stand multiplications only, and none of their
factors depends on a price. In exact arithmetic the decline of costs is a
positive factor of the price, and the phase-in and the technology ramp are
factors of the reduction between nothing and the whole, from the periods on in
which they begin.

For the ramp this takes two conditions together. It acts only on the way to more
than the curve can give, so its height is less than one; and it is asked for a
part of its length only up to its final period, so the part is not more than the
whole. Without a length there is no part, and the ramp is left out.
-/

namespace Macc

namespace Adjust

/-- Costs that do not grow by a factor of zero or less decline by a positive factor. -/
theorem exists_costDecline (h : Horizon) (period : Int) {rate : Rat} (hrate : -1 < rate)
    (baseYear : Int) :
    ∃ d, (costDecline h period rate baseYear).outcome = .ok d ∧ 0 < d := by
  rw [outcome_costDecline]
  split
  · exact ⟨1, rfl, by norm_num⟩
  · split
    · exact ⟨1, rfl, by norm_num⟩
    · next year _ =>
        split
        · have hgrowth : 0 < (1 + rate) ^ (year - baseYear).toNat := pow_pos (by linarith) _
          refine ⟨1 / (1 + rate) ^ (year - baseYear).toNat, ?_, by positivity⟩
          rw [Scalar.one_rat, Scalar.pow_rat, ok_bind, Scalar.quotient_rat (ne_of_gt hgrowth)]
        · exact ⟨1, rfl, by norm_num⟩

/-- From period one on the phase-in leaves between nothing and all of a reduction. -/
theorem phaseIn_mem_Icc {period : Int} (hp : 1 ≤ period) (periods : Rat) :
    ∃ f ∈ Set.Icc (0 : Rat) 1, phaseIn period periods = .ok f := by
  rw [phaseIn]
  split
  · next hwithin =>
      simp only [Scalar.ltInt_rat, Scalar.lt_rat, Scalar.one_rat, Bool.and_eq_true,
        Bool.not_eq_true', decide_eq_true_eq, decide_eq_false_iff_not, not_lt] at hwithin
      obtain ⟨hlt, hperiods⟩ := hwithin
      have hpassed : (0 : Rat) ≤ ((period - 1 : Int) : Rat) := by
        exact_mod_cast (by omega : 0 ≤ period - 1)
      have hpos : 0 < periods := by linarith
      exact ⟨_, ⟨div_nonneg hpassed hpos.le, (div_le_one hpos).2 hlt.le⟩, rfl⟩
  · exact ⟨1, ⟨by norm_num, le_refl _⟩, rfl⟩

/-- A ramp towards more than the curve can give leaves a part of a reduction, unless its length is
zero. -/
theorem technologyRamp_mem_Icc {constants : Constants Rat} {period finalPeriod : Int}
    (hstart : constants.techChangeStartPeriod ≤ period) {most final : Rat} (hmost : 0 ≤ most)
    (hfinal : most < final) :
    (∃ f ∈ Set.Icc (0 : Rat) 1, technologyRamp constants period finalPeriod most final = .ok f) ∨
      technologyRamp constants period finalPeriod most final = .error .divisionByZero := by
  have hpos : 0 < final := by linarith
  have hchange : most / final ≤ 1 := (div_le_one hpos).2 hfinal.le
  have hchange' : 0 ≤ most / final := div_nonneg hmost hpos.le
  rw [technologyRamp, Scalar.quotient_rat hpos.ne', ok_bind]
  split
  · next hwithin =>
      rw [Scalar.ofInt_rat, Scalar.ofInt_rat, ok_bind, ok_bind]
      by_cases hlength : ((finalPeriod - constants.techChangeStartPeriod : Int) : Rat) = 0
      · exact .inr (by rw [hlength, Scalar.quotient_rat_zero])
      · have hpassed : (0 : Rat) ≤ ((period - constants.techChangeStartPeriod : Int) : Rat) := by
          exact_mod_cast (by omega : 0 ≤ period - constants.techChangeStartPeriod)
        have hpart : ((period - constants.techChangeStartPeriod : Int) : Rat) ≤
            ((finalPeriod - constants.techChangeStartPeriod : Int) : Rat) := by
          exact_mod_cast (by omega : period - constants.techChangeStartPeriod ≤
            finalPeriod - constants.techChangeStartPeriod)
        have hwhole : (0 : Rat) < ((finalPeriod - constants.techChangeStartPeriod : Int) : Rat) :=
          lt_of_le_of_ne (hpassed.trans hpart) (Ne.symm hlength)
        refine .inl ⟨_, ⟨?_, ?_⟩, Scalar.quotient_rat hlength⟩
        · exact div_nonneg (mul_nonneg hchange' hpassed) hwhole.le
        · rw [div_le_one hwhole]
          exact (mul_le_of_le_one_left hpassed hchange).trans hpart
  · exact .inl ⟨_, ⟨hchange', hchange⟩, rfl⟩

end Adjust

namespace Strategy

/-- After the ramp a part of the reduction is left, and the same part of every one. -/
theorem afterTechnology_mem_Icc (s : Strategy Rat) (e : Economy Rat) {period : Int}
    (hstart : e.constants.techChangeStartPeriod ≤ period) {most : Rat} (hmost : 0 ≤ most) :
    ∃ f ∈ Set.Icc (0 : Rat) 1, ∀ r, (s.afterTechnology e period most r).outcome = .ok (r * f) := by
  have hall : (1 : Rat) ∈ Set.Icc (0 : Rat) 1 := ⟨by norm_num, le_refl _⟩
  by_cases hacts : (Scalar.lt most s.settings.finalReduction &&
      1 < e.horizon.periodOf s.settings.finalReductionYear) = true
  · have hfinal : most < s.settings.finalReduction := by
      simp only [Scalar.lt_rat, Bool.and_eq_true, decide_eq_true_eq] at hacts
      exact hacts.1
    rcases Adjust.technologyRamp_mem_Icc hstart hmost hfinal with ⟨f, hf, hramp⟩ | hramp
    · refine ⟨f, hf, fun r => ?_⟩
      rw [outcome_afterTechnology, if_pos hacts, hramp]
    · refine ⟨1, hall, fun r => ?_⟩
      rw [outcome_afterTechnology, if_pos hacts, hramp, mul_one]
  · refine ⟨1, hall, fun r => ?_⟩
    rw [outcome_afterTechnology, if_neg hacts, mul_one]

end Strategy

end Macc
