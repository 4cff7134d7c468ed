import Macc.Proofs.Definedness
import Macc.Proofs.Double.Quotients
import Macc.Proofs.ReductionBounds

/-!
# When a reduction is below zero

A curve without values below zero answers nothing below zero, and without a
final reduction there is no ramp behind it. What is left is the phase-in. It
begins in period one, where it leaves nothing of a reduction, and it counts
backwards before that: in the base period it multiplies by a number below zero,
unless it is switched off. So it is the phase-in, and the phase-in alone, that
turns a reduction into one below zero, and only in periods before the first.

In exact arithmetic this is the whole story. With doubles there is one more
place to look at. On a segment that falls, the line is a value less a part of
it, and where the part is nearly the whole, rounding can make it larger than the
whole by a last bit. On a segment that does not fall no sign is at risk, since a
rounded result is never on the other side of zero.
-/

namespace Macc

open Binary64

/-! ## Curves of doubles -/

/-- A double at which no segment that falls is rounded below zero. -/
def Curve.FallsSafely (c : Curve Float) (x : Float) : Prop :=
  ∀ low high, c.Neighbours low high → Scalar.lt low.x x = true → Scalar.lt x high.x = true →
    Scalar.lt high.y low.y = true → Scalar.lt (between low high x) Scalar.zero = false

theorem Curve.isNaN_between {low high : ControlPoint Float} (h : high.x.isNaN = true) (x : Float) :
    (between low high x).isNaN = true :=
  (isNaN_of_operand _ (isNaN_of_operand _ (isNaN_of_operand low.x h).2.2.1).2.2.2).1

/-- Between values that are not below zero and do not fall, no line is below zero. -/
theorem Curve.between_not_negative {low high : ControlPoint Float} {x : Float}
    (hlow : Scalar.lt low.x x = true) (hhigh : Scalar.lt x high.x = true)
    (hvalue : Scalar.lt low.y Scalar.zero = false) (hrise : Scalar.lt high.y low.y = false) :
    Scalar.lt (between low high x) Scalar.zero = false := by
  have hpassed : Scalar.lt (x - low.x) Scalar.zero = false := by
    rw [← Bool.not_eq_true]
    exact Ranked.not_lt_of_lt (zero_lt_sub hlow)
  have hwidth : Scalar.lt Scalar.zero (high.x - low.x) = true :=
    zero_lt_sub (Ranked.lt_trans hlow hhigh)
  exact add_not_negative hvalue
    (div_not_negative (mul_not_negative (sub_not_negative hrise) hpassed) hwidth)

/-- A curve without values below zero answers nothing below zero. -/
theorem Curve.valueAt_not_negative {c : Curve Float}
    (hvalues : ∀ p ∈ c.points, Scalar.lt p.y Scalar.zero = false) {x : Float}
    (hfalls : c.FallsSafely x) {v : Float} (hv : c.valueAt x = some v) :
    Scalar.lt v Scalar.zero = false := by
  rcases valueAt_eq_some hv with ⟨p, hp, rfl⟩ | ⟨low, high, hnext, hlow, hhigh, hne, rfl⟩ |
    ⟨first, last, hx, hafter, hbefore, hne, rfl⟩
  · exact hvalues p hp
  · have hx : Scalar.isNaN x = false := ((Ranked.lt_iff low.x x).1 hlow).2.1
    cases hnan : Scalar.isNaN high.x with
    | true => exact not_negative_of_isNaN (isNaN_between hnan x)
    | false =>
        have hhigh : Scalar.lt x high.x = true := Ranked.lt_of_not_lt_of_not_eq hnan hx
          (by rw [hhigh]; decide) (by rw [hne]; decide)
        cases hrise : Scalar.lt high.y low.y with
        | true => exact hfalls low high hnext hlow hhigh hrise
        | false =>
            exact between_not_negative hlow hhigh (hvalues low hnext.mem.1) hrise
  · -- only what is no number is neither before nor at nor behind the query
    have hnan : first.x.isNaN = true := by
      by_contra hnumber
      have hlt : Scalar.lt x first.x = true := Ranked.lt_of_not_lt_of_not_eq
        (Bool.eq_false_iff.2 hnumber) hx (by rw [hafter]; decide) (by rw [hne]; decide)
      rw [hbefore] at hlt
      cases hlt
    exact not_negative_of_isNaN (isNaN_between hnan x)

/-- On a long segment the part of the way is rounded to the whole, and the part of the value to more
than the whole, so that the line ends below zero. -/
example : Curve.between ⟨-3, 0.003⟩ ⟨2e-20, 0⟩ 1e-20 < (0 : Float) := by
  decide +kernel

/-! ## The phase-in -/

/-- Whether the phase-in is in effect and asked about a period that it does not know. -/
def Adjust.CountsBackwards {α : Type} [Scalar α] (period : Int) (periods : α) : Prop :=
  period < 1 ∧ Scalar.lt periods Scalar.one = false ∧ Scalar.isNaN periods = false

namespace Adjust

/-- From period one on, and wherever it is switched off, the phase-in is a finite factor that is not
below zero. -/
theorem phaseIn_not_negative {period : Int} {periods f : Float}
    (h : ¬CountsBackwards period periods) (hf : phaseIn period periods = .ok f) :
    f.isFinite = true ∧ Scalar.lt f Scalar.zero = false := by
  rw [phaseIn] at hf
  split at hf
  · next hwithin =>
      obtain ⟨hlt, hlong⟩ := Bool.and_eq_true_iff.1 hwithin
      have hnumber : Scalar.isNaN periods = false := by
        rw [← Bool.not_eq_true]
        intro hnan
        change (ofFloat periods).ltInt (period - 1) = true at hlt
        rw [isNaN_iff.1 hnan] at hlt
        cases hlt
      have hperiod : 1 ≤ period := by
        by_contra hbefore
        exact h ⟨not_le.1 hbefore, by simpa using hlong, hnumber⟩
      obtain ⟨k, hk⟩ := Int.eq_ofNat_of_zero_le (by omega : 0 ≤ period - 1)
      rw [hk] at hf hlt
      obtain ⟨passed, hpassed, hf⟩ := bind_eq_ok_iff.1 hf
      cases hf
      exact isFinite_part hpassed hlt
  · cases hf
    decide

/-- In exact arithmetic the phase-in is below zero exactly where it counts backwards. -/
theorem exists_phaseIn_neg_iff (period : Int) (periods : Rat) :
    ∃ f, phaseIn period periods = .ok f ∧ (f < 0 ↔ CountsBackwards period periods) := by
  by_cases hperiod : 1 ≤ period
  · obtain ⟨f, hf, hphase⟩ := phaseIn_mem_Icc hperiod periods
    refine ⟨f, hphase, iff_of_false (not_lt.2 hf.1) fun h => ?_⟩
    exact absurd h.1 (not_lt.2 hperiod)
  · have hbefore : ((period - 1 : Int) : Rat) < 0 := by exact_mod_cast (by omega : period - 1 < 0)
    simp only [phaseIn, CountsBackwards, Scalar.ltInt_rat, Scalar.lt_rat, Scalar.one_rat,
      Scalar.ofInt_rat, Scalar.isNaN_rat, Bool.and_eq_true, Bool.not_eq_true',
      decide_eq_true_eq, decide_eq_false_iff_not, not_lt, and_true]
    by_cases hlong : 1 ≤ periods
    · have hpos : 0 < periods := by linarith
      refine ⟨((period - 1 : Int) : Rat) / periods, ?_, ?_⟩
      · rw [if_pos ⟨hbefore.trans hpos, hlong⟩]
        rfl
      · exact iff_of_true (div_neg_of_neg_of_pos hbefore hpos) ⟨not_le.1 hperiod, hlong⟩
    · refine ⟨1, if_neg fun h => hlong h.2, iff_of_false (by norm_num) fun h => hlong h.2⟩

end Adjust

namespace Strategy

/-! ## The evaluation -/

section

variable {s : Strategy Float} {price : Float}

theorem reductionAt_not_negative
    (hvalues : ∀ p ∈ s.curve.points, Scalar.lt p.y Scalar.zero = false)
    (hfalls : s.curve.FallsSafely (s.cappedPrice price)) :
    Scalar.lt (s.reductionAt price).value Scalar.zero = false := by
  rw [value_reductionAt]
  cases hv : s.curve.valueAt (s.cappedPrice price) with
  | none =>
      show Scalar.lt Scalar.zero Scalar.zero = false
      decide
  | some v => exact Curve.valueAt_not_negative hvalues hfalls hv

theorem keptReduction_not_negative
    (hvalues : ∀ p ∈ s.curve.points, Scalar.lt p.y Scalar.zero = false)
    (hfalls : s.curve.FallsSafely (s.cappedPrice price)) :
    Scalar.lt (s.keptReduction price) Scalar.zero = false := by
  rcases s.keptReduction_eq price with hcut | hleft
  · rw [hcut]
    decide
  · rw [hleft]
    exact reductionAt_not_negative hvalues hfalls

theorem isFinite_keptReduction (h : (s.reductionAt price).value.isFinite = true) :
    (s.keptReduction price).isFinite = true := by
  rcases s.keptReduction_eq price with hcut | hleft
  · rw [hcut]
    decide
  · rw [hleft]
    exact h

end

/-- A strategy without a final reduction whose control values are not below zero comes to no
reduction below zero, unless the phase-in counts backwards. In exact arithmetic that is the only
exception, and it is one unless nothing is left of the reduction anyway. -/
theorem reduction_not_negative (region : String) (period : Int) :
    (∀ (s : Strategy Float) (e : Economy Float),
      (∀ p ∈ s.curve.points, Scalar.lt p.y Scalar.zero = false) →
      Scalar.eq s.settings.finalReduction Scalar.zero = true →
      s.Defined e period → ¬Adjust.CountsBackwards period s.settings.phaseIn →
      ∃ price r, (s.effectivePrice e region period).outcome = .ok price ∧
        (s.reduction e region period).outcome = .ok r ∧
        (s.curve.FallsSafely (s.cappedPrice price) → Scalar.lt r Scalar.zero = false) ∧
        ((s.reductionAt price).value.isFinite = true → Scalar.isNaN r = false)) ∧
    (∀ (s : Strategy Rat) (e : Economy Rat) (calls : List (Rat × Rat)),
      s.curve = (Curve.empty.addAll calls).value →
      (∀ p ∈ s.curve.points, 0 ≤ p.y) → s.settings.finalReduction = 0 →
      -1 < s.settings.costReductionRate →
      ∃ price r, (s.effectivePrice e region period).outcome = .ok price ∧
        (s.reduction e region period).outcome = .ok r ∧
        (0 ≤ r ↔ ¬Adjust.CountsBackwards period s.settings.phaseIn ∨
          s.keptReduction price = 0)) := by
  constructor
  · intro s e hvalues hfinal hdefined hforwards
    obtain ⟨d, hdecline⟩ := (costDecline_returns_iff e.horizon period
      s.settings.costReductionRate s.settings.baseCostYear).2 hdefined.costs
    obtain ⟨f, hphase⟩ := (phaseIn_returns_iff period s.settings.phaseIn).2 hdefined.phase
    obtain ⟨hfinite, hf⟩ := Adjust.phaseIn_not_negative hforwards hphase
    have hprice := s.outcome_effectivePrice_of_ok hdecline region
    refine ⟨_, _, hprice, outcome_reduction_of_eq_zero hfinal hprice hphase, ?_, ?_⟩
    · intro hfalls
      exact mul_not_negative (keptReduction_not_negative hvalues hfalls) hf
    · intro hlooked
      exact isNaN_mul_of_isFinite (isFinite_keptReduction hlooked) hfinite
  · intro s e calls hcurve hvalues hfinal hrate
    have hc : s.curve.Ascending := by
      rw [hcurve]
      exact Curve.ascending_empty.addAll fun _ _ => rfl
    obtain ⟨d, hdecline, -⟩ :=
      Adjust.exists_costDecline e.horizon period hrate s.settings.baseCostYear
    obtain ⟨f, hphase, hf⟩ := Adjust.exists_phaseIn_neg_iff period s.settings.phaseIn
    have hprice := s.outcome_effectivePrice_of_ok hdecline region
    have hfinal : Scalar.eq s.settings.finalReduction Scalar.zero = true := by simpa using hfinal
    refine ⟨_, _, hprice, outcome_reduction_of_eq_zero hfinal hprice hphase, ?_⟩
    have hkept : 0 ≤ s.keptReduction (s.shiftedPrice e region period * d) :=
      keptReduction_mem hc Set.ordConnected_Ici Set.self_mem_Ici hvalues _
    rw [← hf, not_lt]
    generalize s.keptReduction (s.shiftedPrice e region period * d) = kept at hkept ⊢
    constructor
    · intro hr
      rcases hkept.eq_or_lt with hzero | hpos
      · exact .inr hzero.symm
      · exact .inl (nonneg_of_mul_nonneg_right hr hpos)
    · intro hleft
      rcases hleft with hpositive | hzero
      · exact mul_nonneg hkept hpositive
      · rw [hzero, zero_mul]

/-- A price of fifty in every period. -/
def fiftyThroughout : Economy Float :=
  ⟨Constants.default, threeYears,
    .ofRows (threeYears.periods.map fun period => (⟨some "CO2", some "USA", period⟩, 50))⟩

/-- A curve that falls, phased in over four periods. -/
def fallingPhasedIn : Strategy Float :=
  ⟨"CO2", { Settings.default threeYears with phaseIn := 4 }, ⟨[⟨0, 0.5⟩, ⟨100, 0.25⟩]⟩⟩

theorem fallsSafely_fallingPhasedIn : fallingPhasedIn.curve.FallsSafely 50 := by
  intro low high hnext _ _ _
  obtain ⟨rfl, rfl⟩ : low = ⟨0, 0.5⟩ ∧ high = ⟨100, 0.25⟩ := by
    simpa [Curve.Neighbours, fallingPhasedIn, List.infix_cons_iff] using hnext
  decide +kernel

/-- A curve that falls, with every adjustment but technology change. -/
def fallingForGood : Strategy Rat :=
  { falling with settings := { falling.settings with finalReduction := 0 } }

theorem reduction_not_negative_falling :
    (∃ r, (fallingPhasedIn.reduction fiftyThroughout "USA" 2).outcome = .ok r ∧
      Scalar.lt r Scalar.zero = false ∧ Scalar.isNaN r = false) ∧
    ∃ r, (fallingForGood.reduction
        ⟨⟨"CO2", 3 / 5, 1, 1⟩, threeYears, .ofRows [(⟨some "CO2", some "USA", 1⟩, 80)]⟩
        "USA" 1).outcome = .ok r ∧ 0 ≤ r := by
  constructor
  · have hfits : FitsDouble (2 - 1) := by
      show (1 : Nat) < 2 ^ 1024 - 2 ^ 970
      decide +kernel
    have hdefined : fallingPhasedIn.Defined fiftyThroughout 2 :=
      ⟨.inl rfl, fun _ _ => hfits, fun h => absurd h (by decide +kernel)⟩
    obtain ⟨price, r, hprice, hr, hsign, hnumber⟩ := (reduction_not_negative "USA" 2).1
      fallingPhasedIn fiftyThroughout (by decide +kernel) rfl hdefined
      fun h => absurd h.1 (by decide)
    have hfifty : (fallingPhasedIn.effectivePrice fiftyThroughout "USA" 2).outcome =
        .ok (50 * 1) := rfl
    rw [hfifty] at hprice
    cases hprice
    rw [show fallingPhasedIn.cappedPrice (50 * 1) = 50 from rfl] at hsign
    exact ⟨r, hr, hsign fallsSafely_fallingPhasedIn, hnumber (by decide +kernel)⟩
  · obtain ⟨price, r, -, hr, hsign⟩ := (reduction_not_negative "USA" 1).2 fallingForGood
      ⟨⟨"CO2", 3 / 5, 1, 1⟩, threeYears, .ofRows [(⟨some "CO2", some "USA", 1⟩, 80)]⟩
      [(50, 3 / 5), (0, 1 / 5), (100, 2 / 5)] rfl (by decide +kernel) rfl (by decide +kernel)
    exact ⟨r, hr, hsign.2 (.inl fun h => absurd h.1 (by decide))⟩

/-- What is read from a document of control points alone. -/
def onlyPoints : Attempt (Strategy Float) :=
  (fresh threeYears "CO2").parse
    [fieldItem reductionField
      (.list [.list [.int 0, .int 0], .list [.int 100, .float 0.5]])]

/-- The document is read without a report and leaves every setting at its default, and a price in
the base period gives a reduction below zero. -/
theorem reduction_negative_in_base_period :
    ∃ s, onlyPoints.outcome = .ok s ∧ onlyPoints.log = [] ∧
      (∀ p ∈ s.curve.points, Scalar.lt p.y Scalar.zero = false) ∧
      s.settings = Settings.default threeYears ∧ 0 ∈ threeYears.periods ∧
      ∃ r, (s.reduction fiftyThroughout "USA" 0).outcome = .ok r ∧
        Scalar.lt r Scalar.zero = true :=
  ⟨_, rfl, rfl, by decide +kernel, rfl, by decide, _, rfl, by decide +kernel⟩

end Strategy

end Macc
