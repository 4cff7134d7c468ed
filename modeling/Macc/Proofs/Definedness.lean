import Macc.Proofs.Double.Integers
import Macc.Proofs.Evaluation
import Macc.Reduction.Fields

/-!
# When an evaluation has a result

An evaluation reports what it has no value for and goes on with a default. Of
its arithmetic this is true of the technology ramp only: a ramp without length
is reported and skipped. Three other places can stop it. The growth of costs may
be zero, so that nothing can be divided by it, or beyond all doubles; and a
number of periods may be too large to be a double, in the phase-in and in the
ramp.

Each place is settled by itself, as the exact condition under which it has a
value, and an evaluation has a result exactly when all three have one. The price
and the curve add no condition of their own.
-/

namespace Macc

/-! ## The places that can fail -/

theorem floatOfInt_of_not_fits {n : Int} (h : ¬FitsDouble n) :
    floatOfInt n = .error .integerTooLarge := by
  rw [floatOfInt, (isInf_ofInt_iff n).2 h]
  rfl

/-- A chain of computations returns if each one does on what the one before it returned. -/
theorem exists_bind_iff {ε α β : Type} {x : Except ε α} {f : α → Except ε β} :
    (∃ b, (x >>= f) = .ok b) ↔ ∃ a, x = .ok a ∧ ∃ b, f a = .ok b := by
  constructor
  · rintro ⟨b, hb⟩
    obtain ⟨a, ha, hb⟩ := bind_eq_ok_iff.1 hb
    exact ⟨a, ha, b, hb⟩
  · rintro ⟨a, ha, b, hb⟩
    exact ⟨b, bind_eq_ok_iff.2 ⟨a, ha, hb⟩⟩

theorem quotient_returns_iff (a b : Float) :
    (∃ q, Scalar.quotient a b = .ok q) ↔ Scalar.eq b Scalar.zero = false := by
  rw [Scalar.quotient]
  cases Scalar.eq b Scalar.zero with
  | true => simp
  | false => simp

theorem quotient_settles (a b : Float) :
    (∃ q, Scalar.quotient a b = .ok q) ∨ Scalar.quotient a b = .error .divisionByZero := by
  rw [Scalar.quotient]
  split
  · exact .inr rfl
  · exact .inl ⟨_, rfl⟩

/-- The growth of costs over the years since they began to decline is a number that can be divided
by. -/
def CostsDefined (h : Horizon) (period : Int) (rate : Float) (baseYear : Int) : Prop :=
  Scalar.eq rate Scalar.zero = true ∨ ∀ year, h.yearOf period = .ok year → baseYear < year →
    ∃ growth, floatPower (1 + rate) (year - baseYear).toNat = .ok growth ∧
      Scalar.eq growth Scalar.zero = false

theorem costDecline_returns_iff (h : Horizon) (period : Int) (rate : Float) (baseYear : Int) :
    (∃ d, (Adjust.costDecline h period rate baseYear).outcome = .ok d) ↔
      CostsDefined h period rate baseYear := by
  rw [Adjust.outcome_costDecline, CostsDefined]
  split
  · next hrate => exact iff_of_true ⟨_, rfl⟩ (.inl hrate)
  · next hrate =>
      rw [or_iff_right hrate]
      cases h.yearOf period with
      | error cause =>
          refine iff_of_true ⟨_, rfl⟩ fun year hyear => ?_
          cases hyear
      | ok year =>
          dsimp only
          split
          · next hlater =>
              rw [exists_bind_iff]
              simp only [quotient_returns_iff]
              constructor
              · rintro hgrowth year' hyear -
                cases hyear
                exact hgrowth
              · intro hgrowth
                exact hgrowth year rfl (by omega)
          · next hlater =>
              refine iff_of_true ⟨_, rfl⟩ fun year' hyear hlt => ?_
              cases hyear
              omega

/-- Where the phase-in divides by its length, the periods that have passed are a double. -/
def PhaseDefined (period : Int) (periods : Float) : Prop :=
  Scalar.ltInt (period - 1) periods = true → Scalar.lt periods Scalar.one = false →
    FitsDouble (period - 1)

theorem phaseIn_returns_iff (period : Int) (periods : Float) :
    (∃ f, Adjust.phaseIn period periods = .ok f) ↔ PhaseDefined period periods := by
  rw [Adjust.phaseIn, PhaseDefined]
  split
  · next hwithin =>
      obtain ⟨hlt, hlong⟩ := Bool.and_eq_true_iff.1 hwithin
      rw [exists_bind_iff]
      have hfits := floatOfInt_ok_iff (period - 1)
      constructor
      · rintro ⟨passed, hpassed, -⟩ - -
        exact hfits.1 ⟨passed, hpassed⟩
      · intro hdefined
        obtain ⟨passed, hpassed⟩ := hfits.2 (hdefined hlt (by simpa using hlong))
        exact ⟨passed, hpassed, _, rfl⟩
  · next hwithin =>
      refine iff_of_true ⟨_, rfl⟩ fun hlt hlong => ?_
      rw [hlt, hlong] at hwithin
      exact absurd rfl hwithin

/-- Where the ramp divides by its length, both distances from the start period are doubles. -/
def RampDefined (constants : Constants Float) (period finalPeriod : Int) (final : Float) : Prop :=
  Scalar.eq final Scalar.zero = false → period ≤ finalPeriod →
    FitsDouble (period - constants.techChangeStartPeriod) ∧
      FitsDouble (finalPeriod - constants.techChangeStartPeriod)

/-- The ramp has a value or a length of zero, unless a distance is too large. -/
theorem technologyRamp_settles_iff (constants : Constants Float) (period finalPeriod : Int)
    (most final : Float) :
    ((∃ f, Adjust.technologyRamp constants period finalPeriod most final = .ok f) ∨
        Adjust.technologyRamp constants period finalPeriod most final = .error .divisionByZero) ↔
      RampDefined constants period finalPeriod final := by
  have hpassed := floatOfInt_ok_iff (period - constants.techChangeStartPeriod)
  have hwhole := floatOfInt_ok_iff (finalPeriod - constants.techChangeStartPeriod)
  rw [Adjust.technologyRamp, RampDefined, Scalar.quotient]
  cases Scalar.eq final Scalar.zero with
  | true => exact iff_of_true (.inr rfl) (fun h => Bool.noConfusion h)
  | false =>
      rw [if_neg Bool.false_ne_true, ok_bind]
      split
      · next hwithin =>
          -- the two distances are turned into doubles one after the other
          by_cases hfits : FitsDouble (period - constants.techChangeStartPeriod)
          · obtain ⟨x, hx⟩ := hpassed.2 hfits
            rw [show Scalar.ofInt (period - constants.techChangeStartPeriod) = .ok x from hx,
              ok_bind]
            by_cases hfits' : FitsDouble (finalPeriod - constants.techChangeStartPeriod)
            · obtain ⟨y, hy⟩ := hwhole.2 hfits'
              rw [show Scalar.ofInt (finalPeriod - constants.techChangeStartPeriod) = .ok y from hy]
              exact iff_of_true (quotient_settles _ _) fun _ _ => ⟨hfits, hfits'⟩
            · rw [show (Scalar.ofInt (finalPeriod - constants.techChangeStartPeriod) :
                Except Failure Float) = _ from floatOfInt_of_not_fits hfits']
              refine iff_of_false ?_ fun h => hfits' (h rfl hwithin).2
              rintro (⟨f, hf⟩ | hf) <;> cases hf
          · rw [show (Scalar.ofInt (period - constants.techChangeStartPeriod) :
              Except Failure Float) = _ from floatOfInt_of_not_fits hfits]
            refine iff_of_false ?_ fun h => hfits (h rfl hwithin).1
            rintro (⟨f, hf⟩ | hf) <;> cases hf
      · next hwithin => exact iff_of_true (.inl ⟨_, rfl⟩) fun _ h => absurd h hwithin

/-! ## The evaluation -/

namespace Strategy

/-- Every number that an evaluation divides by or turns into a double is one that it can use. -/
structure Defined (s : Strategy Float) (e : Economy Float) (period : Int) : Prop where
  costs : CostsDefined e.horizon period s.settings.costReductionRate s.settings.baseCostYear
  phase : PhaseDefined period s.settings.phaseIn
  ramp : Scalar.lt s.mostReduction.value s.settings.finalReduction = true →
    1 < e.horizon.periodOf s.settings.finalReductionYear →
    RampDefined e.constants period (e.horizon.periodOf s.settings.finalReductionYear)
      s.settings.finalReduction

theorem afterTechnology_returns_iff (s : Strategy Float) (e : Economy Float) (period : Int)
    (most reduction : Float) :
    (∃ x, (s.afterTechnology e period most reduction).outcome = .ok x) ↔
      (Scalar.lt most s.settings.finalReduction = true →
        1 < e.horizon.periodOf s.settings.finalReductionYear →
        RampDefined e.constants period (e.horizon.periodOf s.settings.finalReductionYear)
          s.settings.finalReduction) := by
  have hsettles := technologyRamp_settles_iff e.constants period
    (e.horizon.periodOf s.settings.finalReductionYear) most s.settings.finalReduction
  rw [outcome_afterTechnology]
  split
  · next hacts =>
      obtain ⟨hmost, hlate⟩ := Bool.and_eq_true_iff.1 hacts
      have hlate := of_decide_eq_true hlate
      rw [show (Scalar.lt most s.settings.finalReduction = true → _ → _) ↔ _ from
        ⟨fun h => h hmost hlate, fun h _ _ => h⟩, ← hsettles]
      generalize Adjust.technologyRamp e.constants period
        (e.horizon.periodOf s.settings.finalReductionYear) most s.settings.finalReduction = ramp
      split
      · next factor => exact iff_of_true ⟨_, rfl⟩ (.inl ⟨factor, rfl⟩)
      · exact iff_of_true ⟨_, rfl⟩ (.inr rfl)
      · next failure hother =>
          refine iff_of_false ?_ ?_
          · rintro ⟨x, hx⟩
            cases hx
          · rintro (⟨f, hf⟩ | hf)
            · cases hf
            · cases hf
              exact hother rfl
  · next hrests =>
      refine iff_of_true ⟨_, rfl⟩ fun hmost hlate => ?_
      rw [hmost, decide_eq_true hlate] at hrests
      exact absurd rfl hrests

/-- What the end of an evaluation reports is in the reports of the whole. -/
theorem mem_log_reduction {s : Strategy Float} {e : Economy Float} {region : String} {period : Int}
    {price phase : Float} (hprice : (s.effectivePrice e region period).outcome = .ok price)
    (hphase : Adjust.phaseIn period s.settings.phaseIn = .ok phase) {n : Notice}
    (hn : ∀ reduction, n ∈ (s.afterTechnology e period s.mostReduction.value reduction).log) :
    n ∈ (s.reduction e region period).log := by
  have hlift : (liftM (Adjust.phaseIn period s.settings.phaseIn) : Attempt Float).outcome =
      .ok phase := hphase
  rw [reduction, Attempt.log_bind hprice, Attempt.log_bind (Attempt.outcome_ofLogged _),
    Attempt.log_bind (Attempt.outcome_ofLogged _), Attempt.log_bind hlift]
  exact List.mem_append_right _ (List.mem_append_right _ (List.mem_append_right _
    (List.mem_append_right _ (hn _))))

/-- A ramp that divides by zero is reported. -/
theorem mem_log_afterTechnology (s : Strategy Float) (e : Economy Float) (period : Int)
    {most : Float} (reduction : Float)
    (hmost : Scalar.lt most s.settings.finalReduction = true)
    (hlate : 1 < e.horizon.periodOf s.settings.finalReductionYear)
    (hramp : Adjust.technologyRamp e.constants period
      (e.horizon.periodOf s.settings.finalReductionYear) most s.settings.finalReduction =
        .error .divisionByZero) :
    .undefinedRamp s.name (e.horizon.periodOf s.settings.finalReductionYear) ∈
      (s.afterTechnology e period most reduction).log := by
  rw [afterTechnology]
  simp only [hmost, hlate, hramp, decide_true, Bool.and_self, if_true]
  exact List.mem_singleton.2 rfl

/-- An evaluation returns a reduction exactly when its divisions and conversions are defined. A
ramp that divides by zero is no obstacle: it is reported. -/
theorem reduction_returns_iff (s : Strategy Float) (e : Economy Float) (region : String)
    (period : Int) :
    ((∃ x, (s.reduction e region period).outcome = .ok x) ↔ s.Defined e period) ∧
      (s.Defined e period →
        Scalar.lt s.mostReduction.value s.settings.finalReduction = true →
        1 < e.horizon.periodOf s.settings.finalReductionYear →
        Adjust.technologyRamp e.constants period
          (e.horizon.periodOf s.settings.finalReductionYear) s.mostReduction.value
          s.settings.finalReduction = .error .divisionByZero →
        .undefinedRamp s.name (e.horizon.periodOf s.settings.finalReductionYear) ∈
          (s.reduction e region period).log) := by
  have hcosts := costDecline_returns_iff e.horizon period s.settings.costReductionRate
    s.settings.baseCostYear
  have hphase := phaseIn_returns_iff period s.settings.phaseIn
  refine ⟨⟨?_, ?_⟩, ?_⟩
  · rw [outcome_reduction]
    intro hreturns
    obtain ⟨price, hprice, hreturns⟩ := exists_bind_iff.1 hreturns
    obtain ⟨phase, hpassed, hreturns⟩ := exists_bind_iff.1 hreturns
    rw [outcome_effectivePrice] at hprice
    obtain ⟨decline, hdecline, -⟩ := bind_eq_ok_iff.1 hprice
    exact ⟨hcosts.1 ⟨decline, hdecline⟩, hphase.1 ⟨phase, hpassed⟩,
      (s.afterTechnology_returns_iff e period _ _).1 hreturns⟩
  · intro hdefined
    obtain ⟨decline, hdecline⟩ := hcosts.2 hdefined.costs
    obtain ⟨phase, hpassed⟩ := hphase.2 hdefined.phase
    rw [outcome_reduction, outcome_effectivePrice, hdecline, hpassed]
    exact (s.afterTechnology_returns_iff e period _ _).2 hdefined.ramp
  · intro hdefined hmost hlate hramp
    obtain ⟨decline, hdecline⟩ := hcosts.2 hdefined.costs
    obtain ⟨phase, hpassed⟩ := hphase.2 hdefined.phase
    have hprice : (s.effectivePrice e region period).outcome =
        .ok (s.shiftedPrice e region period * decline) := by
      rw [outcome_effectivePrice, hdecline]
      rfl
    exact mem_log_reduction hprice hpassed fun reduction =>
      s.mem_log_afterTechnology e period reduction hmost hlate hramp

def threeYears : Horizon :=
  ⟨[2005, 2010, 2015], by decide, by decide⟩

/-- What is read from a document whose costs decline by the whole each year. -/
def fullDecline : Attempt (Strategy Float) :=
  (fresh threeYears "CO2").parse
    [fieldItem "costReductionRate" (.int (-1)),
      fieldItem reductionField
        (.list [.list [.int 0, .int 0], .list [.int 100, .float 0.5]])]

/-- The document is read without a report, and evaluating it in a period of the horizon fails. -/
theorem reduction_fails_on_full_decline :
    ∃ s, fullDecline.outcome = .ok s ∧ fullDecline.log = [] ∧ 1 ∈ threeYears.periods ∧
      (s.reduction ⟨Constants.default, threeYears, .ofRows [(⟨some "CO2", some "USA", 1⟩, 50)]⟩
        "USA" 1).outcome = .error .divisionByZero :=
  ⟨_, rfl, rfl, by decide, rfl⟩

end Strategy

end Macc
