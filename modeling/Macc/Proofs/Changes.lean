import Macc.Curve.Reading
import Macc.Proofs.FieldRoundTrip

/-!
# Strategies that were changed and are written

A strategy that is made anew has no points and the settings of its horizon. From
there it changes by fields that are read and by control points that are added,
in any order and number, and a change that fails leaves it as it was. Whatever
comes of that can be written as fields, and a new strategy that reads them
becomes the same one.

That it does is a fact about single changes. `WasRead` says that the settings
are fixed points of their readers and that the points ascend as long as each of
them stands at a number; both kinds of change keep it, and writing and reading
needs no more. The name takes no part: fields do not hold it.
-/

namespace Macc

namespace Strategy

/-- What may be done to a strategy after it was made. -/
inductive Change where
  | parse (fields : List Value)
  | addPoint (x y : Value)

def attempt (s : Strategy Float) : Change → Attempt (Strategy Float)
  | .parse fields => s.parse fields
  | .addPoint x y => do
    let curve ← s.curve.addValues x y
    return { s with curve }

/-- The strategy after a change; a change that fails leaves it as it was. -/
def changed (s : Strategy Float) (c : Change) : Strategy Float :=
  match (s.attempt c).outcome with
  | .ok t => t
  | .error _ => s

variable {h : Horizon} {name : String}

theorem WasRead.attempt {s t : Strategy Float} (hs : s.WasRead h name) {c : Change}
    (hchange : (s.attempt c).outcome = .ok t) : t.WasRead h name := by
  cases c with
  | parse fields =>
      have hstart : { s with curve := Curve.empty }.WasRead h name :=
        ⟨hs.name_eq, hs.readable, Curve.orderly_empty⟩
      exact Attempt.foldlM_invariant (fun _ _ _ hs hread => hs.readField hread) hstart hchange
  | addPoint x y =>
      obtain ⟨curve, hadd, ht⟩ := Attempt.outcome_bind_eq_ok_iff.1 hchange
      cases ht
      obtain ⟨px, -, hadd⟩ := Attempt.outcome_bind_eq_ok_iff.1 hadd
      obtain ⟨py, -, hadd⟩ := Attempt.outcome_bind_eq_ok_iff.1 hadd
      rw [Attempt.outcome_ofLogged, Curve.value_add] at hadd
      cases hadd
      exact ⟨hs.name_eq, hs.readable, hs.orderly.insert px py⟩

theorem WasRead.changed {s : Strategy Float} (hs : s.WasRead h name) (c : Change) :
    (s.changed c).WasRead h name := by
  rw [Strategy.changed]
  split
  · next t ht => exact hs.attempt ht
  · exact hs

theorem WasRead.foldl_changed {s : Strategy Float} (hs : s.WasRead h name)
    (history : List Change) : (history.foldl Strategy.changed s).WasRead h name := by
  induction history generalizing s with
  | nil => exact hs
  | cons c rest ih => exact ih (hs.changed c)

theorem WasRead.renamed {s : Strategy Float} (hs : s.WasRead h name) (other : String) :
    { s with name := other }.WasRead h other :=
  ⟨rfl, hs.readable, hs.orderly⟩

/-- Whatever has become of a new strategy, what is written of it is read without a report by
another new strategy, which then has the same settings up to the sign of a zero, the same points and
the same fields, and abates the same. -/
theorem parseTable_toFields_of_changes (h : Horizon) (name other : String)
    (history : List Change) (s : Strategy Float)
    (hs : s = history.foldl changed (fresh h name))
    (hnumeric : ∀ p ∈ s.curve.points, p.x.isNaN = false) :
    ∃ t, ((fresh h other).parseTable (s.toFields h)).outcome = .ok t ∧
      ((fresh h other).parseTable (s.toFields h)).log = [] ∧
      s.settings.Alike t.settings ∧ t.curve.pairs = s.curve.pairs ∧
      t.toFields h = s.toFields h ∧
      ∀ (e : Economy Float) (region : String) (period : Int),
        (t.reduction e region period).outcome = (s.reduction e region period).outcome := by
  have hread : s.WasRead h name := by
    rw [hs]
    exact (wasRead_fresh h name).foldl_changed history
  have hparse := parseTable_toFields (hread.renamed other) hnumeric
  change (fresh h other).parseTable (s.toFields h) = _ at hparse
  have halike := Settings.alike_restored h s.settings
  refine ⟨restored h { s with name := other }, ?_, ?_, halike, rfl, ?_, ?_⟩
  · rw [hparse]
    rfl
  · rw [hparse]
    rfl
  · exact toFields_restored { s with name := other }
  · intro e region period
    have hsame := outcome_reduction_congr (s := s) (t := restored h { s with name := other })
      halike rfl e region period
    exact hsame.symm

/-- Fields in several spellings, one of them refused, then a point beyond the curve, a field that
stops the reading, and a point that is no number. -/
def someChanges : List Change :=
  [.parse [fieldItem "phase_in" (.text " 3 "), fieldItem "finalReductionYear" (.float 2010),
      fieldItem "costReductionRate" (.float (-0.0)), fieldItem "noBelowZero" (.text "maybe"),
      fieldItem "fuelShiftRange" (.text "nan"), fieldItem "curveShiftFuelName" (.text " coal "),
      fieldItem "reduction" (.list [.list [.int 100, .float 0.5], .list [.int 0, .float (-0.0)]])],
    .addPoint (.int 200) (.text "0.75"),
    .parse [fieldItem "phaseIn" (.int (10 ^ 400))],
    .addPoint (.text "high") (.int 1)]

def someYears : Horizon := ⟨[2005, 2010, 2025], List.cons_ne_nil _ _, rfl⟩

theorem parseTable_toFields_of_someChanges :
    ∃ s, s = someChanges.foldl changed (fresh someYears "CO2") ∧
      s.curve.pairs = [(0, -0.0), (100, 0.5), (200, 0.75)] ∧
      (∀ p ∈ s.curve.points, p.x.isNaN = false) ∧
      ∃ t, ((fresh someYears "MAC").parseTable (s.toFields someYears)).outcome = .ok t ∧
        ((fresh someYears "MAC").parseTable (s.toFields someYears)).log = [] ∧
        s.settings.Alike t.settings ∧ t.curve.pairs = s.curve.pairs ∧
        t.toFields someYears = s.toFields someYears ∧
        ∀ (e : Economy Float) (region : String) (period : Int),
          (t.reduction e region period).outcome = (s.reduction e region period).outcome := by
  have hnumeric : ∀ p ∈ (someChanges.foldl changed (fresh someYears "CO2")).curve.points,
      p.x.isNaN = false := by
    decide +kernel
  exact ⟨_, rfl, by decide +kernel, hnumeric,
    parseTable_toFields_of_changes someYears "CO2" "MAC" someChanges _ rfl hnumeric⟩

end Strategy

end Macc
