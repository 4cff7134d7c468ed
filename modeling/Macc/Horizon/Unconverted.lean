import Macc.Horizon

/-!
# Horizons of unconverted years

The years of a configuration are converted to integers before a horizon is made
of them. The making itself expects integers and does not check: it compares
neighbours and converts nothing. Given years with fractions it keeps them, and
given one that is no number it keeps that too, since it is not at or before any
other. A year that is looked for loses its fraction all the same.

Years of other kinds than numbers are left out.
-/

namespace Macc

/-- A year as it is given, whole or not. -/
inductive GivenYear where
  | whole (n : Int)
  | real (x : Float)

namespace GivenYear

def value : GivenYear → Value
  | whole n => .int n
  | real x => .float x

/-- Whether a year is before an integer, compared exactly. -/
def isBefore (year : Int) : GivenYear → Bool
  | whole n => n < year
  | real x => (Binary64.ofFloat (-x)).ltInt (-year)

/-- Whether a year is at or before another one, compared exactly. -/
def atMost : GivenYear → GivenYear → Bool
  | whole n, whole m => n ≤ m
  | whole n, real x => !x.isNaN && !(real x).isBefore n
  | real x, whole n => !x.isNaN && !(Binary64.ofFloat x).ltInt n
  | real x, real y => x ≤ y

end GivenYear

/-- Whether no year is at or before the one in front of it. -/
def neverFalls : List GivenYear → Bool
  | a :: b :: rest => !b.atMost a && neverFalls (b :: rest)
  | _ => true

/-- A horizon whose years are kept as they were given. -/
structure UnconvertedHorizon where
  years : List GivenYear
  nonempty : years ≠ []
  ascending : neverFalls years = true

namespace UnconvertedHorizon

open Horizon (notIncreasing yearAt search)

def ofYears (years : List GivenYear) : Except Failure UnconvertedHorizon :=
  if nonempty : years = [] then .error .noYears
  else if ascending : neverFalls years = true then .ok ⟨years, nonempty, ascending⟩
  else .error (notIncreasing (years.map GivenYear.value))

def yearOf (h : UnconvertedHorizon) (period : Int) : Except Failure GivenYear :=
  yearAt h.years period

/-- The period that a year belongs to; the year is made an integer first. -/
def periodOf (h : UnconvertedHorizon) (year : Value) : Except Failure Nat := do
  let year ← year.toInteger
  return min (search (·.isBefore year) h.years 0 h.years.length (Nat.le_refl _))
    (h.years.length - 1)

end UnconvertedHorizon

end Macc
