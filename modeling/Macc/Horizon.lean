import Macc.Value.Reading

/-!
# Model years and periods

A horizon is a list of model years, strictly ascending and not empty; a period is
a position in it, counted from zero. Every calendar year belongs to a period: the
first one whose year is not before it, and the last one when the year is after
the horizon. Since the years ascend, it is looked for by halving.
-/

namespace Macc

/-- Whether each year is before the next. -/
def isIncreasing : List Int → Bool
  | a :: b :: rest => a < b && isIncreasing (b :: rest)
  | _ => true

structure Horizon where
  years : List Int
  nonempty : years ≠ []
  increasing : isIncreasing years = true

namespace Horizon

/-- Why years that do not ascend make no horizon. The message lists the years, so what cannot be
written fails in another way; so does the message about a period. -/
def notIncreasing (years : List Value) : Failure :=
  if (Value.list years).isWritable then .yearsNotIncreasing years else .unwritableInteger

/-- Why there is no year for a period, where there are `count` of them. -/
def outside (count : Nat) (period : Int) : Failure :=
  if (Value.int period).isWritable then .outsideHorizon period (count - 1) else .unwritableInteger

/-- The horizon of some years, which must exist and ascend. -/
def ofYears (years : List Int) : Except Failure Horizon :=
  if nonempty : years = [] then .error .noYears
  else if increasing : isIncreasing years = true then .ok ⟨years, nonempty, increasing⟩
  else .error (notIncreasing (years.map .int))

def count (h : Horizon) : Nat :=
  h.years.length

def periods (h : Horizon) : List Int :=
  (List.range h.count).map fun k : Nat => (k : Int)

def baseYear (h : Horizon) : Int :=
  h.years.head h.nonempty

def endYear (h : Horizon) : Int :=
  h.years.getLast h.nonempty

/-- The one of `years` that a period stands for. -/
def yearAt {α : Type} (years : List α) (period : Int) : Except Failure α :=
  match (if period < 0 then none else years[period.toNat]?) with
  | some year => .ok year
  | none => .error (outside years.length period)

def yearOf (h : Horizon) (period : Int) : Except Failure Int :=
  yearAt h.years period

/-- The first place between `low` and `high` whose year is not `before` the one looked for, or
`high`; the years must ascend. -/
def search {α : Type} (before : α → Bool) (years : List α) (low high : Nat)
    (inside : high ≤ years.length) : Nat :=
  if _ : low < high then
    let middle := (low + high) / 2
    have : middle < years.length := by omega
    if before years[middle] then search before years (middle + 1) high inside
    else search before years low middle (by omega)
  else low
termination_by high - low

/-- The place of the first model year that is not before a year, or the number of model years. -/
def place (h : Horizon) (year : Int) : Nat :=
  search (fun y => decide (y < year)) h.years 0 h.years.length (Nat.le_refl _)

/-- The period that a year belongs to. -/
def periodOf (h : Horizon) (year : Int) : Nat :=
  min (h.place year) (h.count - 1)

end Horizon

end Macc
