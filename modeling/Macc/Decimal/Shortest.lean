import Macc.Binary64

/-!
# The shortest decimal that reads back

A double stands for every real that rounds to it: an interval around its exact
value, closed when the mantissa is even. The decimal chosen for it has the
fewest digits of any decimal inside that interval, and among those with as few
digits it is the nearest to the exact value, the even one on a tie.

Only two candidates exist per number of digits, the grid points on either side
of the value: if any grid point lies in the interval, one of these two does. All
comparisons are between naturals, with the denominators cleared once.
-/

namespace Macc.Decimal

/-- The value `coefficient · 10 ^ exponent`. -/
structure Scaled where
  coefficient : Nat
  exponent : Int
  deriving Repr, DecidableEq

/-- The reals that round to one double, as `low / scale`, `value / scale`, `high / scale`. -/
structure Interval where
  low : Nat
  value : Nat
  high : Nat
  scale : Nat
  closed : Bool

/-- The reals that round to `mantissa · 2 ^ exponent`. Below a power of two the neighbouring double
is half as far as above it. -/
def Interval.around (mantissa : Nat) (exponent : Int) : Interval :=
  let below := if mantissa == Nat.pow 2 52 && exponent != -1074 then 1 else 2
  let shift := exponent - 2
  let up := Nat.pow 2 shift.toNat
  { low := (4 * mantissa - below) * up
    value := 4 * mantissa * up
    high := (4 * mantissa + 2) * up
    scale := Nat.pow 2 (-shift).toNat
    closed := mantissa % 2 == 0 }

def digitCount (n : Nat) : Nat :=
  (Nat.toDigits 10 n).length

/-- The least `k` with `value < scale · 10 ^ k`, for a positive value. -/
def Interval.magnitude (i : Interval) : Int :=
  if i.scale ≤ i.value then digitCount (i.value / i.scale)
  else
    let t := digitCount (i.scale / i.value)
    if i.value * Nat.pow 10 (t - 1) < i.scale then 1 - (t : Int) else 2 - (t : Int)

/-- The grid point of step `10 ^ step` that is chosen for the interval, when one lies inside. -/
def Interval.gridPoint? (i : Interval) (step : Int) : Option Nat :=
  let up := Nat.pow 10 (-step).toNat
  let unit := i.scale * Nat.pow 10 step.toNat
  let low := i.low * up
  let value := i.value * up
  let high := i.high * up
  let inside := fun c : Nat =>
    if i.closed then low ≤ c * unit && c * unit ≤ high else low < c * unit && c * unit < high
  let below := value / unit
  let above := below + 1
  match inside below, inside above with
  | false, false => none
  | true, false => some below
  | false, true => some above
  | true, true =>
    let down := value - below * unit
    let gap := above * unit - value
    if down < gap then some below
    else if gap < down then some above
    else if below % 2 == 0 then some below else some above

/-- The first grid with a point in the interval, from `digits` significant digits on. -/
def Interval.search (i : Interval) (magnitude : Int) (digits : Nat) : Nat → Scaled
  | 0 => ⟨i.value / i.scale, 0⟩
  | rounds + 1 =>
    match i.gridPoint? (magnitude - digits) with
    | some c => ⟨c, magnitude - digits⟩
    | none => i.search magnitude (digits + 1) rounds

/-- The shortest decimal that reads back as `mantissa · 2 ^ exponent`. Seventeen digits always
suffice. -/
def shortest (mantissa : Nat) (exponent : Int) : Scaled :=
  if mantissa = 0 then ⟨0, 0⟩
  else
    let i := Interval.around mantissa exponent
    i.search i.magnitude 1 17

end Macc.Decimal
