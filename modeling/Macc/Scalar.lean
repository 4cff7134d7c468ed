import Macc.Binary64.Nearest
import Macc.Decimal.Notation
import Macc.Failure

/-!
# The numbers an evaluation computes with

Curves, prices and settings are written once, over any type of numbers with the
operations below. Runs use doubles. Statements about the shape of the result
(monotone in the price, bounded by the curve) are about the same definitions
over the rationals, where the operations are exact.

What can fail says so in its type: an integer may be too large for the type, a
quotient may have no value, a power may be out of range.
-/

namespace Macc

class Scalar (α : Type) extends Add α, Sub α, Mul α, Div α where
  zero : α
  half : α
  one : α
  lt : α → α → Bool
  eq : α → α → Bool
  isNaN : α → Bool
  /-- The number nearest to an integer. -/
  ofInt : Int → Except Failure α
  /-- Whether an integer is below a number, compared exactly. -/
  ltInt : Int → α → Bool
  /-- A number multiplied by itself, at least once. -/
  pow : α → Nat → Except Failure α
  /-- The text of a number. -/
  text : α → String

namespace Scalar

variable {α : Type} [Scalar α]

def quotient (a b : α) : Except Failure α :=
  if eq b zero then .error .divisionByZero else .ok (a / b)

/-- The larger of two numbers, the first one unless the second is above it. -/
def larger (a b : α) : α :=
  if lt a b then b else a

/-- The smaller of two numbers, the first one unless the second is below it. -/
def smaller (a b : α) : α :=
  if lt b a then b else a

end Scalar

/-! ## Doubles -/

/-- The double nearest to an integer that is in range. -/
def floatOfInt (n : Int) : Except Failure Float :=
  let x := Binary64.ofInt n
  if x.isInf then .error .integerTooLarge else .ok x

def isOddFloat (x : Float) : Bool :=
  match Binary64.ofFloat x with
  | .finite _ m e =>
    if 0 < e then false
    else m % Nat.pow 2 (-e).toNat == 0 && m / Nat.pow 2 (-e).toNat % 2 == 1
  | _ => false

/-- A power of a double with a positive integer exponent, which is itself rounded to a double. Nan,
infinities, zeros and ones are decided by rule; a finite base with an infinite power is refused. -/
def floatPower (base : Float) (n : Nat) : Except Failure Float := do
  let exponent ← floatOfInt n
  let odd := isOddFloat exponent
  let negative := (Binary64.ofFloat base).isNegative
  let signed := fun x : Float => if negative && odd then -x else x
  if base.isNaN then pure base
  else if base.isInf || base == 0 then pure (signed base.abs)
  else if base.abs == 1 then pure (signed 1)
  else
    let power := Float.pow base.abs exponent
    if power.isInf then throw .powerOverflow else pure (signed power)

/-- The integer that is left when what stands after the point is dropped. -/
def truncateFloat (x : Float) : Except Failure Int :=
  match (Binary64.ofFloat x).truncate? with
  | some n => .ok n
  | none => .error (if x.isNaN then .nanInteger else .infiniteInteger)

instance : Scalar Float where
  zero := 0
  half := 0.5
  one := 1
  lt a b := a < b
  eq a b := a == b
  isNaN := Float.isNaN
  ofInt := floatOfInt
  ltInt n x := (Binary64.ofFloat x).ltInt n
  pow := floatPower
  text := Decimal.floatText

/-! ## Rationals -/

/-- The text of a rational, as a fraction when it is no integer. -/
def ratText (q : Rat) : String :=
  if q.den = 1 then toString q.num else toString q.num ++ "/" ++ toString q.den

instance : Scalar Rat where
  zero := 0
  half := 1 / 2
  one := 1
  lt a b := a < b
  eq a b := a == b
  isNaN _ := false
  ofInt n := .ok n
  ltInt n q := (n : Rat) < q
  pow q n := .ok (q ^ n)
  text := ratText

end Macc
