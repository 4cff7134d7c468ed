/-!
# What the bits of a double say

Text, truncation and comparison with integers are decided on the exact value of
a double, and that value is read off its bits once, here: a sign, a natural
mantissa and a power of two, or one of the values that are no number on the
line. Every exact question about a double goes through this reading, so that it
is a question about integers.
-/

namespace Macc

/-- The exact value of a double: `± mantissa · 2 ^ exponent`, an infinity, or not a number. -/
inductive Binary64 where
  | nan
  | infinite (negative : Bool)
  | finite (negative : Bool) (mantissa : Nat) (exponent : Int)
  deriving Repr, DecidableEq

namespace Binary64

def ofBits (bits : UInt64) : Binary64 :=
  let negative := bits >>> 63 == 1
  let biased := ((bits >>> 52) &&& 0x7ff).toNat
  let fraction := (bits &&& 0xfffffffffffff).toNat
  if biased = 0x7ff then
    if fraction = 0 then .infinite negative else .nan
  else if biased = 0 then .finite negative fraction (-1074)
  else .finite negative (fraction + Nat.pow 2 52) (biased - 1075)

def ofFloat (x : Float) : Binary64 :=
  ofBits x.toBits

/-- The integer next to `mantissa · 2 ^ exponent` towards zero. -/
def floorScaled (mantissa : Nat) (exponent : Int) : Nat :=
  if 0 ≤ exponent then mantissa * Nat.pow 2 exponent.toNat
  else mantissa / Nat.pow 2 (-exponent).toNat

/-- The integer part, dropping what stands after the point; none for the infinities and nan. -/
def truncate? : Binary64 → Option Int
  | .finite true m e => some (-(floorScaled m e : Int))
  | .finite false m e => some (floorScaled m e)
  | _ => none

def isInteger : Binary64 → Bool
  | .finite _ m e => 0 ≤ e || m % Nat.pow 2 (-e).toNat == 0
  | _ => false

/-- Whether the integer `n` is below the value, compared exactly. -/
def ltInt (n : Int) : Binary64 → Bool
  | .nan => false
  | .infinite negative => !negative
  | .finite negative m e =>
    let signed : Int := if negative then -m else m
    if 0 ≤ e then n < signed * Nat.pow 2 e.toNat else n * Nat.pow 2 (-e).toNat < signed

/-- Whether the value is negative; a negative zero is. -/
def isNegative : Binary64 → Bool
  | .nan => false
  | .infinite negative => negative
  | .finite negative _ _ => negative

end Binary64

end Macc
