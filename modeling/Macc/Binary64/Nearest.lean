import Macc.Binary64

/-!
# The double nearest to a fraction

Reading a number and turning an integer into a double are the same question:
which double is nearest to a non-negative fraction. It is answered exactly: the
exponent is the least that leaves at most fifty-three bits, the quotient is
rounded with ties to the even neighbour, and the bits are put together so that a
carry out of the mantissa moves into the exponent by itself.
-/

namespace Macc.Binary64

/-- The quotient rounded to the nearest natural, an exact half to the even one. -/
def roundQuotient (num den : Nat) : Nat :=
  let quotient := num / den
  let rest := 2 * (num % den)
  if rest < den then quotient
  else if den < rest then quotient + 1
  else quotient + quotient % 2

/-- The exponent of the last bit kept of `num / den`: the fraction is below `2 ^ 53` of it, and it
is not below that of the smallest doubles. -/
def lastPlace (num den : Nat) : Int :=
  let low := (num.log2 : Int) - den.log2 - 53
  let fits := if 0 ≤ low + 53 then num < den * Nat.pow 2 (low + 53).toNat
    else num * Nat.pow 2 (-(low + 53)).toNat < den
  max (-1074) (if fits then low else low + 1)

/-- The bits of the double nearest to `num / den`; beyond the largest double, those of infinity. -/
def nearestBits (num den : Nat) : Nat :=
  if num = 0 then 0
  else
    let place := lastPlace num den
    let mantissa :=
      roundQuotient (num * Nat.pow 2 (-place).toNat) (den * Nat.pow 2 place.toNat)
    let field := (place + 1074).toNat
    min (field * Nat.pow 2 52 + mantissa) (0x7ff * Nat.pow 2 52)

def nearest (negative : Bool) (num den : Nat) : Float :=
  let bits := nearestBits num den
  Float.ofBits (UInt64.ofNat (if negative then bits + Nat.pow 2 63 else bits))

/-- The double nearest to an integer; an infinity when the integer is out of range. -/
def ofInt (n : Int) : Float :=
  nearest (n < 0) n.natAbs 1

end Macc.Binary64
