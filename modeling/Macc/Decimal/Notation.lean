import Macc.Binary64
import Macc.Decimal.Shortest

/-!
# The text of a double

Every number the program writes, in messages, tables and files alike, has one
spelling: the shortest digits that read back, placed by the record `plain`
below. The digits are arithmetic and live in `Decimal.Shortest`; where the point
stands and when an exponent is used are decisions, and they are all here.
-/

namespace Macc.Decimal

/-- Where the point goes: the leading digit's place decides between the two notations. -/
structure Placing where
  /-- The point stands in the digits, or zeros fill up to it, while it lies after at most this many
  digits. -/
  positionalUpTo : Int
  /-- At most this many zeros may stand between the point and the first digit. -/
  leadingZeros : Int
  /-- An exponent has at least this many digits. -/
  exponentWidth : Nat

/-- Numbers are positional from `0.0001` to below `10 ^ 16`, keep `.0` when they are whole, and
otherwise have an exponent of a sign and at least two digits. -/
def plain : Placing :=
  { positionalUpTo := 16, leadingZeros := 3, exponentWidth := 2 }

/-- The digits of a decimal without trailing zeros, and the place of the point counted from before
the first digit. -/
def digitsAndPoint (d : Scaled) : List Char × Int :=
  let all := Nat.toDigits 10 d.coefficient
  let kept := (all.reverse.dropWhile (· == '0')).reverse
  (if kept.isEmpty then ['0'] else kept, d.exponent + all.length)

/-- The digits `ds` with the point after the first `point` of them. -/
def Placing.render (p : Placing) (ds : List Char) (point : Int) : List Char :=
  if -p.leadingZeros ≤ point && point ≤ p.positionalUpTo then
    if point ≤ 0 then '0' :: '.' :: List.replicate (-point).toNat '0' ++ ds
    else
      let whole := point.toNat
      if ds.length ≤ whole then ds ++ List.replicate (whole - ds.length) '0' ++ ['.', '0']
      else ds.take whole ++ '.' :: ds.drop whole
  else
    let exponent := point - 1
    let mark := if exponent < 0 then '-' else '+'
    let digits := Nat.toDigits 10 exponent.natAbs
    let shown := List.replicate (p.exponentWidth - digits.length) '0' ++ digits
    let tail := 'e' :: mark :: shown
    match ds with
    | [] => tail
    | [d] => d :: tail
    | d :: rest => d :: '.' :: rest ++ tail

def textOf : Binary64 → String
  | .nan => "nan"
  | .infinite negative => if negative then "-inf" else "inf"
  | .finite negative m e =>
    let (ds, point) := digitsAndPoint (shortest m e)
    let body := if m = 0 then ['0', '.', '0'] else plain.render ds point
    String.ofList (if negative then '-' :: body else body)

def floatText (x : Float) : String :=
  textOf (.ofFloat x)

end Macc.Decimal
