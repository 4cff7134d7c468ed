/-!
# Hexadecimal digits of a fixed least width

Escapes in quoted text and the text of a digest share this one spelling: lower
case, padded with zeros on the left.
-/

namespace Macc.Text

/-- `n` in lower-case hexadecimal, with at least `width` digits. -/
def hex (width n : Nat) : List Char :=
  let digits := Nat.toDigits 16 n
  List.replicate (width - digits.length) '0' ++ digits

/-- The value of one hexadecimal digit, in either case. -/
def hexValue? (c : Char) : Option Nat :=
  let n := c.toNat
  if 48 ≤ n && n ≤ 57 then some (n - 48)
  else if 97 ≤ n && n ≤ 102 then some (n - 87)
  else if 65 ≤ n && n ≤ 70 then some (n - 55)
  else none

/-- `n` in decimal, with at least `width` digits. -/
def padded (width n : Nat) : List Char :=
  let digits := Nat.toDigits 10 n
  List.replicate (width - digits.length) '0' ++ digits

end Macc.Text
