import Macc.Binary64.Nearest
import Macc.Text.Blank
import Macc.Text.Digit

/-!
# Numbers written in text

Fields and cells may hold a number as text. Two grammars are read here, one for
reals and one for integers. Both allow blanks around the number, a sign, digits
of any script and single underscores between digits; a real may also have a
point, an exponent, or be one of the words `inf`, `infinity` and `nan` in any
case. Nothing else is a number, and what is refused is refused as a whole.

A real is rounded once, from its exact value. Exponents so large that no digit
could bring the number back into range are decided by the place of the leading
digit alone, so that no power of ten is computed for them.
-/

namespace Macc.Decimal

open Macc.Text

/-- The characters of a number, with blanks removed at the ends and every digit in ASCII. -/
def numeralChars (s : String) : List Char :=
  (trimBy isNumberBlank s.toList).map fun c =>
    match digitValue? c with
    | some d => Char.ofNat (48 + d)
    | none => c

/-- `cs` without its underscores, each of which must stand between two digits; `afterDigit` says
whether a digit precedes. -/
def dropUnderscores? (afterDigit : Bool) : List Char → Option (List Char)
  | [] => some []
  | c :: rest =>
    if c == '_' then
      if afterDigit && (rest.head?.any isAsciiDigit) then dropUnderscores? false rest else none
    else (dropUnderscores? (isAsciiDigit c) rest).map (c :: ·)

def splitSign : List Char → Bool × List Char
  | '-' :: rest => (true, rest)
  | '+' :: rest => (false, rest)
  | cs => (false, cs)

/-- The digits at the front of `cs`, and what follows them. -/
def splitDigits (cs : List Char) : List Nat × List Char :=
  ((cs.takeWhile isAsciiDigit).map fun c => c.toNat - 48, cs.dropWhile isAsciiDigit)

/-- The double nearest to `± digits · 10 ^ exponent`. -/
def scaled (negative : Bool) (digits : List Nat) (exponent : Int) : Float :=
  let significant := digits.dropWhile (· == 0)
  let coefficient := numberOf significant 0
  let place := exponent + significant.length
  if coefficient = 0 || place < -400 then Binary64.nearest negative 0 1
  else if 400 < place then Binary64.nearest negative (Nat.pow 2 1024) 1
  else
    Binary64.nearest negative (coefficient * Nat.pow 10 exponent.toNat)
      (Nat.pow 10 (-exponent).toNat)

/-- An exponent that ends the text; absent at the end of the text. -/
def exponent? : List Char → Option Int
  | [] => some 0
  | c :: rest =>
    if c == 'e' || c == 'E' then
      let (negative, body) := splitSign rest
      match splitDigits body with
      | ([], _) => none
      | (ds, []) => some (if negative then -(numberOf ds 0 : Int) else numberOf ds 0)
      | _ => none
    else none

/-- An unsigned real: digits with at most one point, at least one digit, and an exponent. -/
def unsignedReal? (negative : Bool) (cs : List Char) : Option Float :=
  let (whole, rest) := splitDigits cs
  let (fraction, tail) := match rest with
    | '.' :: after => splitDigits after
    | _ => ([], rest)
  if whole.isEmpty && fraction.isEmpty then none
  else (exponent? tail).map fun e => scaled negative (whole ++ fraction) (e - fraction.length)

/-- The words that stand for a value which has no digits. -/
def specialReal? (negative : Bool) (cs : List Char) : Option Float :=
  let word := cs.map Char.toLower
  if word = "inf".toList || word = "infinity".toList then
    some (Binary64.nearest negative (Nat.pow 2 1024) 1)
  else if word = "nan".toList then some (Float.ofBits 0x7ff8000000000000)
  else none

def real? (s : String) : Option Float := do
  let cs ← dropUnderscores? false (numeralChars s)
  let (negative, body) := splitSign cs
  specialReal? negative body <|> unsignedReal? negative body

/-- The most digits an integer in text may have. -/
def integerDigitLimit : Nat := 4300

inductive IntegerReading where
  | number (n : Int)
  | notNumber
  | tooLong (digits : Nat)
  deriving Repr, DecidableEq

/-- The integer that `s` writes. The limit on its length is checked on the digits at the front,
before what follows them is looked at. -/
def integer (s : String) : IntegerReading :=
  let (negative, body) := splitSign (numeralChars s)
  let run := body.takeWhile fun c => isAsciiDigit c || c == '_'
  match dropUnderscores? false run with
  | none => .notNumber
  | some digits =>
    let ds := digits.map fun c => c.toNat - 48
    if integerDigitLimit < ds.length then .tooLong ds.length
    else if ds.isEmpty || run.length < body.length then .notNumber
    else .number (if negative then -(numberOf ds 0 : Int) else numberOf ds 0)

end Macc.Decimal
