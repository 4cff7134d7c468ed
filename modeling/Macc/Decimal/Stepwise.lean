import Macc.Binary64.Nearest
import Macc.Text.Digit

/-!
# Numbers in the cells of a table

Cells have a number grammar of their own: ASCII digits without underscores, at
most one point, an exponent with digits, ASCII blanks at the ends, and the words
`inf` and `infinity`, which take no blanks.

The value is built in double arithmetic step by step. The first seventeen digits
are collected, each step rounding once they exceed fifty-three bits; further
digits in front of the point only raise the exponent and those behind it are
dropped. The result is then scaled by a power of ten. Up to fifteen digits and
moderate exponents this is the nearest double; beyond that it may differ from it
in the last place, and tables are read with exactly these steps.
-/

namespace Macc.Decimal

open Macc.Text

/-- A blank at the ends of a number in a cell. -/
def isCellBlank (c : Char) : Bool :=
  c.toNat == 32 || (9 ≤ c.toNat && c.toNat ≤ 13)

/-- How many digits count. -/
def countedDigits : Nat := 17

/-- The number made of digits, each step in double arithmetic. -/
def collect (digits : List Nat) : Float :=
  digits.foldl (fun x d => x * 10 + Float.ofNat d) 0

/-- The power of ten with a natural exponent, as a double. -/
def powerOfTen (n : Nat) : Float :=
  Binary64.nearest false (Nat.pow 10 n) 1

/-- `x` times a power of ten. Very small powers are divided out in two steps. -/
def scaleByTen (x : Float) (exponent : Int) : Float :=
  if 308 < exponent then
    if x == 0 then 0 else if x < 0 then -Binary64.nearest false (Nat.pow 2 1024) 1
    else Binary64.nearest false (Nat.pow 2 1024) 1
  else if 0 < exponent then x * powerOfTen exponent.toNat
  else if exponent < -616 then 0
  else if exponent < -308 then x / powerOfTen (-308 - exponent).toNat / powerOfTen 308
  else x / powerOfTen (-exponent).toNat

/-- The value of a real with the given digits before and behind the point. -/
def stepwiseValue (negative : Bool) (whole fraction : List Nat) (exponent : Int) : Float :=
  let counted := whole.take countedDigits
  let behind := fraction.take (countedDigits - counted.length)
  let x := collect (counted ++ behind)
  let shift : Int := (whole.length - counted.length : Nat) - behind.length
  scaleByTen (if negative then -x else x) (shift + exponent)

/-- A number in a cell: its value, and the integer it is when it has neither point nor exponent. -/
structure CellNumber where
  real : Float
  int? : Option Int

def cellSign : List Char → Bool × List Char
  | '-' :: rest => (true, rest)
  | '+' :: rest => (false, rest)
  | cs => (false, cs)

def cellDigits (cs : List Char) : List Nat × List Char :=
  ((cs.takeWhile isAsciiDigit).map fun c => c.toNat - 48, cs.dropWhile isAsciiDigit)

/-- The exponent at the front, and what follows; no letter, no exponent. -/
def cellExponent? : List Char → Option (Option Int × List Char)
  | [] => some (none, [])
  | c :: rest =>
    if c == 'e' || c == 'E' then
      let (negative, body) := cellSign rest
      let (ds, left) := cellDigits body
      if ds.isEmpty then none
      else
        let n : Int := numberOf (ds.take countedDigits) 0
        some (some (if negative then -n else n), left)
    else some (none, c :: rest)

def digitsNumber? (cs : List Char) : Option CellNumber := do
  let (negative, body) := cellSign (cs.dropWhile isCellBlank)
  let (whole, rest) := cellDigits body
  let (fraction, tail, point) := match rest with
    | '.' :: after => ((cellDigits after).1, (cellDigits after).2, true)
    | _ => ([], rest, false)
  if whole.isEmpty && fraction.isEmpty then none
  else
    let (exponent, left) ← cellExponent? tail
    if left.all isCellBlank then
      let n : Int := numberOf whole 0
      some
        { real := stepwiseValue negative whole fraction (exponent.getD 0)
          int? := if point || exponent.isSome then none else some (if negative then -n else n) }
    else none

def infinityWord? (cs : List Char) : Option CellNumber :=
  let (negative, body) := cellSign cs
  let word := body.map Char.toLower
  if word = "inf".toList || word = "infinity".toList then
    some ⟨Binary64.nearest negative (Nat.pow 2 1024) 1, none⟩
  else none

def cellNumber? (s : String) : Option CellNumber :=
  digitsNumber? s.toList <|> infinityWord? s.toList

end Macc.Decimal
