import Macc.Decimal.Numeral
import Macc.Toml.Lexeme

/-!
# Numbers, dates and times in documents

Dates are tried before times and times before numbers, because all three begin
with digits. Each reader takes the longest text of its kind; what it leaves is
looked at by whoever called it, and characters that belong to nothing refuse the
document there.
-/

namespace Macc.Toml

open Macc.Text

/-! ## Digits -/

/-- The value of exactly `count` decimal digits at the front. -/
def fixedDigits? : Nat → Nat → List Char → Option (Taken Nat)
  | 0, value, cs => some ⟨value, cs⟩
  | count + 1, value, c :: rest =>
    if isAsciiDigit c then fixedDigits? count (10 * value + (c.toNat - 48)) rest else none
  | _ + 1, _, [] => none

def expect? (c : Char) : List Char → Option (List Char)
  | d :: rest => if d == c then some rest else none
  | [] => none

/-- Further digits after a first one, where a single underscore may stand before each. -/
def moreDigits (p : Char → Bool) : List Char → Taken (List Char)
  | '_' :: c :: rest =>
    if p c then (moreDigits p rest).map (c :: ·) else ⟨[], '_' :: c :: rest⟩
  | c :: rest => if p c then (moreDigits p rest).map (c :: ·) else ⟨[], c :: rest⟩
  | [] => ⟨[], []⟩

/-- A run of digits that begins with a digit. -/
def digits? (p : Char → Bool) : List Char → Option (Taken (List Char))
  | c :: rest => if p c then some ((moreDigits p rest).map (c :: ·)) else none
  | [] => none

/-! ## Dates and times -/

/-- The digits of a fraction of a second, as microseconds; digits after the sixth do not count. -/
def microseconds (digits : List Char) : Nat :=
  let six := (digits.take 6 ++ List.replicate 6 '0').take 6
  numberOf (six.map fun c => c.toNat - 48) 0

/-- A time of day with seconds, and a fraction if there is one. -/
def time? (cs : List Char) : Option (Taken TimeOfDay) := do
  let hour ← fixedDigits? 2 0 cs
  let minute ← fixedDigits? 2 0 (← expect? ':' hour.left)
  let second ← fixedDigits? 2 0 (← expect? ':' minute.left)
  if hour.got < 24 && minute.got < 60 && second.got < 60 then
    let whole (micro : Nat) : TimeOfDay := ⟨hour.got, minute.got, second.got, micro⟩
    match second.left with
    | '.' :: rest =>
      let fraction := rest.takeWhile isAsciiDigit
      if fraction.isEmpty then some ⟨whole 0, second.left⟩
      else some ⟨whole (microseconds fraction), rest.dropWhile isAsciiDigit⟩
    | _ => some ⟨whole 0, second.left⟩
  else none

/-- The minutes ahead of universal time, when an offset is at the front. -/
def offset (cs : List Char) : Taken (Option Int) :=
  let signed (sign : Int) (rest : List Char) : Option (Taken (Option Int)) := do
    let hour ← fixedDigits? 2 0 rest
    let minute ← fixedDigits? 2 0 (← expect? ':' hour.left)
    if hour.got < 24 && minute.got < 60 then
      some ⟨some (sign * (60 * hour.got + minute.got)), minute.left⟩
    else none
  match cs with
  | 'Z' :: rest | 'z' :: rest => ⟨some 0, rest⟩
  | '+' :: rest => (signed 1 rest).getD ⟨none, cs⟩
  | '-' :: rest => (signed (-1) rest).getD ⟨none, cs⟩
  | _ => ⟨none, cs⟩

/-- The time of day behind a date, and its offset; it is set off by `T` or a blank. -/
def timeOfDate? (cs : List Char) : Option (Taken (TimeOfDay × Option Int)) :=
  match cs with
  | c :: rest =>
    if c == 'T' || c == 't' || c == ' ' then
      (time? rest).map fun t => (offset t.left).map fun o => (t.got, o)
    else none
  | [] => none

def dateFields? (cs : List Char) : Option (Taken (Nat × Nat × Nat)) := do
  let year ← fixedDigits? 4 0 cs
  let month ← fixedDigits? 2 0 (← expect? '-' year.left)
  let day ← fixedDigits? 2 0 (← expect? '-' month.left)
  some ⟨(year.got, month.got, day.got), day.left⟩

/-- A date or moment, which must exist; nothing when no date is at the front. -/
def dateOrMoment? (cs : List Char) : Option (Except Failure (Taken Value)) :=
  (dateFields? cs).map fun fields =>
    match Date.ofFields? fields.got.1 fields.got.2.1 fields.got.2.2 with
    | none => malformed
    | some date =>
      match timeOfDate? fields.left with
      | some t => .ok ⟨.moment ⟨date, t.got.1, t.got.2⟩, t.left⟩
      | none => .ok ⟨.date date, fields.left⟩

/-! ## Numbers -/

def isDigitOf (base : Nat) (c : Char) : Bool :=
  (hexValue? c).any (· < base)

/-- An integer to another base, after the letter that names it. -/
def baseInteger? (base : Nat) (cs : List Char) : Option (Taken Value) :=
  (digits? (isDigitOf base) cs).map fun t => t.map fun ds =>
    .int (ds.foldl (fun value c => base * value + (hexValue? c).getD 0) 0 : Nat)

/-- The integer part of a decimal number: zero, or digits that do not begin with zero. -/
def wholePart? (cs : List Char) : Option (Taken (List Char)) :=
  match cs with
  | '0' :: rest => some ⟨['0'], rest⟩
  | _ => digits? isAsciiDigit cs

def fractionPart (cs : List Char) : Taken (List Char) :=
  match cs with
  | '.' :: rest =>
    match digits? isAsciiDigit rest with
    | some t => t.map ('.' :: ·)
    | none => ⟨[], cs⟩
  | _ => ⟨[], cs⟩

def exponentPart (cs : List Char) : Taken (List Char) :=
  match cs with
  | c :: rest =>
    if c == 'e' || c == 'E' then
      let (sign, body) := match rest with
        | '+' :: body => (['+'], body)
        | '-' :: body => (['-'], body)
        | _ => ([], rest)
      match digits? isAsciiDigit body with
      | some t => t.map fun ds => 'e' :: sign ++ ds
      | none => ⟨[], cs⟩
    else ⟨[], cs⟩
  | [] => ⟨[], cs⟩

/-- A decimal number: a real when it has a point or an exponent, else an integer. -/
def decimal? (cs : List Char) : Option (Except Failure (Taken Value)) :=
  let (sign, body) := match cs with
    | '+' :: rest => ([], rest)
    | '-' :: rest => (['-'], rest)
    | _ => ([], cs)
  (wholePart? body).map fun whole =>
    let fraction := fractionPart whole.left
    let exponent := exponentPart fraction.left
    if fraction.got.isEmpty && exponent.got.isEmpty then
      match Decimal.integer (String.ofList (sign ++ whole.got)) with
      | .number n => .ok ⟨.int n, whole.left⟩
      | .tooLong digits => .error (.integerDigits digits)
      | .notNumber => malformed
    else
      match Decimal.real? (String.ofList (sign ++ whole.got ++ fraction.got ++ exponent.got)) with
      | some x => .ok ⟨.float x, exponent.left⟩
      | none => malformed

def number? (cs : List Char) : Option (Except Failure (Taken Value)) :=
  let based :=
    match cs with
    | '0' :: 'x' :: rest => baseInteger? 16 rest
    | '0' :: 'b' :: rest => baseInteger? 2 rest
    | '0' :: 'o' :: rest => baseInteger? 8 rest
    | _ => none
  (based.map .ok) <|> decimal? cs

def afterWord? (word : String) (cs : List Char) : Option (List Char) :=
  if word.toList.isPrefixOf cs then some (cs.drop word.length) else none

/-- The values that are words: flags, infinities and nan. -/
def wordValues : List (String × Value) :=
  let infinity := Decimal.real? "inf"
  let nan := Decimal.real? "nan"
  let real (x : Option Float) (negative : Bool) : Value :=
    let y := x.getD 0
    .float (if negative then -y else y)
  [("true", .bool true), ("false", .bool false),
    ("inf", real infinity false), ("+inf", real infinity false), ("-inf", real infinity true),
    ("nan", real nan false), ("+nan", real nan false), ("-nan", real nan true)]

def word? (cs : List Char) : Option (Taken Value) :=
  wordValues.findSome? fun (word, value) => (afterWord? word cs).map fun left => ⟨value, left⟩

def scalar? (cs : List Char) : Option (Except Failure (Taken Value)) :=
  dateOrMoment? cs <|> (time? cs).map (fun t => .ok (t.map .time)) <|> number? cs <|>
    (word? cs).map .ok

end Macc.Toml
