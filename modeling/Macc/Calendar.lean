import Macc.Text.Hex

/-!
# Dates and times

Documents may hold dates, times of day and moments. The program computes nothing
with them: it only refuses them where a number is needed and shows them in
messages, so a date is its fields and two spellings.
-/

namespace Macc

/-- A day of the proleptic Gregorian calendar. -/
structure Date where
  year : Nat
  month : Nat
  day : Nat
  deriving Repr, DecidableEq

structure TimeOfDay where
  hour : Nat
  minute : Nat
  second : Nat
  micro : Nat
  deriving Repr, DecidableEq

/-- A date with a time of day and, when known, the minutes that local time is ahead of universal
time. -/
structure Moment where
  date : Date
  time : TimeOfDay
  offset : Option Int
  deriving Repr, DecidableEq

open Text in
def natText (n : Nat) : String :=
  String.ofList (padded 1 n)

def daysInMonth (year month : Nat) : Nat :=
  if month = 2 then
    if (year % 4 = 0 ∧ year % 100 ≠ 0) ∨ year % 400 = 0 then 29 else 28
  else if month = 4 ∨ month = 6 ∨ month = 9 ∨ month = 11 then 30
  else 31

namespace Date

/-- A day that exists, in the years 1 to 9999. -/
def ofFields? (year month day : Nat) : Option Date :=
  if 1 ≤ year ∧ year ≤ 9999 ∧ 1 ≤ month ∧ month ≤ 12 ∧ 1 ≤ day ∧ day ≤ daysInMonth year month then
    some ⟨year, month, day⟩
  else none

def text (d : Date) : String :=
  String.ofList (Text.padded 4 d.year ++ '-' :: Text.padded 2 d.month ++ '-' :: Text.padded 2 d.day)

/-- The fields of the day, as they stand in a constructor call. -/
def fields (d : Date) : String :=
  ", ".intercalate ([d.year, d.month, d.day].map natText)

def literal (d : Date) : String :=
  "datetime.date(" ++ d.fields ++ ")"

end Date

namespace TimeOfDay

/-- The time as `hour:minute:second`, with microseconds when there are any. -/
def text (t : TimeOfDay) : String :=
  let whole := Text.padded 2 t.hour ++ ':' :: Text.padded 2 t.minute ++ ':' :: Text.padded 2 t.second
  String.ofList (if t.micro = 0 then whole else whole ++ '.' :: Text.padded 6 t.micro)

/-- The fields of the time; seconds and microseconds are left out from the end while zero. -/
def fields (t : TimeOfDay) : String :=
  let shown :=
    if t.micro ≠ 0 then [t.hour, t.minute, t.second, t.micro]
    else if t.second ≠ 0 then [t.hour, t.minute, t.second]
    else [t.hour, t.minute]
  ", ".intercalate (shown.map natText)

def literal (t : TimeOfDay) : String :=
  "datetime.time(" ++ t.fields ++ ")"

end TimeOfDay

def offsetText (minutes : Int) : String :=
  let n := minutes.natAbs
  let sign := if minutes < 0 then '-' else '+'
  String.ofList (sign :: Text.padded 2 (n / 60) ++ ':' :: Text.padded 2 (n % 60))

/-- An offset as a constructor call; a negative one is a negative day and the seconds that remain. -/
def offsetLiteral (minutes : Int) : String :=
  if minutes = 0 then "datetime.timezone.utc"
  else
    let span :=
      if 0 < minutes then "seconds=" ++ natText (60 * minutes.toNat)
      else "days=-1, seconds=" ++ natText (86400 - 60 * minutes.natAbs)
    "datetime.timezone(datetime.timedelta(" ++ span ++ "))"

namespace Moment

def text (m : Moment) : String :=
  m.date.text ++ " " ++ m.time.text ++ (m.offset.map offsetText).getD ""

def literal (m : Moment) : String :=
  let zone := (m.offset.map fun o => ", tzinfo=" ++ offsetLiteral o).getD ""
  "datetime.datetime(" ++ m.date.fields ++ ", " ++ m.time.fields ++ zone ++ ")"

end Moment

end Macc
