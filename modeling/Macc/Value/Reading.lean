import Macc.Decimal.Numeral
import Macc.Scalar
import Macc.Text.Upper
import Macc.Value

/-!
# Reading values as numbers, flags and names

A field says what it needs, and its value is read as that: numbers may be written
as text and flags as words or as zero and one. Each reading is a function from
values to the wanted type, and refuses with the cause.

Every value can be shown, but not every value has a text: an integer with more
digits than one may be read from cannot be written, and so cannot anything that
holds one. What needs the text of a value fails there.
-/

namespace Macc.Value

def characters (s : String) : List Value :=
  s.toList.map fun c => .text (String.ofList [c])

/-- What a value consists of when it is gone through: the items of a list, the keys of a table, the
characters of a text. -/
def parts? : Value → Option (List Value)
  | .list items => some items
  | .table entries => some (entries.map fun e => .text e.1)
  | .text s => some (characters s)
  | _ => none

mutual

/-- Whether a value can be written out: no integer in it has more digits than one may be read from. -/
def isWritable : Value → Bool
  | .int n => n.natAbs < Nat.pow 10 Decimal.integerDigitLimit
  | .list items => areWritable items
  | .table entries => entriesWritable entries
  | _ => true

def areWritable : List Value → Bool
  | [] => true
  | v :: rest => isWritable v && areWritable rest

def entriesWritable : List (String × Value) → Bool
  | [] => true
  | (_, v) :: rest => isWritable v && entriesWritable rest

end

theorem isWritable_int_iff {n : Int} :
    (Value.int n).isWritable = true ↔ n.natAbs < Nat.pow 10 Decimal.integerDigitLimit := by
  rw [isWritable, decide_eq_true_iff]

/-- A value as text, as it is shown plainly. -/
def toText (v : Value) : Except Failure String :=
  if v.isWritable then .ok v.plain else .error .unwritableInteger

theorem toText_text (s : String) : (Value.text s).toText = .ok s := rfl

def toReal : Value → Except Failure Float
  | .bool b => .ok (if b then 1 else 0)
  | .int n => floatOfInt n
  | .float x => .ok x
  | .text s =>
    match Decimal.real? s with
    | some x => .ok x
    | none => .error (.realText s)
  | v => .error (.realKind v.kind)

/-- A value as an integer; reals lose what stands after the point. -/
def toInteger : Value → Except Failure Int
  | .bool b => .ok (if b then 1 else 0)
  | .int n => .ok n
  | .float x => truncateFloat x
  | .text s =>
    match Decimal.integer s with
    | .number n => .ok n
    | .notNumber => .error (.integerText s)
    | .tooLong digits => .error (.integerDigits digits)
  | v => .error (.integerKind v.kind)

/-- A value as an integer that it is equal to; flags are no integers here. -/
def toWhole (v : Value) : Except Failure Int := do
  match v with
  | .bool _ => throw (.notWhole v)
  | _ =>
    let x ← v.toReal
    if (Binary64.ofFloat x).isInteger then truncateFloat x else throw (.notWhole v)

/-- The words for yes, in lower case. -/
def yesWords : List String := ["true", "t", "yes", "y", "1", "on"]

/-- The words for no, in lower case. -/
def noWords : List String := ["false", "f", "no", "n", "0", "off"]

def toFlag (v : Value) : Except Failure Bool :=
  let read : Option Bool :=
    match v with
    | .bool b => some b
    | .int n => if n = 0 then some false else if n = 1 then some true else none
    | .float x => if x == 0 then some false else if x == 1 then some true else none
    | .text s =>
      let word := Text.lowerAscii (Text.trim s)
      if yesWords.contains word then some true
      else if noWords.contains word then some false
      else none
    | _ => none
  match read with
  | some b => .ok b
  | none => .error (if v.isWritable then .notFlag v else .unwritableInteger)

/-- A value as a name: its text without blanks around it. -/
def toName : Value → Except Failure String
  | .null => .error .missingValue
  | v => do return Text.trim (← v.toText)

/-- Whether a value counts as present: what is empty, zero or nothing does not. -/
def isPresent : Value → Bool
  | .null => false
  | .bool b => b
  | .int n => n != 0
  | .float x => x != 0
  | .text s => !s.isEmpty
  | .list items => !items.isEmpty
  | .table entries => !entries.isEmpty
  | _ => true

end Macc.Value
