import Macc.Decimal.Stepwise
import Macc.Scalar
import Macc.Text.Blank

/-!
# Columns and the type of their cells

What a cell is depends on its column. A column of a table file is tried as
integers, as reals, as flags, and is text when none of these fits all of its
cells; cells that hold one of the words for a missing value fit everything. So a
column of names that look like integers is a column of integers, and a missing
cell among integers makes them reals. Columns given as values are classified in
the same spirit.

A column can then be read in two ways: as names, which are the trimmed texts of
its cells, and as numbers, where what is no number is missing. That an integer has
more digits than can be written, and so makes no name, is left out.
-/

namespace Macc

inductive Column where
  | ints (cells : List Int)
  /-- Reals; a missing cell is nan. -/
  | reals (cells : List Float)
  | flags (cells : List Bool)
  /-- Texts, some of which may be missing. -/
  | texts (cells : List (Option String))
  /-- Values of several kinds; a missing cell is null. -/
  | values (cells : List Value)

/-- A number as a table computes with it: an integer, or a real, which is nan when missing. -/
inductive CellValue where
  | int (n : Int)
  | real (x : Float)

namespace CellValue

def isMissing : CellValue → Bool
  | .int _ => false
  | .real x => x.isNaN

def toReal : CellValue → Float
  | .int n => Binary64.ofInt n
  | .real x => x

/-- The number without what stands after the point. -/
def toInteger : CellValue → Except Failure Int
  | .int n => .ok n
  | .real x => truncateFloat x

def equalsInt (v : CellValue) (n : Int) : Bool :=
  match v with
  | .int m => m == n
  | .real x => (Binary64.ofFloat x).isInteger && (Binary64.ofFloat x).truncate? == some n

end CellValue

namespace Column

/-- The words that stand for a missing cell. -/
def missingWords : List String :=
  ["", "#N/A", "#N/A N/A", "#NA", "-1.#IND", "-1.#QNAN", "-NaN", "-nan", "1.#IND", "1.#QNAN",
    "<NA>", "N/A", "NA", "NULL", "NaN", "None", "n/a", "nan", "null"]

def isMissing (cell : String) : Bool :=
  missingWords.contains cell

/-- The least integer that an integer column holds. -/
def leastInt : Int := -0x8000000000000000

/-- The first integer beyond a column of signed integers. -/
def signedLimit : Int := 0x8000000000000000

/-- The first integer beyond a column of unsigned integers. -/
def unsignedLimit : Int := 0x10000000000000000

/-! ## Columns of a table file -/

/-- What reading a cell as an integer comes to. -/
inductive CellInteger where
  | int (n : Int)
  /-- The digits at the front leave the range; what follows them is not looked at. -/
  | outOfRange
  | noInteger

/-- The sign and the digits at the front of a cell, and whether only blanks follow. -/
def integerParts (cell : String) : Bool × List Nat × Bool :=
  let (negative, body) := Decimal.cellSign (cell.toList.dropWhile Decimal.isCellBlank)
  let (digits, left) := Decimal.cellDigits body
  (negative, digits, left.all Decimal.isCellBlank)

def signedCell (cell : String) : CellInteger :=
  let (negative, digits, alone) := integerParts cell
  let n : Int := Text.numberOf digits 0
  let signed := if negative then -n else n
  if digits.isEmpty then .noInteger
  else if signed < leastInt || signedLimit ≤ signed then .outOfRange
  else if alone then .int signed else .noInteger

/-- A cell as an unsigned integer; whether a negative one has more to it is not looked at. -/
def unsignedCell (cell : String) : CellInteger :=
  let (negative, digits, alone) := integerParts cell
  let n : Int := Text.numberOf digits 0
  if negative then .int (-1)
  else if digits.isEmpty then .noInteger
  else if unsignedLimit ≤ n then .outOfRange
  else if alone then .int n else .noInteger

/-- What reading all cells as integers comes to; missing cells are none. -/
inductive IntegerCells where
  | ints (cells : List (Option Int))
  | outOfRange
  | noIntegers

/-- Reads cells as integers by `read`, up to the first that is none. -/
def integerCells (read : String → CellInteger) : List String → IntegerCells
  | [] => .ints []
  | cell :: rest =>
    let here := if isMissing cell then none else some (read cell)
    match here with
    | some .outOfRange => .outOfRange
    | some .noInteger => .noIntegers
    | some (.int n) =>
      match integerCells read rest with
      | .ints cells => .ints (some n :: cells)
      | other => other
    | none =>
      match integerCells read rest with
      | .ints cells => .ints (none :: cells)
      | other => other

def ofTexts (cells : List String) : Column :=
  .texts (cells.map fun cell => if isMissing cell then none else some cell)

/-- Integers, or, when some are missing, the reals next to them. -/
def ofIntegers (cells : List (Option Int)) : Column :=
  match cells.mapM id with
  | some ns => .ints ns
  | none => .reals (cells.map fun c => (c.map Binary64.ofInt).getD (0 / 0))

def reals? (cells : List String) : Option Column :=
  (cells.mapM fun cell =>
    if isMissing cell then some (0 / 0) else (Decimal.cellNumber? cell).map (·.real)).map .reals

def flagOf? (cell : String) : Option Bool :=
  if ["True", "TRUE", "true"].contains cell then some true
  else if ["False", "FALSE", "false"].contains cell then some false
  else none

def flags? (cells : List String) : Option Column :=
  match cells.mapM flagOf? with
  | some bs => some (.flags bs)
  | none =>
    (cells.mapM fun cell =>
      if isMissing cell then some .null else (flagOf? cell).map .bool).map .values

def ofOtherCells (cells : List String) : Column :=
  (reals? cells <|> flags? cells).getD (ofTexts cells)

/-- Cells of which one is beyond the signed integers: unsigned integers if they fit all cells, and
else texts. Where a cell is missing beside a large integer all cells are texts, that one too. -/
def ofLargeCells (cells : List String) : Column :=
  match integerCells unsignedCell cells with
  | .noIntegers => ofOtherCells cells
  | .outOfRange => ofTexts cells
  | .ints ns =>
    let large := ns.any fun c => c.any (signedLimit ≤ ·)
    let negative := ns.any fun c => c.any (· < 0)
    if large && (negative || ns.any Option.isNone) then .texts (cells.map some)
    else if negative then ofTexts cells
    else ofIntegers ns

def ofCells (cells : List String) : Column :=
  match integerCells signedCell cells with
  | .ints ns => ofIntegers ns
  | .outOfRange => ofLargeCells cells
  | .noIntegers => ofOtherCells cells

/-! ## Columns of values -/

def isMissingValue : Value → Bool
  | .null => true
  | .float x => x.isNaN
  | _ => false

def realCell? : Value → Option Float
  | .null => some (0 / 0)
  | .int n => some (Binary64.ofInt n)
  | .float x => some x
  | _ => none

def textCell? : Value → Option (Option String)
  | .text s => some (some s)
  | v => if isMissingValue v then some none else none

def intCell? : Value → Option Int
  | .int n => some n
  | _ => none

def flagCell? : Value → Option Bool
  | .bool b => some b
  | _ => none

/-- Integers as a column, when signed or unsigned integers fit them all. -/
def ofInts? (ns : List Int) : Option Column :=
  if ns.all (fun n => leastInt ≤ n && n < signedLimit) ||
      ns.all (fun n => 0 ≤ n && n < unsignedLimit) then some (.ints ns)
  else none

def isNumber : Value → Bool
  | .int _ | .float _ => true
  | _ => false

def ofValues (cells : List Value) : Column :=
  let typed : Option Column :=
    if cells.isEmpty || cells.all (fun v => v matches .null) then none
    else
      match cells.mapM flagCell?, cells.mapM intCell?, cells.mapM realCell? with
      | some bs, _, _ => some (.flags bs)
      | _, some ns, _ => ofInts? ns
      | _, _, some xs => some (.reals xs)
      | _, _, _ => (cells.mapM textCell?).map .texts
  typed.getD (.values cells)

/-! ## Reading a column -/

/-- The items whose marks are set. -/
def marked {β : Type} (marks : List Bool) (items : List β) : List β :=
  ((marks.zip items).filter (·.1)).map (·.2)

def select (marks : List Bool) : Column → Column
  | .ints cells => .ints (marked marks cells)
  | .reals cells => .reals (marked marks cells)
  | .flags cells => .flags (marked marks cells)
  | .texts cells => .texts (marked marks cells)
  | .values cells => .values (marked marks cells)

def size : Column → Nat
  | .ints cells => cells.length
  | .reals cells => cells.length
  | .flags cells => cells.length
  | .texts cells => cells.length
  | .values cells => cells.length

def cellTexts : Column → List (Option String)
  | .ints cells => cells.map fun n => some (toString n)
  | .reals cells => cells.map fun x => if x.isNaN then none else some (Decimal.floatText x)
  | .flags cells => cells.map fun b => some (Value.bool b).plain
  | .texts cells => cells
  | .values cells => cells.map fun v => if isMissingValue v then none else some v.plain

/-- The cells as names: their texts without blanks around them. -/
def names (column : Column) : List (Option String) :=
  column.cellTexts.map (Option.map Text.trim)

def numberOfText (s : String) : Decimal.CellNumber :=
  (Decimal.cellNumber? s).getD ⟨0 / 0, none⟩

def numberOfValue : Value → Decimal.CellNumber
  | .bool b => ⟨if b then 1 else 0, some (if b then 1 else 0)⟩
  | .int n => ⟨Binary64.ofInt n, some n⟩
  | .float x => ⟨x, none⟩
  | .text s => numberOfText s
  | _ => ⟨0 / 0, none⟩

/-- Numbers of one type: integers if all are and either kind of integer fits them, else reals. -/
def unified (numbers : List Decimal.CellNumber) : List CellValue :=
  match numbers.mapM fun n => n.int? with
  | some ns => if (ofInts? ns).isSome then ns.map .int else numbers.map fun n => .real n.real
  | none => numbers.map fun n => .real n.real

def numbers : Column → List CellValue
  | .ints cells => cells.map .int
  | .reals cells => cells.map .real
  | .flags cells => cells.map fun b => .int (if b then 1 else 0)
  | .texts cells => unified (cells.map fun c => (c.map numberOfText).getD ⟨0 / 0, none⟩)
  | .values cells => unified (cells.map numberOfValue)

end Column

end Macc
