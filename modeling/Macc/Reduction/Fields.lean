import Macc.Entries
import Macc.Reduction.Strategy
import Macc.Value.Reading

/-!
# Strategies as fields

A strategy is described by a list of named fields: eight settings and the field
`reduction`, which may occur several times and adds control points. This module
reads such a list and writes it.

Reading refuses little. A value that cannot be read as what its field needs is
reported and the earlier value kept; an unknown name is reported and skipped. The
curve is rebuilt from the points of this list alone. What does stop the reading
is an item that is no pair of a name and a value, a name that has no text, and a
number beyond all doubles; then the strategy stays as it was.
-/

namespace Macc

/-- The scalar fields. -/
inductive Field where
  | phaseIn
  | costReductionRate
  | baseCostYear
  | fuelShiftRange
  | shiftFuel
  | finalReduction
  | finalReductionYear
  | noBelowZero
  deriving Repr, DecidableEq

namespace Field

def name : Field → String
  | phaseIn => "phaseIn"
  | costReductionRate => "costReductionRate"
  | baseCostYear => "baseCostYear"
  | fuelShiftRange => "fuelShiftRange"
  | shiftFuel => "curveShiftFuelName"
  | finalReduction => "finalReduction"
  | finalReductionYear => "finalReductionYear"
  | noBelowZero => "noBelowZero"

/-- The other name of a field, with underscores between its words. -/
def spacedName : Field → String
  | phaseIn => "phase_in"
  | costReductionRate => "cost_reduction_rate"
  | baseCostYear => "base_cost_year"
  | fuelShiftRange => "fuel_shift_range"
  | shiftFuel => "curve_shift_fuel_name"
  | finalReduction => "final_reduction"
  | finalReductionYear => "final_reduction_year"
  | noBelowZero => "no_below_zero"

/-- The fields in the order in which they are written. -/
def written : List Field :=
  [noBelowZero, fuelShiftRange, shiftFuel, costReductionRate, baseCostYear, phaseIn,
    finalReduction, finalReductionYear]

/-- The fields in the order in which settings are listed. -/
def listed : List Field :=
  [baseCostYear, finalReductionYear, phaseIn, costReductionRate, fuelShiftRange, shiftFuel,
    finalReduction, noBelowZero]

def ofName? (s : String) : Option Field :=
  written.find? fun f => f.name == s

/-- The name under which a field is known: blanks around it do not count, and a name with
underscores stands for the other one. -/
def canonicalName (s : String) : String :=
  let trimmed := Text.trim s
  match written.find? fun f => f.spacedName == trimmed with
  | some f => f.name
  | none => trimmed

end Field

def reductionField : String := "reduction"

namespace Settings

def get (s : Settings Float) : Field → Value
  | .phaseIn => .float s.phaseIn
  | .costReductionRate => .float s.costReductionRate
  | .baseCostYear => .int s.baseCostYear
  | .fuelShiftRange => .float s.fuelShiftRange
  | .shiftFuel => .text s.shiftFuel
  | .finalReduction => .float s.finalReduction
  | .finalReductionYear => .int s.finalReductionYear
  | .noBelowZero => .bool s.noBelowZero

def set (s : Settings Float) (f : Field) (v : Value) : Except Failure (Settings Float) := do
  match f with
  | .phaseIn => return { s with phaseIn := ← v.toReal }
  | .costReductionRate => return { s with costReductionRate := ← v.toReal }
  | .baseCostYear => return { s with baseCostYear := ← v.toWhole }
  | .fuelShiftRange => return { s with fuelShiftRange := ← v.toReal }
  | .shiftFuel => return { s with shiftFuel := ← v.toName }
  | .finalReduction => return { s with finalReduction := ← v.toReal }
  | .finalReductionYear => return { s with finalReductionYear := ← v.toWhole }
  | .noBelowZero => return { s with noBelowZero := ← v.toFlag }

/-- Whether two settings agree in a field, by equality of values: nan agrees with nothing. -/
def agree (s t : Settings Float) : Field → Bool
  | .phaseIn => s.phaseIn == t.phaseIn
  | .costReductionRate => s.costReductionRate == t.costReductionRate
  | .baseCostYear => s.baseCostYear == t.baseCostYear
  | .fuelShiftRange => s.fuelShiftRange == t.fuelShiftRange
  | .shiftFuel => s.shiftFuel == t.shiftFuel
  | .finalReduction => s.finalReduction == t.finalReduction
  | .finalReductionYear => s.finalReductionYear == t.finalReductionYear
  | .noBelowZero => s.noBelowZero == t.noBelowZero

end Settings

/-! ## Control points in fields -/

namespace ReductionField

def isCompound : Value → Bool
  | .list _ | .table _ => true
  | _ => false

/-- Whether a value is one bare pair: two values that are not compound. -/
def isPair : Value → Bool
  | .list [a, b] => !isCompound a && !isCompound b
  | _ => false

def required (entries : List (String × Value)) (key : String) : Except Failure Value :=
  match Entries.get? entries key with
  | some v => .ok v
  | none => .error (.missingKey key)

/-- The control point that an entry describes: a table with `tax` and `value`, or a pair. -/
def readEntry (entry : Value) : Except Failure (Float × Float) := do
  match entry with
  | .table entries =>
    let tax ← (← required entries "tax").toReal
    let value ← (← required entries "value").toReal
    return (tax, value)
  | .list [a, b] =>
    if isPair entry then
      let tax ← a.toReal
      let value ← b.toReal
      return (tax, value)
    else throw .notPair
  | _ => throw .notPair

/-- The entries of a field's value: the value itself if it describes one point, else its items. -/
def entries? (v : Value) : Option (List Value) :=
  match v with
  | .table _ => some [v]
  | .list items => some (if isPair v then [v] else items)
  | _ => none

/-- The control points among entries, in order; refused entries are reported. -/
def readEntries (owner : String) : List Value → Attempt (List (Float × Float))
  | [] => pure []
  | entry :: rest => do
    match readEntry entry with
    | .ok point => return point :: (← readEntries owner rest)
    | .error cause =>
      if cause.isBadValue || cause.kind == .key then
        report (.ignoredEntry entry owner cause)
        readEntries owner rest
      else throw cause

def read (owner : String) (v : Value) : Attempt (List (Float × Float)) :=
  match entries? v with
  | some entries => readEntries owner entries
  | none => do
    report (.ignoredReduction v owner)
    return []

end ReductionField

/-! ## Reading -/

/-- A field as an item of a list: a name and a value. Any value of two parts is one. -/
def splitField (item : Value) : Except Failure (Value × Value) :=
  match item.parts? with
  | none => .error (.notParts item.kind)
  | some [name, value] => .ok (name, value)
  | some parts => .error (if parts.length < 2 then .tooFewParts parts.length else .tooManyParts)

namespace Strategy

def readField (s : Strategy Float) (item : Value) : Attempt (Strategy Float) := do
  let (rawName, value) ← Attempt.ofExcept (splitField item)
  let written ← Attempt.ofExcept rawName.toText
  let name := Field.canonicalName written
  if name == reductionField then
    let points ← ReductionField.read s.name value
    let curve ← Attempt.ofLogged (s.curve.addAll points)
    return { s with curve }
  else
    match Field.ofName? name with
    | none =>
      report (.unknownField written)
      return s
    | some field =>
      match s.settings.set field value with
      | .ok settings => return { s with settings }
      | .error cause =>
        if cause.isBadValue then
          report (.invalidField value name s.name (s.settings.get field) cause)
          return s
        else throw cause

/-- The strategy that a list of fields describes, starting from the settings of `s` and from no
points. -/
def parse (s : Strategy Float) (fields : List Value) : Attempt (Strategy Float) :=
  fields.foldlM readField { s with curve := Curve.empty }

def fieldItem (name : String) (value : Value) : Value :=
  .list [.text name, value]

/-- The strategy that the fields of a table describe. -/
def parseTable (s : Strategy Float) (fields : List (String × Value)) : Attempt (Strategy Float) :=
  s.parse (fields.map fun f => fieldItem f.1 f.2)

/-! ## Writing -/

def pointTable (p : Float × Float) : Value :=
  .table [("tax", .float p.1), ("value", .float p.2)]

/-- The settings that differ from the defaults, in the order in which they are written. -/
def writtenSettings (s : Strategy Float) (h : Horizon) : List (String × Value) :=
  (Field.written.filter fun f => !s.settings.agree (Settings.default h) f).map fun f =>
    (f.name, s.settings.get f)

/-- The fields from which the strategy can be read again. -/
def toFields (s : Strategy Float) (h : Horizon) : List (String × Value) :=
  s.writtenSettings h ++ [(reductionField, .list (s.curve.pairs.map pointTable))]

/-- Every setting and control point, with the reduction of a region and period. -/
def describe (s : Strategy Float) (e : Economy Float) (region : String) (period : Int) :
    Attempt (List (String × Value)) := do
  let found ← s.reduction e region period
  return [("name", .text s.name), ("period", .int period), ("region", .text region)] ++
    Field.written.map (fun f => (f.name, s.settings.get f)) ++
    [("taxVal", .list (s.curve.pairs.map fun p => .float p.1)),
      ("reductionVal", .list (s.curve.pairs.map fun p => .float p.2)),
      ("reduction", .float found)]

def summary (s : Strategy Float) : String :=
  "MacCurveEvaluator(name=" ++ Text.quoted s.name ++ ", points=" ++ natText s.curve.size ++ ")"

end Strategy

end Macc
