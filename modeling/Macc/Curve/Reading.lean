import Macc.Curve
import Macc.Value.Reading

/-!
# Curves from loosely typed values, and their texts

Coordinates may be given as any value that reads as a real; the first one that
does not ends the reading. A query of a curve without points is answered before
the query is read.
-/

namespace Macc

namespace Curve

/-- The curve with a point whose coordinates are read from values, `x` first. -/
def addValues (c : Curve Float) (x y : Value) : Attempt (Curve Float) := do
  let px ← Attempt.ofExcept x.toReal
  let py ← Attempt.ofExcept y.toReal
  Attempt.ofLogged (c.add px py)

/-- The curve of points whose coordinates are read from values, added in order. -/
def ofValues (pairs : List (Value × Value)) : Attempt (Curve Float) :=
  pairs.foldlM (fun c p => c.addValues p.1 p.2) empty

/-- The value of the curve at an `x` read from a value. -/
def valueOf (c : Curve Float) (x : Value) : Except Failure (Option Float) := do
  if c.points.isEmpty then return none
  else return c.valueAt (← x.toReal)

def literal (c : Curve Float) : String :=
  let pair := fun p : Float × Float =>
    "(" ++ Decimal.floatText p.1 ++ ", " ++ Decimal.floatText p.2 ++ ")"
  "PointSetCurve([" ++ ", ".intercalate (c.pairs.map pair) ++ "])"

end Curve

def ControlPoint.literal (p : ControlPoint Float) : String :=
  "XYDataPoint(x=" ++ Decimal.floatText p.x ++ ", y=" ++ Decimal.floatText p.y ++ ")"

end Macc
