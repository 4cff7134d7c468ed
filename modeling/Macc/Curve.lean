import Macc.Logged
import Macc.Scalar

/-!
# Piecewise linear curves

A curve is a list of control points in ascending order of `x`, at most one per
`x`. Adding a point where there is one replaces its `y`; elsewhere the point is
put in order. Between two neighbours a curve is the straight line; outside its
points it has no value, and callers clamp before they ask.

A point whose `x` is not a number sorts after all others. It equals nothing, so
it never replaces a point and is never replaced.
-/

namespace Macc

structure ControlPoint (α : Type) where
  x : α
  y : α
  deriving Repr, DecidableEq

/-- A curve, as its control points in ascending order. -/
structure Curve (α : Type) where
  points : List (ControlPoint α)
  deriving Repr, DecidableEq

namespace Curve

variable {α : Type} [Scalar α]

def empty : Curve α := ⟨[]⟩

/-- Whether a point at `a` stands before a query at `b`: numbers in ascending order, then what is
no number. -/
def precedes (a b : α) : Bool :=
  Scalar.lt a b || (Scalar.isNaN b && !Scalar.isNaN a)

/-- The points with one more: in place of the point at the same `x`, which keeps its own spelling
of `x`, or else in front of the first point that does not precede it. -/
def insertPoint (x y : α) : List (ControlPoint α) → List (ControlPoint α)
  | [] => [⟨x, y⟩]
  | p :: rest =>
    if precedes p.x x then p :: insertPoint x y rest
    else if Scalar.eq p.x x then ⟨p.x, y⟩ :: rest
    else ⟨x, y⟩ :: p :: rest

/-- The first point that does not precede `x`, when it stands at `x`. -/
def pointAt? (x : α) : List (ControlPoint α) → Option (ControlPoint α)
  | [] => none
  | p :: rest =>
    if precedes p.x x then pointAt? x rest
    else if Scalar.eq p.x x then some p
    else none

def insert (c : Curve α) (x y : α) : Curve α :=
  ⟨insertPoint x y c.points⟩

/-- The curve with the point `(x, y)`; a replaced point is reported. -/
def add (c : Curve α) (x y : α) : Logged (Curve α) := do
  match pointAt? x c.points with
  | some p => note (.replacedPoint (Scalar.text x) (Scalar.text p.y) (Scalar.text y))
  | none => pure ()
  pure (c.insert x y)

/-- The curve with several points, added in order. -/
def addAll (c : Curve α) (pairs : List (α × α)) : Logged (Curve α) :=
  pairs.foldlM (fun c p => c.add p.1 p.2) c

def pairs (c : Curve α) : List (α × α) :=
  c.points.map fun p => (p.x, p.y)

def size (c : Curve α) : Nat :=
  c.points.length

def minX? (c : Curve α) : Option α :=
  c.points.head?.map (·.x)

def maxX? (c : Curve α) : Option α :=
  c.points.getLast?.map (·.x)

/-- The straight line through two points, at `x`. -/
def between (low high : ControlPoint α) (x : α) : α :=
  low.y + (high.y - low.y) * (x - low.x) / (high.x - low.x)

/-- The value at `x` on the points after `previous`: of the first one that does not precede `x`, or
on the line that leads to it. -/
def valueAfter (x : α) (previous : ControlPoint α) : List (ControlPoint α) → Option α
  | [] => none
  | p :: rest =>
    if precedes p.x x then valueAfter x p rest
    else if Scalar.eq p.x x then some p.y
    else some (between previous p x)

/-- The value of the curve at `x`, where it has one. The search starts behind the last point; a
curve of numbers never looks at it, because `x` is not before the first one. -/
def valueAt (c : Curve α) (x : α) : Option α :=
  match c.points, c.points.getLast? with
  | first :: _, some last =>
    if Scalar.isNaN x || Scalar.lt x first.x || Scalar.lt last.x x then none
    else valueAfter x last c.points
  | _, _ => none

/-- Whether two curves have the same points, by equality of numbers. -/
def same (c d : Curve α) : Bool :=
  c.points.length == d.points.length &&
    (c.points.zip d.points).all fun (p, q) => Scalar.eq p.x q.x && Scalar.eq p.y q.y

@[simp]
theorem value_add (c : Curve α) (x y : α) : (c.add x y).value = c.insert x y := by
  unfold add
  split <;> rfl

end Curve

end Macc
