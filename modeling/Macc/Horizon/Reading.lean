import Macc.Horizon
import Macc.Value.Reading

/-!
# Reading a horizon

The model years of a configuration may be any value that can be gone through.
Each part must be readable as an integer. A part that is not makes the whole
unreadable, and so does a value without parts; only an infinite one fails in its
own way.
-/

namespace Macc.Horizon

/-- A cause found while reading years, in the form in which it is reported. -/
def yearFailure (cause : Failure) : Failure :=
  match cause.kind with
  | .type | .value => .yearsNotIntegers
  | _ => cause

/-- The integers that the parts of a value stand for. -/
def readYears (v : Value) : Except Failure (List Int) :=
  match v.parts? with
  | none => .error .yearsNotIntegers
  | some parts => (parts.mapM Value.toInteger).mapError yearFailure

def ofValue (v : Value) : Except Failure Horizon := do
  let years ← readYears v
  ofYears years

end Macc.Horizon
