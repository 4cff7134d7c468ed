import Macc.Text.Upper
import Macc.Toml.Document
import Macc.Value.Reading
import Macc.World

/-!
# Where constants come from

Each constant is looked up in the environment, then in the table
`abatement.constants` of the active run configuration, and otherwise has its
default. The active configuration is the one of the innermost open scope, else
the one that the environment names, else the default one.

What was resolved is remembered until the next resolution: the values, where
each came from, and the table that was read last. A resolution begins by
forgetting the last two, so that what it leaves depends on the environment, the
active path and the file there, and on nothing that came before.
-/

namespace Macc

/-- The table `abatement.constants` of a run configuration, with keys in upper case. -/
def constantsTable (data : Value) : List (String × Value) :=
  let below (v : Value) (key : String) : Value :=
    match v with
    | .table entries => (Entries.get? entries key).getD .null
    | _ => .null
  match below (below data "abatement") "constants" with
  | .table entries => Entries.ofAssignments (entries.map fun e => (Text.upper e.1, e.2))
  | _ => []

/-- The overrides in a run configuration. A file that is missing holds none, and so does one that
cannot be read as a document, which is reported; only bytes that are no text fail. -/
def readOverrides (files : FileTree) (path : Path) : Attempt (List (String × Value)) := do
  if ← Attempt.ofExcept (files.pathExists path) then
    match files.read path >>= Toml.parseBytes with
    | .ok entries => return constantsTable (.table entries)
    | .error cause =>
      match cause with
      | .notUtf8 | .integerDigits _ => throw cause
      | _ =>
        report (.unreadableOverrides path.text cause)
        return []
  else return []

/-- The overrides of the active run configuration, read once per resolution. -/
def currentOverrides : Work (List (String × Value)) := do
  let w ← Work.world
  match w.overrides with
  | some known => return known
  | none =>
    let path ← Work.ofExcept w.activeConfig
    let read ← Work.ofAttempt (readOverrides w.files path)
    Work.change fun w => { w with overrides := some read }
    return read

/-- The override of a constant and where it stands. -/
def findOverride (key : String) : Work (Option (Value × Source)) := do
  match Entries.get? (← Work.world).environment (World.variableOf key) with
  | some text => return some (.text text, .environment)
  | none =>
    match Entries.get? (← currentOverrides) key with
    | none | some .null => return none
    | some v => return some (v, .runConfig)

def recordSource (key : String) (source : Source) : Work Unit :=
  Work.change fun w => { w with sources := Entries.put w.sources key source }

/-- The value of a constant. An override that cannot be converted is reported and gives the
default. -/
def getConstant {β : Type} (name : String) (default : β) (convert : Value → Except Failure β) :
    Work β := do
  let key := Text.upper name
  match ← findOverride key with
  | none =>
    recordSource key .default
    return default
  | some (raw, source) =>
    match convert raw with
    | .ok value =>
      recordSource key source
      return value
    | .error cause =>
      if cause.isBadValue then
        Work.tell (.invalidOverride key raw source.name cause)
        recordSource key .default
        return default
      else throw cause

/-- How a caller wants an override converted. -/
inductive Conversion where
  | toInteger
  | toReal
  | toText
  | toFlag
  /-- To the kind that the default has. -/
  | likeDefault
  deriving Repr, DecidableEq

def convertLike (default raw : Value) : Except Failure Value :=
  match default with
  | .int _ => raw.toInteger.map .int
  | .float _ => raw.toReal.map .float
  | .bool _ => .ok (.bool raw.isPresent)
  | .list _ =>
    match raw.parts? with
    | some parts => .ok (.list parts)
    | none => .error (.notIterable raw.kind)
  | .table _ =>
    match raw with
    | .table entries => .ok (.table entries)
    | _ => .error (.notIterable raw.kind)
  | .null => .error .nullCast
  | _ => raw.toText.map .text

def Conversion.apply (c : Conversion) (default raw : Value) : Except Failure Value :=
  match c with
  | .toInteger => raw.toInteger.map .int
  | .toReal => raw.toReal.map .float
  | .toText => raw.toText.map .text
  | .toFlag => .ok (.bool raw.isPresent)
  | .likeDefault => convertLike default raw

def getValue (name : String) (default : Value) (c : Conversion) : Work Value :=
  getConstant name default (c.apply default)

/-- Forgets the overrides that were read and where the constants came from; the constants stay. -/
def forgetOverrides : Work Unit :=
  Work.change fun w => { w with overrides := none, sources := [] }

/-- Resolves the four constants anew, one after the other; those resolved before a failure keep
their new values. -/
def resolveConstants : Work Unit := do
  forgetOverrides
  let default := Constants.default
  let set (f : Constants Float → Constants Float) : Work Unit :=
    Work.change fun w => { w with constants := f w.constants }
  let market ← getConstant "CARBON_MARKET" default.carbonMarket Value.toText
  set fun c => { c with carbonMarket := market }
  let factor ← getConstant "NORM_FACTOR" default.normFactor Value.toReal
  set fun c => { c with normFactor := factor }
  let base ← getConstant "FUEL_SHIFT_BASE_PERIOD" default.fuelShiftBasePeriod Value.toInteger
  set fun c => { c with fuelShiftBasePeriod := base }
  let start ← getConstant "TECH_CHANGE_START_PERIOD" default.techChangeStartPeriod Value.toInteger
  set fun c => { c with techChangeStartPeriod := start }

/-- Opens a scope on a run configuration and resolves the constants in it. When that fails the scope
is closed again. Gives the scope that was open before. -/
def openScope (path : Path) : Work (Option Path) := do
  let before := (← Work.world).scope
  let target ← Work.ofExcept (path.expandHome (← Work.world).home)
  Work.change fun w => { w with scope := some target }
  let close : Work Unit := do
    Work.change fun w => { w with scope := before }
    resolveConstants
  let outcome ← ExceptT.mk (Except.ok <$> resolveConstants.run)
  match outcome with
  | .ok () => return before
  | .error failure =>
    close
    throw failure

/-- Closes a scope: the scope before it is open again, and the constants are resolved in it. -/
def closeScope (before : Option Path) : Work Unit := do
  Work.change fun w => { w with scope := before }
  resolveConstants

/-- Does `body` in a scope on a run configuration. -/
def withScope {α : Type} (path : Path) (body : Work α) : Work α := do
  let before ← openScope path
  Work.always body (closeScope before)

end Macc
