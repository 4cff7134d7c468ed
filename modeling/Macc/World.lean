import Macc.Constants
import Macc.FileTree
import Macc.Logged

/-!
# The world of a run

What a run depends on besides its inputs, and what it may change, is one value:
the files, the environment, the run configuration in force and the constants
resolved from them. A computation in a world reports and may fail, and neither
undoes what it did to the world before.
-/

namespace Macc

inductive Source where
  | environment
  | runConfig
  | default
  deriving Repr, DecidableEq

def Source.name : Source → String
  | .environment => "env"
  | .runConfig => "run_config"
  | .default => "default"

structure World where
  files : FileTree
  environment : Entries String String
  /-- The run configuration when nothing selects another. -/
  defaultConfig : Path
  /-- The run configuration of the innermost open scope. -/
  scope : Option Path
  /-- The overrides that were read last. -/
  overrides : Option (List (String × Value))
  sources : Entries String Source
  constants : Constants Float

/-- A computation in a world, which reports and may fail; what it did to the world outlives the
failure. -/
abbrev Work (α : Type) := ExceptT Failure (StateT World Logged) α

namespace Work

variable {α : Type}

def perform (w : Work α) (world : World) : Logged (Except Failure α × World) :=
  w.run.run world

def ofExcept (r : Except Failure α) : Work α :=
  ExceptT.mk (pure r)

def ofAttempt (a : Attempt α) : Work α :=
  ExceptT.mk fun world => do return (← a.run, world)

def tell (n : Notice) : Work Unit :=
  ofAttempt (report n)

def world : Work World :=
  ExceptT.mk fun w => pure (.ok w, w)

def change (f : World → World) : Work Unit :=
  ExceptT.mk fun w => pure (.ok (), f w)

def onFiles (f : FileTree → FileTree × Except Failure Unit) : Work Unit :=
  ExceptT.mk fun w =>
    let (files, outcome) := f w.files
    pure (outcome, { w with files })

/-- Does `body`, then `after` in any case; a failure of `after` takes the place of that of `body`. -/
def always (body : Work α) (after : Work Unit) : Work α :=
  ExceptT.mk do
    let outcome ← body.run
    match ← after.run with
    | .ok () => return outcome
    | .error failure => return .error failure

end Work

namespace World

def variableOf (key : String) : String := "GHGMAC_" ++ key

def configVariable : String := "GHGMAC_RUN_CONFIG"

def home (w : World) : Option String :=
  Entries.get? w.environment "HOME"

/-- The run configuration that overrides are read from. -/
def activeConfig (w : World) : Except Failure Path :=
  match w.scope, Entries.get? w.environment configVariable with
  | some p, _ => .ok p
  | none, some named =>
    if named.isEmpty then .ok w.defaultConfig else (Path.parse named).expandHome w.home
  | none, none => .ok w.defaultConfig

def sortedSources (w : World) : List (String × String) :=
  (w.sources.map fun e => (e.1, e.2.name)).mergeSort fun a b => a.1 ≤ b.1

end World

end Macc
