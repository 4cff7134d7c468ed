import Macc.Constants.Resolution
import Macc.Horizon.Reading
import Macc.Run.Fingerprint
import Macc.Run.OutputDirectory
import Macc.Run.OutputName
import Macc.Toml.Loading

/-!
# The settings of a run

A run is described by a configuration document: its model years, its regions, the
files with its curves and prices, and where its output goes. Paths in it are seen
from the directory that it stands in. Reading the settings makes the output
directory, so that two runs never share one.
-/

namespace Macc

/-- What a run is started with besides its configuration. -/
structure RunOptions where
  debug : Bool
  /-- The name that the output directory is to have, unless it is absent or empty. -/
  outputName : Value

/-- Where the output of a run goes. -/
inductive Placement where
  /-- To a new directory below the one that the configuration names. -/
  | fresh
  /-- To the directory for trial runs below a project, which may be there. -/
  | trial (project : Path)

structure RunSettings where
  options : RunOptions
  configPath : Path
  horizon : Horizon
  regions : List String
  catalogueFile : Option Path
  priceFile : Option Path
  /-- The constants that the configuration sets. -/
  overrides : List (String × Value)
  output : Path

namespace RunSettings

/-- Whether a value says something. -/
def isGiven : Value → Bool
  | .null => false
  | .text s => !s.isEmpty
  | _ => true

def document (files : FileTree) (path : Path) : Except Failure (List (String × Value)) := do
  if ← files.pathExists path then Toml.load files path (.configUnreadable path.text)
  else throw (.configMissing path.text)

/-- A failure to read model years, as it is reported for a configuration. -/
def yearsFailure (cause : Failure) : Failure :=
  if cause.isBadValue then .years cause else cause

def horizonOf (config : List (String × Value)) : Except Failure Horizon :=
  match Entries.get? config "years" with
  | none => .error .yearsMissing
  | some v => (Horizon.ofValue v).mapError yearsFailure

/-- The regions of a configuration: one name, or several; names without text are left out. -/
def regionsOf (config : List (String × Value)) : Except Failure (List String) :=
  let names (parts : List Value) : Except Failure (List String) := do
    let texts ← parts.mapM Value.toText
    return (texts.map Text.trim).filter fun name => !name.isEmpty
  match Entries.get? config "regions" with
  | none => .ok []
  | some (.text s) => names [.text s]
  | some v =>
    match v.parts? with
    | some parts => names parts
    | none => .error (.notIterable v.kind)

/-- The path that a value of a configuration names, seen from the directory `base`. -/
def pathOf (home : Option String) (base : Path) (v : Value) : Except Failure (Option Path) :=
  if isGiven v then do
    let p ← (Path.parse (← v.toText)).expandHome home
    return some (base.join p)
  else .ok none

/-- The name of a run's output directory: the name it is started with, else the one that its
configuration gives, else one made from the fingerprint of the configuration. -/
def folderOf (options : RunOptions) (config : List (String × Value)) : Except Failure String :=
  let configured := (Entries.get? config Fingerprint.nameKey).getD .null
  let name := if isGiven options.outputName then options.outputName else configured
  if isGiven name then name.toText >>= OutputName.sanitize
  else return "mac_" ++ (← Fingerprint.ofEntries config)

def outputOf (w : World) (options : RunOptions) (placement : Placement) (base : Path)
    (config : List (String × Value)) : Except Failure Path :=
  match placement with
  | .trial project => .ok ((project.child "unit_tests").child "test_logs")
  | .fresh => do
    let configured := (Entries.get? config "output_dir").getD (.text "output")
    let above ← pathOf w.home base configured
    let folder ← folderOf options config
    match above with
    | none => throw .noOutputBase
    | some directory => OutputDirectory.select w.files (directory.child folder)

/-- The settings that a configuration describes; nothing is made yet. -/
def describe (w : World) (options : RunOptions) (placement : Placement) (path : Path) :
    Except Failure RunSettings := do
  let config ← document w.files path
  let base := path.parent
  let entry (key : String) : Value := (Entries.get? config key).getD .null
  let horizon ← horizonOf config
  let regions ← regionsOf config
  let catalogueFile ← pathOf w.home base (entry "mac_file")
  let priceFile ← pathOf w.home base (entry "price_file")
  let overrides := constantsTable (.table config)
  let output ← outputOf w options placement base config
  return { options, configPath := path, horizon, regions, catalogueFile, priceFile, overrides,
           output }

/-- Reads the settings of a run and makes its output directory. -/
def prepare (options : RunOptions) (placement : Placement) (path : Path) : Work RunSettings := do
  let settings ← Work.ofExcept (describe (← Work.world) options placement path)
  OutputDirectory.ensure settings.output
  return settings

end RunSettings

end Macc
