import Std.Time
import Macc.Run.Program

/-!
# The executable

The outer layer: it brings the files that a run looks at into a tree, does the
run in it, and writes what the run left there. Nothing is decided here.
-/

namespace Macc.Executable

/-- Where the run configuration stands when the command line names none. -/
def defaultConfig : Path := Path.parse "src/common/run_config.toml"

/-- The tree with what stands at one place of the disk, whose directory is known. -/
def lookAt (t : FileTree) (place : Place) : IO FileTree := do
  try
    return t.put place (.file (← IO.FS.readBinFile (Path.text ⟨.single, place⟩)))
  catch
    | .inappropriateType .. => return t.put place .directory
    | _ => return t

/-- The tree with what stands at the end of a path and on the way to it. -/
def lookAlong (t : FileTree) (p : Path) : IO FileTree := do
  let target := t.placeOf p
  let mut t := t
  for k in List.range target.length do
    let place := target.take (k + 1)
    if (t.at? (target.take k)) matches some .directory then
      if (t.at? place).isNone then t ← lookAt t place
  return t

partial def gather (a : Arguments) (w : World) (seen : List Path) : IO World := do
  match (a.sources w).filter fun p => !seen.contains p with
  | [] => return w
  | new =>
    let mut files := w.files
    for p in new do
      files ← lookAlong files p
    gather a { w with files } (seen ++ new)

def start : IO World := do
  let names := ["HOME", World.configVariable] ++
    Constants.names.map World.variableOf
  let mut environment := []
  for name in names do
    if let some value ← IO.getEnv name then
      environment := environment ++ [(name, value)]
  let here := (Path.parse (toString (← IO.currentDir))).parts
  return { files := { FileTree.empty with here }, environment, defaultConfig, scope := none,
           overrides := none, sources := [], constants := Constants.default }

def writeLog (s : RunSettings) (notices : List Notice) : IO Unit := do
  let time := (← Std.Time.PlainDateTime.now).format "dd-MMM-uu HH:mm:ss"
  let lines := (RunLog.entries s.options.debug notices).map fun entry =>
    time ++ " | " ++ entry ++ "\n"
  IO.FS.createDirAll s.output.text
  IO.FS.writeFile (s.output.child RunLog.fileName).text (String.join lines)

/-- Tells why there is no result, and gives the code that the process ends with. -/
def refuse (failure : Failure) : IO UInt32 := do
  match failure with
  | .exit 0 =>
    IO.print CommandLine.usage
    return 0
  | .exit code =>
    IO.eprint CommandLine.usage
    return UInt32.ofNat code
  | _ =>
    IO.eprintln failure.message
    return 1

def showReports (notices : List Notice) : IO Unit := do
  for n in notices do
    if n.severity matches .warning | .error then IO.eprintln n.message

def run (a : Arguments) : IO UInt32 := do
  let world ← gather a (← start) []
  let prepared := (do resolveConstants; a.prepare : Work RunSettings).perform world
  showReports prepared.log
  match prepared.value with
  | (.error failure, _) => refuse failure
  | (.ok settings, ready) =>
    let done := settings.execute.perform ready
    let (before, held) := RunLog.split done.log
    showReports before
    writeLog settings held
    match done.value with
    | (.error failure, _) => refuse failure
    | (.ok path, final) =>
      if let .ok bytes := final.files.read path then
        IO.FS.writeBinFile path.text bytes
      IO.print (resultLine path)
      return 0

end Macc.Executable

def main (arguments : List String) : IO UInt32 :=
  match Macc.CommandLine.parse arguments with
  | .ok a => Macc.Executable.run a
  | .error failure => Macc.Executable.refuse failure
