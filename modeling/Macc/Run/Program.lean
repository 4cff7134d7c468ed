import Macc.CommandLine
import Macc.Run.Evaluation
import Macc.Run.Log

/-!
# The program

Started from a command line, the program reads the settings of a run, opens the
run's log in the output directory, says in it what it was started with, and
evaluates the run.
-/

namespace Macc

namespace RunSettings

/-- Starts the log of a run. The output directory is made if it is gone. -/
def openLog (s : RunSettings) : Work Unit := do
  if !(← Work.world).files.isDirectory s.output then
    Work.onFiles fun files => files.withNewDirectory s.output
  Work.onFiles fun files => files.withFile (s.output.child RunLog.fileName) ByteArray.empty

def announce (s : RunSettings) : Work Unit := do
  Work.tell .logStarted
  Work.tell .debugLevel
  Work.tell (.configFile s.configPath.text)
  Work.tell (.regionsUsed s.regions)
  Work.tell (.yearsUsed s.horizon.years)

/-- Does a run with a log, and gives the path of its report. -/
def execute (s : RunSettings) : Work Path := do
  s.openLog
  s.announce
  s.evaluate

end RunSettings

/-- The options of a run that a command line asks for. -/
def Arguments.options (a : Arguments) : RunOptions :=
  { debug := a.debug, outputName := (a.outputName.map Value.text).getD .null }

/-- The settings of the run that a command line asks for. -/
def Arguments.prepare (a : Arguments) : Work RunSettings := do
  let path := a.configPath.getD (← Work.world).defaultConfig
  RunSettings.prepare a.options .fresh path

/-- The paths that a run looks at. With more files known there may be more of them, since a
configuration names a catalogue, and a catalogue names tables of points. -/
def Arguments.sources (a : Arguments) (w : World) : List Path :=
  let config := a.configPath.getD w.defaultConfig
  let named : List Path :=
    match RunSettings.describe w a.options .fresh config with
    | .error _ => []
    | .ok s =>
      let catalogue := s.catalogueFile.toList
      s.output :: s.priceFile.toList ++ catalogue ++
        catalogue.flatMap (Catalogue.pointsPaths w.files)
  w.activeConfig.toOption.toList ++ config :: named

/-- The line that ends a run, with the path of its report. -/
def resultLine (report : Path) : String :=
  "Results located in: " ++ report.text ++ "\n"

end Macc
