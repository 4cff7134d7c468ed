import Macc.Catalogue.Reading
import Macc.Price.Reading
import Macc.Reduction.Written
import Macc.Run.Settings

/-!
# Evaluating a run

A run reads its prices and its curves, evaluates every curve for every region and
model year, and writes the report into its output directory. While it lasts, the
constants are those of its own configuration; afterwards they are resolved as
they were before, whether it succeeded or not.
-/

namespace Macc.RunSettings

/-- The name of the file that the report is written to. -/
def reportName : String := "reductions.csv"

/-- Writes the report into the output directory, which must be there. -/
def writeReport (s : RunSettings) (text : String) : Work Path := do
  if (← Work.world).files.isDirectory s.output then
    let path := s.output.child reportName
    Work.onFiles fun files => files.withFile path text.toUTF8
    return path
  else throw (.noOutputDirectory s.output.text)

/-- The rows of a run's report, under constants that are in force. -/
def rows (s : RunSettings) (files : FileTree) (constants : Constants Float)
    (catalogueFile priceFile : Path) : Attempt (List (ReductionRow Float)) := do
  report (.readingPrices priceFile.text)
  let prices ← PriceTable.load files priceFile (some s.horizon)
  report (.readingCurves catalogueFile.text)
  let catalogue ← Catalogue.load files s.horizon catalogueFile
  for entry in catalogue do
    Attempt.ofLogged (entry.2.check entry.1.gas)
  if s.regions.isEmpty then report .noRegions
  reductionReport ⟨constants, s.horizon, prices⟩ catalogue s.regions none

/-- What a run does under constants that are in force. -/
def evaluateHere (s : RunSettings) (catalogueFile priceFile : Path) : Work Path := do
  let w ← Work.world
  Work.tell (.constantSources w.sortedSources)
  if !s.overrides.isEmpty then Work.tell (.constantOverrides s.overrides)
  let found ← Work.ofAttempt (s.rows w.files w.constants catalogueFile priceFile)
  let path ← s.writeReport (reportText found)
  Work.tell (.wroteReductions found.length path.text)
  return path

/-- Evaluates a run and gives the path of its report. -/
def evaluate (s : RunSettings) : Work Path :=
  match s.catalogueFile, s.priceFile with
  | none, _ => throw .catalogueUnset
  | _, none => throw .pricesUnset
  | some catalogueFile, some priceFile =>
    withScope s.configPath (s.evaluateHere catalogueFile priceFile)

end Macc.RunSettings
