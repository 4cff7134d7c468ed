import Macc.Catalogue.Reading
import Macc.Toml.Writer

/-!
# Writing catalogues

A catalogue is written so that reading it gives the same strategies in the same
order: their names, the settings that differ from the defaults of the horizon,
and their points, one a line.
-/

namespace Macc.Catalogue

def writeEntry (h : Horizon) (entry : SourceKey × Strategy Float) : String :=
  let (key, s) := entry
  let sector := if key.sector.isEmpty then "" else Toml.writeLine "sector" (.text key.sector)
  let settings := (s.writtenSettings h).map fun f => Toml.writeLine f.1 f.2
  Toml.writeHeader tableKey ++ Toml.writeLine "gas" (.text key.gas) ++ sector ++
    String.join settings ++
    Toml.writeArray reductionField (s.curve.pairs.map Strategy.pointTable)

def text (h : Horizon) (catalogue : Catalogue Float) : String :=
  if catalogue.isEmpty then Toml.writeArray tableKey []
  else "\n".intercalate (catalogue.map (writeEntry h))

/-- Writes a catalogue to a path, whose directory is made if need be. -/
def save (files : FileTree) (h : Horizon) (path : Path) (catalogue : Catalogue Float) :
    FileTree × Except Failure Unit :=
  match files.withDirectory path.parent with
  | (ready, .ok ()) => ready.withFile path (text h catalogue).toUTF8
  | stopped => stopped

end Macc.Catalogue
