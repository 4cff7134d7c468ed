import Macc.FileTree
import Macc.Toml.Document

/-!
# Documents in files
-/

namespace Macc.Toml

/-- The table that a file describes; `unreadable` is the failure when it is no document. -/
def load (files : FileTree) (path : Path) (unreadable : Failure) :
    Except Failure (List (String × Value)) := do
  let bytes ← files.read path
  match parseBytes bytes with
  | .error .malformedDocument => throw unreadable
  | other => other

end Macc.Toml
