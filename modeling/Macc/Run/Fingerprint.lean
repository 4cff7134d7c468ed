import Macc.Digest.Sha256
import Macc.Value.Canonical
import Macc.Value.Reading

/-!
# Fingerprints of configurations

A run without a name is named after its configuration: the first digits of the
digest of its canonical text. The key that would name the run is left out, so
that a configuration has one fingerprint whether or not it is given a name.

A configuration with an integer that has too many digits to be written has no
text, and so no fingerprint. That a writer gives up where lists and tables are
nested too deeply is left out.
-/

namespace Macc.Fingerprint

def nameKey : String := "output_name"

/-- How many digits of the digest are shown. -/
def length : Nat := 10

/-- The entries that a fingerprint depends on. -/
def relevant (config : List (String × Value)) : List (String × Value) :=
  config.filter fun e => e.1 != nameKey

/-- The text that is digested. -/
def text (config : List (String × Value)) : Except Failure String :=
  let shown := Value.table (relevant config)
  if shown.isWritable then .ok shown.canonical else .error .unwritableInteger

def ofEntries (config : List (String × Value)) : Except Failure String := do
  return String.ofList ((Digest.hexOf (← text config)).take length)

/-- The fingerprint of a value, which must be a table. -/
def ofValue (config : Value) : Except Failure String :=
  match config with
  | .table entries => ofEntries entries
  | v => .error (.notTable v.kind)

end Macc.Fingerprint
