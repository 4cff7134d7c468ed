import Macc.Failure
import Macc.Text.Blank

/-!
# Names of output directories

A run may be given a name, which becomes the name of its output directory. Only
letters and digits of ASCII, points and hyphens are taken over; everything else
becomes an underscore, of which no two stand together and none at an end. A name
with nothing to take over is refused.
-/

namespace Macc.OutputName

/-- What stands for characters that are not taken over. -/
def filler : Char := '_'

/-- Whether a character is taken over. -/
def isKept (c : Char) : Bool :=
  let n := c.toNat
  (48 ≤ n && n ≤ 57) || (65 ≤ n && n ≤ 90) || (97 ≤ n && n ≤ 122) || n == 45 || n == 46

/-- Whether a character may stand in the name of a directory. -/
def isAllowed (c : Char) : Bool :=
  isKept c || c == filler

/-- The characters with one filler for each run of those that `p` holds of: it stands in place of
the last one. -/
def squeeze (p : Char → Bool) : List Char → List Char
  | [] => []
  | c :: rest =>
    if p c then
      if rest.head?.any p then squeeze p rest else filler :: squeeze p rest
    else c :: squeeze p rest

/-- The characters with one filler for each run of fillers. -/
def collapse (cs : List Char) : List Char :=
  squeeze (· == filler) cs

/-- The characters without fillers at their ends. -/
def trimmed (cs : List Char) : List Char :=
  Text.trimBy (· == filler) cs

/-- The characters of the directory name that a given name stands for. Blanks around the name are
left out; what may not stand in a directory name is replaced; then the fillers are brought into
order, the new ones together with those that were given. -/
def reduce (cs : List Char) : List Char :=
  trimmed (collapse (squeeze (fun c => !isAllowed c) (Text.trimBy Text.isBlank cs)))

def sanitize (given : String) : Except Failure String :=
  match reduce given.toList with
  | [] => .error .outputNameEmpty
  | cs => .ok (String.ofList cs)

end Macc.OutputName
