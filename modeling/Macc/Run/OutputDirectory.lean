import Macc.World

/-!
# Output directories

Each run has an output directory of its own. The first choice is a name; when
something stands there the name gets a number, and the least number that is free
is taken. The search ends after a fixed number of attempts.
-/

namespace Macc.OutputDirectory

/-- How many directories are tried. -/
def attempts : Nat := 1000

/-- The directory that is tried after `k` others: the first choice, then numbered ones beside it. -/
def alternative (choice : Path) (k : Nat) : Path :=
  if k = 0 then choice
  else choice.parent.child (choice.name ++ "_" ++ String.ofList (Text.padded 2 k))

/-- The first of some paths at which nothing stands. -/
def firstFree (files : FileTree) : List Path → Except Failure (Option Path)
  | [] => .ok none
  | p :: rest => do
    if ← files.pathExists p then firstFree files rest else return some p

/-- The directory for a run whose first choice is `choice`. -/
def select (files : FileTree) (choice : Path) : Except Failure Path := do
  match ← firstFree files ((List.range attempts).map (alternative choice)) with
  | some p => return p
  | none => throw (.noFreeDirectory choice.name attempts)

def ensure (p : Path) : Work Unit := do
  if (← Work.world).files.surelyExists p then Work.tell (.directoryExists p.text)
  else Work.onFiles fun files => files.makeDirectories (p.parts.length + 1) p

end Macc.OutputDirectory
