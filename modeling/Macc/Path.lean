import Macc.Failure

/-!
# Paths

A path is a root, or none, and the parts below it. Empty parts and single points
vanish when a path is read; two points stay, because where they lead depends on
the directories that are there. Two slashes at the front are a root of their
own, three or more are one.

A tilde stands for the home directory that the environment names, unless that
begins with a tilde itself. The database of users is left out: without a name in
the environment there is no home, and the homes of other users are not known.
-/

namespace Macc

/-- Where a path begins. -/
inductive Path.Root where
  | here
  | single
  | double
  deriving Repr, DecidableEq

structure Path where
  root : Path.Root
  parts : List String
  deriving Repr, DecidableEq

namespace Path

def splitSlashes : List Char → List (List Char)
  | [] => [[]]
  | c :: rest =>
    if c == '/' then [] :: splitSlashes rest
    else
      match splitSlashes rest with
      | piece :: pieces => (c :: piece) :: pieces
      | [] => [[c]]

def partsOf (cs : List Char) : List String :=
  ((splitSlashes cs).filter fun piece => !piece.isEmpty && piece != ['.']).map String.ofList

def parse (s : String) : Path :=
  let cs := s.toList
  let root : Root :=
    match cs.takeWhile (· == '/') with
    | [] => .here
    | ['/', '/'] => .double
    | _ => .single
  ⟨root, partsOf cs⟩

def text (p : Path) : String :=
  let below := "/".intercalate p.parts
  match p.root with
  | .here => if p.parts.isEmpty then "." else below
  | .single => "/" ++ below
  | .double => "//" ++ below

def isAbsolute (p : Path) : Bool :=
  p.root != .here

/-- `q` as seen from `p`. -/
def join (p q : Path) : Path :=
  if q.isAbsolute then q else ⟨p.root, p.parts ++ q.parts⟩

def child (p : Path) (name : String) : Path :=
  p.join (parse name)

def parent (p : Path) : Path :=
  ⟨p.root, p.parts.dropLast⟩

def name (p : Path) : String :=
  p.parts.getLast?.getD ""

/-- The path of a home directory, written without slashes at its end. -/
def ofHome (home : String) : Path :=
  let trimmed := String.ofList (home.toList.reverse.dropWhile (· == '/')).reverse
  if trimmed.isEmpty then ⟨.single, []⟩ else parse trimmed

/-- The path with a tilde at its front replaced by the home directory. -/
def expandHome (home : Option String) (p : Path) : Except Failure Path :=
  match p.root, p.parts with
  | .here, first :: rest =>
    if first.toList.head? == some '~' then
      match first == "~", home with
      | true, some h =>
        if h.toList.head? == some '~' then .error .noHome
        else
          let base := ofHome h
          .ok ⟨base.root, base.parts ++ rest⟩
      | _, _ => .error .noHome
    else .ok p
  | _, _ => .ok p

end Path

end Macc
