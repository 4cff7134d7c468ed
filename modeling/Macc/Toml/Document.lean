import Macc.Toml.Number
import Macc.Toml.Tree

/-!
# Reading TOML documents

A document is a sequence of lines: blank, a header that opens a section, or a key
with a value, each with an optional comment. The tree of `Toml.Tree` decides
which headers and keys may follow each other; here is the grammar.

Values nest, so their readers carry a bound on the depth. The number of
characters is one: every level of nesting begins with a character of its own.
-/

namespace Macc.Toml

/-! ## Values -/

def afterEquals (cs : List Char) : Except Failure (List Char) :=
  match cs with
  | '=' :: rest => .ok (skipGap rest)
  | _ => malformed

mutual

def readValue : Nat → List Char → Except Failure (Taken Value)
  | 0, _ => malformed
  | depth + 1, cs =>
    match cs with
    | '[' :: rest => do
      let items ← readItems depth (← skipLines false rest)
      return items.map .list
    | '\x7b' :: rest =>
      match skipGap rest with
      | '\x7d' :: left => .ok ⟨.table [], left⟩
      | left => do
        let nodes ← readPairs depth [] left
        return nodes.map fun ns => .table (closeEntries ns)
    | _ =>
      match string? cs with
      | some s => s.map (Taken.map .text)
      | none => (scalar? cs).getD malformed

def readItems : Nat → List Char → Except Failure (Taken (List Value))
  | 0, _ => malformed
  | depth + 1, cs =>
    match cs with
    | ']' :: rest => .ok ⟨[], rest⟩
    | _ => do
      let item ← readValue depth cs
      match ← skipLines false item.left with
      | ']' :: rest => return ⟨[item.got], rest⟩
      | ',' :: rest =>
        let items ← readItems depth (← skipLines false rest)
        return items.map (item.got :: ·)
      | _ => malformed

/-- The pairs of a table written as a value, up to its bracket, added to those before. -/
def readPairs : Nat → Nodes → List Char → Except Failure (Taken Nodes)
  | 0, _, _ => malformed
  | depth + 1, nodes, cs => do
    let path ← key cs
    let item ← readValue depth (← afterEquals path.left)
    let nodes ← atLast (enterDotted 0) (addEntry · item.got) path.got nodes
    match skipGap item.left with
    | '\x7d' :: rest => return ⟨nodes, rest⟩
    | ',' :: rest => readPairs depth nodes (skipGap rest)
    | _ => malformed

end

/-! ## Lines -/

/-- A document up to some line: its tree, the path of the section that is open, and how many
sections were opened. -/
structure Progress where
  nodes : Nodes
  header : List String
  sections : Nat

def afterBrackets (count : Nat) (cs : List Char) : Except Failure (List Char) :=
  if (List.replicate count ']').isPrefixOf cs then .ok (cs.drop count) else malformed

/-- A header, after its brackets, that makes its table by `change`. -/
def readHeader (brackets : Nat) (change : Nat → String → Change) (p : Progress)
    (cs : List Char) : Except Failure (Taken Progress) := do
  let path ← key (skipGap cs)
  let opened := p.sections + 1
  let nodes ← atLast enter (change opened) path.got p.nodes
  return ⟨⟨nodes, path.got, opened⟩, ← afterBrackets brackets path.left⟩

def readAssignment (p : Progress) (cs : List Char) : Except Failure (Taken Progress) := do
  let path ← key cs
  let item ← readValue (cs.length + 1) (← afterEquals path.left)
  let add := atLast (enterDotted p.sections) (addEntry · item.got) path.got
  return ⟨{ p with nodes := ← enter add p.header p.nodes }, item.left⟩

def readStatement (p : Progress) (cs : List Char) : Except Failure (Taken Progress) :=
  match cs with
  | '[' :: '[' :: rest => readHeader 2 (fun _ => appendTable) p rest
  | '[' :: rest => readHeader 1 declareTable p rest
  | '#' :: _ => .ok ⟨p, cs⟩
  | _ => readAssignment p cs

/-- The lines that are left, of which there are at most as many as the bound says. -/
def readLines : Nat → Progress → List Char → Except Failure Nodes
  | 0, _, _ => malformed
  | bound + 1, p, cs =>
    match skipGap cs with
    | [] => .ok p.nodes
    | '\n' :: rest => readLines bound p rest
    | line => do
      let statement ← readStatement p line
      match ← skipComment (skipGap statement.left) with
      | [] => return statement.got.nodes
      | '\n' :: rest => readLines bound statement.got rest
      | _ => malformed

/-- Line ends in one spelling. -/
def unifyLineEnds : List Char → List Char
  | '\r' :: '\n' :: rest => '\n' :: unifyLineEnds rest
  | c :: rest => c :: unifyLineEnds rest
  | [] => []

def parse (document : String) : Except Failure (List (String × Value)) := do
  let cs := unifyLineEnds document.toList
  let nodes ← readLines (cs.length + 1) ⟨[], [], 0⟩ cs
  return closeEntries nodes

def parseBytes (bytes : ByteArray) : Except Failure (List (String × Value)) :=
  match String.fromUTF8? bytes with
  | some document => parse document
  | none => .error .notUtf8

end Macc.Toml
