import Macc.Failure

/-!
# Comma-separated records

A table file is a sequence of records of cells. A cell may stand between double
quotes, and then holds commas and line ends as they are and a quote when it is
doubled; what follows the closing quote is added to it. Lines end in a line feed,
a carriage return, or both. Lines that hold nothing but blanks are skipped.

The text is read from the left, character by character, in one of the modes
below.
-/

namespace Macc.Csv

/-- Where in a record the reading stands. -/
inductive Mode where
  /-- Before a record. -/
  | recordStart
  /-- In a line that so far holds only these blanks, in reverse. -/
  | blankLine (blanks : List Char)
  /-- Before a cell. -/
  | cellStart
  /-- In a cell without quotes, or behind its closing quote. -/
  | inCell
  /-- Between quotes. -/
  | inQuotes
  /-- Behind a quote between quotes, which closes them unless another quote follows. -/
  | afterQuote
  /-- Behind a carriage return that ends a record. -/
  | afterReturn
  /-- Behind a carriage return that ends a skipped line. -/
  | afterSkippedReturn
  deriving DecidableEq

/-- What has been read; cells, records and the current cell are in reverse. -/
structure Progress where
  mode : Mode
  cell : List Char
  cells : List String
  records : List (List String)

def Progress.start : Progress := ⟨.recordStart, [], [], []⟩

/-- The text of a cell, which ends at a null character. -/
def cellText (reversed : List Char) : String :=
  String.ofList (reversed.reverse.takeWhile (·.toNat != 0))

namespace Progress

def endCell (p : Progress) : Progress :=
  { p with cell := [], cells := cellText p.cell :: p.cells }

def endRecord (p : Progress) : Progress :=
  ⟨.recordStart, [], [], p.cells.reverse :: p.records⟩

def push (p : Progress) (c : Char) (mode : Mode) : Progress :=
  { p with mode, cell := c :: p.cell }

def isGap (c : Char) : Bool := c == ' ' || c == '\t'

/-- A character that ends a cell without quotes, or continues it. -/
def inCellStep (p : Progress) (c : Char) : Progress :=
  if c == '\n' then p.endCell.endRecord
  else if c == '\r' then { p.endCell with mode := .afterReturn }
  else if c == ',' then { p.endCell with mode := .cellStart }
  else p.push c .inCell

def cellStartStep (p : Progress) (c : Char) : Progress :=
  if c == '"' then { p with mode := .inQuotes } else p.inCellStep c

def recordStartStep (p : Progress) (c : Char) : Progress :=
  if c == '\n' then { p with mode := .recordStart }
  else if c == '\r' then { p with mode := .afterSkippedReturn }
  else if isGap c then { p with mode := .blankLine [c] }
  else p.cellStartStep c

def step (p : Progress) (c : Char) : Progress :=
  match p.mode with
  | .recordStart => p.recordStartStep c
  | .blankLine blanks =>
    if c == '\n' then { p with mode := .recordStart }
    else if c == '\r' then { p with mode := .afterSkippedReturn }
    else if isGap c then { p with mode := .blankLine (c :: blanks) }
    else { p with cell := blanks }.inCellStep c
  | .cellStart => p.cellStartStep c
  | .inCell => p.inCellStep c
  | .inQuotes => if c == '"' then { p with mode := .afterQuote } else p.push c .inQuotes
  | .afterQuote => if c == '"' then p.push c .inQuotes else p.inCellStep c
  | .afterReturn => if c == '\n' then p.endRecord else p.endRecord.recordStartStep c
  | .afterSkippedReturn =>
    if c == '\n' then { p with mode := .recordStart } else p.recordStartStep c

/-- The records, when the text ends here. Quotes must be closed. -/
def finish (p : Progress) : Except Failure (List (List String)) :=
  match p.mode with
  | .recordStart | .blankLine _ | .afterSkippedReturn => .ok p.records.reverse
  | .inQuotes => .error .malformedTable
  | .afterReturn => .ok p.endRecord.records.reverse
  | .cellStart | .inCell | .afterQuote => .ok p.endCell.endRecord.records.reverse

end Progress

/-- The records of a text. A byte order mark in front of it is no part of it. -/
def records (text : String) : Except Failure (List (List String)) :=
  let cs := text.toList
  let body := if cs.head? == some (Char.ofNat 0xfeff) then cs.drop 1 else cs
  (body.foldl Progress.step Progress.start).finish

def pad (width : Nat) (record : List String) : List String :=
  record ++ List.replicate (width - record.length) ""

/-- The header and the rows of a table. The first row decides how wide rows are, at least as wide as
the header; shorter rows are filled up, and a wider one is refused. Cells by which rows are wider
than the header stand in front of it and belong to no column. -/
def headerAndRows (records : List (List String)) :
    Except Failure (List String × List (List String)) :=
  match records with
  | [] => .error .emptyTable
  | header :: rows =>
    let width := max header.length ((rows.head?.map List.length).getD 0)
    if rows.any fun row => width < row.length then .error .malformedTable
    else .ok (header, rows.map fun row => (pad width row).drop (width - header.length))

end Macc.Csv
