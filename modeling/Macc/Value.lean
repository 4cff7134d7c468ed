import Macc.Calendar
import Macc.Decimal.Notation
import Macc.Text.Quoted

/-!
# Loosely typed values

Configuration documents and field lists hold values whose type is not known
until they are read: a number may be written as text, a flag as a number. This
is the type of such a value, with the two ways of showing it that messages use:
plainly, and as a literal with quotes and brackets.

A table keeps its entries in the order they were written, because files that are
written back show that order, and holds each key once.

Lists and tables may be nested to any depth, and every value can be shown.
-/

namespace Macc

inductive Value where
  | null
  | bool (b : Bool)
  | int (n : Int)
  | float (x : Float)
  | text (s : String)
  | list (items : List Value)
  | table (entries : List (String × Value))
  | date (d : Date)
  | time (t : TimeOfDay)
  | moment (m : Moment)
  deriving Inhabited

namespace Value

inductive Kind where
  | null
  | bool
  | int
  | float
  | text
  | list
  | table
  | date
  | time
  | moment
  deriving Repr, DecidableEq

def kind : Value → Kind
  | .null => .null
  | .bool _ => .bool
  | .int _ => .int
  | .float _ => .float
  | .text _ => .text
  | .list _ => .list
  | .table _ => .table
  | .date _ => .date
  | .time _ => .time
  | .moment _ => .moment

/-- The name of a kind without the family it belongs to. -/
def Kind.shortName : Kind → String
  | .null => "NoneType"
  | .bool => "bool"
  | .int => "int"
  | .float => "float"
  | .text => "str"
  | .list => "list"
  | .table => "dict"
  | .date => "date"
  | .time => "time"
  | .moment => "datetime"

def Kind.name : Kind → String
  | .date => "datetime.date"
  | .time => "datetime.time"
  | .moment => "datetime.datetime"
  | k => k.shortName

mutual

/-- A value as a literal: text is quoted, lists and tables are bracketed. -/
def literal : Value → String
  | .null => "None"
  | .bool true => "True"
  | .bool false => "False"
  | .int n => toString n
  | .float x => Decimal.floatText x
  | .text s => Text.quoted s
  | .list items => "[" ++ ", ".intercalate (literals items) ++ "]"
  | .table entries => "\x7b" ++ ", ".intercalate (entryLiterals entries) ++ "\x7d"
  | .date d => d.literal
  | .time t => t.literal
  | .moment m => m.literal

def literals : List Value → List String
  | [] => []
  | v :: rest => literal v :: literals rest

/-- The entries of a table, each as its key, a colon and its value. -/
def entryLiterals : List (String × Value) → List String
  | [] => []
  | (key, v) :: rest => (Text.quoted key ++ ": " ++ literal v) :: entryLiterals rest

end

/-- A value without decoration: text and dates stand as they are, all else is as in a literal. -/
def plain : Value → String
  | .text s => s
  | .date d => d.text
  | .time t => t.text
  | .moment m => m.text
  | v => literal v

end Value

end Macc
