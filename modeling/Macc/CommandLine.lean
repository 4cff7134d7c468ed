import Macc.Failure
import Macc.Path
import Macc.Text.Digit

/-!
# The command line

A run is started with three options: `--config` and `--output-name`, which take
a value, and `--debug`, which takes none; `--help` asks for help. A long option
may be cut as long as it is clear which one is meant, and a value may be
attached to it behind an equals sign.

Each argument is first classified by itself, so that an option whose meaning is
open is refused before anything else is looked at. Then the arguments are taken
from the left: the first request for help and the first misuse end the reading,
and what is no option and no value of one is refused at the end.
-/

namespace Macc

structure Arguments where
  configPath : Option Path
  outputName : Option String
  debug : Bool

namespace CommandLine

inductive Switch where
  | help
  | config
  | outputName
  | debug
  deriving Repr, DecidableEq

def switches : List (String × Switch) :=
  [("--help", .help), ("--config", .config), ("--output-name", .outputName), ("--debug", .debug)]

inductive Argument where
  /-- A text that may be the value of an option. -/
  | word (text : String)
  /-- What can be neither an option nor the value of one. -/
  | stray
  /-- An option, with the value that is attached to it. -/
  | option (switch : Switch) (attached : Option String)

def helpShown : Failure := .exit 0

/-- The end of a program whose command line cannot be used. -/
def misused : Failure := .exit 2

/-- The characters before the first equals sign, and those behind it if there is one. -/
def splitEquals (cs : List Char) : List Char × Option String :=
  match cs.span (· != '=') with
  | (name, []) => (name, none)
  | (name, _ :: value) => (name, some (String.ofList value))

/-- Whether the characters behind a hyphen make a number: digits, or digits behind a point, and
perhaps the end of a line. -/
def isNumber (cs : List Char) : Bool :=
  let body := if cs.getLast? == some '\n' then cs.dropLast else cs
  let isDigit (c : Char) : Bool := (Text.digitValue? c).isSome
  match body.dropWhile isDigit with
  | [] => !body.isEmpty
  | '.' :: places => !places.isEmpty && places.all isDigit
  | _ => false

/-- Whether the characters behind `-h` still ask for help. The letter may be repeated, also behind an
equals sign, and nothing else may follow it. -/
def asksHelp : List Char → Bool
  | [] => true
  | '=' :: letters => !letters.isEmpty && letters.all (· == 'h')
  | letters => letters.all (· == 'h')

/-- Classifies an argument that begins with a hyphen and goes on with `second` and `rest`. -/
def classifyDashed (second : Char) (rest : List Char) : Except Failure Argument :=
  let cs := '-' :: second :: rest
  let (name, attached) := splitEquals cs
  let meant := switches.filter fun s => name.isPrefixOf s.1.toList
  let other : Argument :=
    if isNumber (second :: rest) || cs.contains ' ' then .word (String.ofList cs) else .stray
  if second == '-' then
    match meant with
    | [] => .ok other
    | [s] => .ok (.option s.2 attached)
    | _ => .error misused
  else if second == 'h' then
    .ok (.option .help (if asksHelp rest then none else some (String.ofList rest)))
  else .ok other

def classify (argument : String) : Except Failure Argument :=
  match argument.toList with
  | '-' :: second :: rest => classifyDashed second rest
  | _ => .ok (.word argument)

/-- Classifies arguments; two hyphens end them, and no use is made of what follows. -/
def classifyAll : List String → Except Failure (List Argument)
  | [] => .ok []
  | argument :: rest =>
    if argument == "--" then .ok [.stray]
    else do
      let first ← classify argument
      return first :: (← classifyAll rest)

def withValue (a : Arguments) (switch : Switch) (value : String) : Arguments :=
  match switch with
  | .config => { a with configPath := some (Path.parse value) }
  | .outputName => { a with outputName := some value }
  | _ => a

/-- Takes classified arguments from the left; `clean` says that nothing stray came before. -/
def collect (clean : Bool) (a : Arguments) : List Argument → Except Failure Arguments
  | [] => if clean then .ok a else .error misused
  | .word _ :: rest => collect false a rest
  | .stray :: rest => collect false a rest
  | .option .help none :: _ => .error helpShown
  | .option .help (some _) :: _ => .error misused
  | .option .debug none :: rest => collect clean { a with debug := true } rest
  | .option .debug (some _) :: _ => .error misused
  | .option switch (some value) :: rest => collect clean (withValue a switch value) rest
  | .option switch none :: .word value :: rest => collect clean (withValue a switch value) rest
  | .option _ none :: _ => .error misused

def usage : String :=
  "usage: macc [-h] [--config CONFIG_PATH] [--output-name OUTPUT_NAME] [--debug]\n\n" ++
  "Evaluates marginal abatement cost curves for every region and model year.\n\n" ++
  "  -h, --help                 show this message and exit\n" ++
  "  --config CONFIG_PATH       the run configuration\n" ++
  "  --output-name OUTPUT_NAME  the name of the output directory\n" ++
  "  --debug                    log details as well\n"

def parse (arguments : List String) : Except Failure Arguments := do
  collect true ⟨none, none, false⟩ (← classifyAll arguments)

end CommandLine

end Macc
