import Macc.Value

/-!
# What can go wrong

Every way in which a reading, a computation or a run can end without an answer is
a constructor here, carrying what its message needs. Code that recovers asks for
the kind, never for the wording; the wording is in one function at the end.
-/

namespace Macc

/-- What ended a computation. -/
inductive Failure where
  -- reading numbers, flags and text
  | realText (text : String)
  | realKind (kind : Value.Kind)
  | integerText (text : String)
  | integerKind (kind : Value.Kind)
  | integerDigits (digits : Nat)
  | unwritableInteger
  | notFlag (value : Value)
  | notWhole (value : Value)
  | missingValue
  | nullCast
  -- arithmetic
  | integerTooLarge
  | infiniteInteger
  | nanInteger
  | divisionByZero
  | powerOverflow
  -- fields and points
  | tooFewParts (found : Nat)
  | tooManyParts
  | notParts (kind : Value.Kind)
  | missingKey (key : String)
  | notPair
  -- the horizon
  | yearsNotIntegers
  | noYears
  | yearsNotIncreasing (years : List Value)
  | outsideHorizon (period last : Int)
  -- tables of prices and points
  | emptyTable
  | malformedTable
  | notUtf8
  | malformedDocument
  | priceFileMissing (path : String)
  | priceColumns (missing : List String)
  | noPeriodColumn
  | noHorizon
  | pointsFileMissing (path : String)
  | pointsColumns (file : String) (missing : List String)
  | repeatedColumn
  | raggedColumns
  -- catalogues
  | catalogueMissing (path : String)
  | catalogueUnreadable (path : String)
  | notEntries (path : String)
  | entryNotTable (position : Nat) (path : String)
  | entryWithoutGas (position : Nat) (path : String)
  -- files and directories
  | notPath (kind : Value.Kind)
  | noHome
  | nullInPath
  | missingFile (path : String)
  | isDirectory (path : String)
  | notDirectory (path : String)
  | fileExists (path : String)
  | nameTooLong (path : String)
  -- runs
  | configMissing (path : String)
  | configUnreadable (path : String)
  | yearsMissing
  | years (cause : Failure)
  | notIterable (kind : Value.Kind)
  | noOutputBase
  | outputNameEmpty
  | noFreeDirectory (name : String) (attempts : Nat)
  | noOutputDirectory (path : String)
  | catalogueUnset
  | pricesUnset
  | notTable (kind : Value.Kind)
  | exit (code : Nat)

/-- The kinds of failure that callers tell apart. -/
inductive FailureKind where
  | value
  | type
  | key
  | index
  | attribute
  | overflow
  | zeroDivision
  | runtime
  | missingFile
  | isDirectory
  | notDirectory
  | fileExists
  | system
  | emptyTable
  | malformedTable
  | encoding
  | exit
  deriving Repr, DecidableEq

namespace Failure

def kind : Failure → FailureKind
  | .realText _ | .integerText _ | .integerDigits _ | .unwritableInteger | .notFlag _
  | .notWhole _ | .missingValue | .nanInteger | .tooFewParts _ | .tooManyParts | .notPair
  | .noYears | .yearsNotIncreasing _ | .priceColumns _ | .noPeriodColumn | .noHorizon
  | .pointsColumns .. | .catalogueUnreadable _ | .entryWithoutGas .. | .nullInPath
  | .configUnreadable _ | .yearsMissing | .years _ | .outputNameEmpty | .catalogueUnset
  | .pricesUnset | .malformedDocument | .raggedColumns => .value
  | .realKind _ | .integerKind _ | .nullCast | .notParts _ | .yearsNotIntegers | .repeatedColumn
  | .notEntries _ | .entryNotTable .. | .notPath _ | .notIterable _ | .noOutputBase => .type
  | .missingKey _ => .key
  | .outsideHorizon .. => .index
  | .notTable _ => .attribute
  | .integerTooLarge | .infiniteInteger | .powerOverflow => .overflow
  | .divisionByZero => .zeroDivision
  | .noHome | .noFreeDirectory .. => .runtime
  | .priceFileMissing _ | .pointsFileMissing _ | .catalogueMissing _ | .missingFile _
  | .configMissing _ => .missingFile
  | .isDirectory _ => .isDirectory
  | .notDirectory _ => .notDirectory
  | .fileExists _ => .fileExists
  | .nameTooLong _ | .noOutputDirectory _ => .system
  | .emptyTable => .emptyTable
  | .malformedTable => .malformedTable
  | .notUtf8 => .encoding
  | .exit _ => .exit

/-- Whether a failure says that a value is of poor quality, so that reading goes on without it. -/
def isBadValue (f : Failure) : Bool :=
  match f.kind with
  | .type | .value => true
  | _ => false

def systemText (number : Nat) (what path : String) : String :=
  "[Errno " ++ natText number ++ "] " ++ what ++ ": " ++ Text.quoted path

/-- The first two hundred characters of a quoted text; refused integers are shown no further. -/
def quotedStart (s : String) : String :=
  String.ofList ((Text.quoted s).toList.take 200)

/-- What is said about a document that cannot be read. -/
def notToml : String := "not a TOML document"

def message : Failure → String
  | .realText s => "could not convert string to float: " ++ Text.quoted s
  | .realKind k => "float() argument must be a string or a real number, not '" ++ k.name ++ "'"
  | .integerText s => "invalid literal for int() with base 10: " ++ quotedStart s
  | .integerKind k =>
    "int() argument must be a string, a bytes-like object or a real number, not '" ++ k.name ++ "'"
  | .integerDigits n =>
    "Exceeds the limit (4300 digits) for integer string conversion: value has " ++ natText n ++
      " digits; use sys.set_int_max_str_digits() to increase the limit"
  | .unwritableInteger =>
    "Exceeds the limit (4300 digits) for integer string conversion; " ++
      "use sys.set_int_max_str_digits() to increase the limit"
  | .notFlag v => v.literal ++ " is not a boolean value"
  | .notWhole v => v.literal ++ " is not an integer"
  | .missingValue => "missing value"
  | .nullCast => "NoneType takes no arguments"
  | .integerTooLarge => "int too large to convert to float"
  | .infiniteInteger => "cannot convert float infinity to integer"
  | .nanInteger => "cannot convert float NaN to integer"
  | .divisionByZero => "float division by zero"
  | .powerOverflow => "(34, 'Numerical result out of range')"
  | .tooFewParts n => "not enough values to unpack (expected 2, got " ++ natText n ++ ")"
  | .tooManyParts => "too many values to unpack (expected 2)"
  | .notParts k => "cannot unpack non-iterable " ++ k.name ++ " object"
  | .missingKey key => Text.quoted key
  | .notPair => "expected a (tax, value) pair"
  | .yearsNotIntegers => "Model years must be integers"
  | .noYears => "Modeltime requires at least one model year"
  | .yearsNotIncreasing ys =>
    "Model years must be strictly increasing: " ++ (Value.list ys).literal
  | .outsideHorizon period last =>
    "Period " ++ toString period ++ " outside model horizon 0.." ++ toString last
  | .emptyTable => "No columns to parse from file"
  | .malformedTable => "a row has more cells than the table has columns"
  | .notUtf8 => "the bytes are not UTF-8"
  | .malformedDocument => notToml
  | .priceFileMissing path => "Price file not found: " ++ path
  | .priceColumns missing =>
    "Price frame is missing required columns: " ++ ", ".intercalate missing
  | .noPeriodColumn => "Price frame requires a 'period' or 'year' column"
  | .noHorizon => "A Modeltime is required to map price years onto periods"
  | .pointsFileMissing path => "Reduction points file not found: " ++ path
  | .pointsColumns file missing =>
    file ++ " is missing required columns: " ++ ", ".intercalate missing
  | .repeatedColumn => "arg must be a list, tuple, 1-d array, or Series"
  | .raggedColumns => "All arrays must be of the same length"
  | .catalogueMissing path => "MAC definition file not found: " ++ path
  | .catalogueUnreadable path =>
    "Unable to parse MAC definition file " ++ path ++ ": " ++ notToml
  | .notEntries path => "'mac' in " ++ path ++ " must be an array of tables"
  | .entryNotTable position path =>
    "Entry " ++ natText position ++ " of 'mac' in " ++ path ++ " is not a table"
  | .entryWithoutGas position path =>
    "Entry " ++ natText position ++ " of 'mac' in " ++ path ++ " has no gas"
  | .notPath k => "expected str, bytes or os.PathLike object, not " ++ k.shortName
  | .noHome => "Could not determine home directory."
  | .nullInPath => "embedded null byte"
  | .missingFile path => systemText 2 "No such file or directory" path
  | .isDirectory path => systemText 21 "Is a directory" path
  | .notDirectory path => systemText 20 "Not a directory" path
  | .fileExists path => systemText 17 "File exists" path
  | .nameTooLong path => systemText 36 "File name too long" path
  | .configMissing path => "Run configuration not found: " ++ path
  | .configUnreadable path => "Unable to parse " ++ path ++ ": " ++ notToml
  | .yearsMissing => "years: model years must be listed in run_config.toml"
  | .years cause => "years: " ++ cause.message
  | .notIterable k => "'" ++ k.name ++ "' object is not iterable"
  | .noOutputBase => "unsupported operand type(s) for /: 'NoneType' and 'str'"
  | .outputNameEmpty => "Output directory override must include at least one valid character"
  | .noFreeDirectory name attempts =>
    "Unable to find a unique output directory for '" ++ name ++ "' after " ++ natText attempts ++
      " attempts"
  | .noOutputDirectory path =>
    "Cannot save file into a non-existent directory: '" ++ path ++ "'"
  | .catalogueUnset => "mac_file: a MAC definition file must be set in run_config.toml"
  | .pricesUnset => "price_file: a market price file must be set in run_config.toml"
  | .notTable k => "'" ++ k.name ++ "' object has no attribute 'items'"
  | .exit code => natText code

end Failure

end Macc
