import Macc.Failure

/-!
# What is reported along the way

Data of poor quality does not stop an evaluation: it is reported and replaced by
a default. Each report is a constructor with what its text needs; how severe it
is, which part of the program speaks, and the text are functions of it, so that
code and theorems count and compare reports without looking at their wording.

Numbers that were computed are held as the text they are shown with. An integer
that was read is shown with all its digits, also where it has more than can be
written and a log would have to leave the report out.
-/

namespace Macc

/-- How much a report matters, least first. -/
inductive Severity where
  | debug
  | info
  | warning
  | error
  deriving Repr, DecidableEq

inductive Notice where
  /-- A control point took the place of an earlier one at the same price. -/
  | replacedPoint (x old new : String)
  /-- The market has no price in the region and period. -/
  | missingPrice (market region period : String)
  /-- The shift fuel has no price in the base period. -/
  | noBasePrice (fuel region : String)
  /-- The period has no year, so its cost decline is unknown. -/
  | noCostYear (period : Int) (cause : Failure)
  /-- A field's value was refused and the earlier one kept. -/
  | invalidField (value : Value) (field owner : String) (kept : Value) (cause : Failure)
  /-- A field has a name that is not known. -/
  | unknownField (name : String)
  /-- A reduction entry was refused. -/
  | ignoredEntry (entry : Value) (owner : String) (cause : Failure)
  /-- A reduction field is neither a table nor a list. -/
  | ignoredReduction (value : Value) (owner : String)
  /-- A curve has no points. -/
  | noData (gas : String)
  /-- The technology ramp has no length or nothing to rise to. -/
  | undefinedRamp (owner : String) (finalPeriod : Int)
  /-- A curve has no value at a price. -/
  | unevaluable (owner price : String)
  /-- Price rows were dropped because their year is not a model year. -/
  | droppedYears (rows : Nat)
  /-- Price rows were dropped because their period or price is no number. -/
  | droppedPrices (rows : Nat)
  /-- Point rows were dropped because one of their numbers is none. -/
  | droppedPoints (rows : Nat) (path : String)
  /-- An entry has the gas and sector of an earlier one. -/
  | repeatedEntry (gas sector path : String)
  /-- A catalogue was read. -/
  | loaded (curves : Nat) (path : String)
  /-- An override was refused and the default taken. -/
  | invalidOverride (key : String) (raw : Value) (source : String) (cause : Failure)
  /-- The overrides of a run configuration could not be read. -/
  | unreadableOverrides (path : String) (cause : Failure)
  /-- A directory that should be made is there. -/
  | directoryExists (path : String)
  /-- Where the constants of a run come from. -/
  | constantSources (sources : List (String × String))
  /-- Which constants the run configuration sets. -/
  | constantOverrides (overrides : List (String × Value))
  | readingPrices (path : String)
  | readingCurves (path : String)
  /-- A run has no regions. -/
  | noRegions
  | wroteReductions (rows : Nat) (path : String)
  | logStarted
  | debugLevel
  | configFile (path : String)
  | regionsUsed (regions : List String)
  | yearsUsed (years : List Int)

namespace Notice

def severity : Notice → Severity
  | .replacedPoint .. | .unreadableOverrides .. | .debugLevel => .debug
  | .loaded .. | .directoryExists _ | .constantSources _ | .constantOverrides _
  | .readingPrices _ | .readingCurves _ | .wroteReductions .. | .logStarted | .configFile _
  | .regionsUsed _ | .yearsUsed _ => .info
  | .missingPrice .. | .noBasePrice .. | .invalidField .. | .unknownField _ | .ignoredEntry ..
  | .ignoredReduction .. | .droppedYears _ | .droppedPrices _ | .droppedPoints ..
  | .repeatedEntry .. | .invalidOverride .. | .noRegions => .warning
  | .noCostYear .. | .noData _ | .undefinedRamp .. | .unevaluable .. => .error

/-- The part of the program that speaks, as run logs name it. -/
def speaker : Notice → String
  | .replacedPoint .. => "abatement.curves.point_set"
  | .missingPrice .. | .droppedYears _ | .droppedPrices _ => "abatement.markets.frame_source"
  | .noBasePrice .. | .noCostYear .. => "abatement.mac.adjusters"
  | .invalidField .. | .unknownField _ | .ignoredEntry .. | .ignoredReduction .. | .noData _
  | .undefinedRamp .. | .unevaluable .. => "abatement.mac.evaluator"
  | .droppedPoints .. | .repeatedEntry .. | .loaded .. => "abatement.io.mac_files"
  | .invalidOverride .. | .unreadableOverrides .. => "abatement.constants_overrides"
  | .directoryExists _ => "src.common.utilities"
  | .constantSources _ | .constantOverrides _ | .readingPrices _ | .readingCurves _ | .noRegions
  | .wroteReductions .. => "src.integrator.runner"
  | .logStarted | .debugLevel | .configFile _ | .regionsUsed _ | .yearsUsed _ => "main_script"

def message : Notice → String
  | .replacedPoint x old new =>
    "Replacing curve point at x=" ++ x ++ ": y " ++ old ++ " -> " ++ new
  | .missingPrice market region period =>
    "Market " ++ market ++ " does not exist in region " ++ region ++ " for period " ++ period
  | .noBasePrice fuel region =>
    "No base period price for shift fuel " ++ fuel ++ " in " ++ region ++ "; skipping fuel shift"
  | .noCostYear period cause =>
    "Unable to apply cost reduction in period " ++ toString period ++ ": " ++ cause.message
  | .invalidField value field owner kept cause =>
    "Invalid value " ++ value.literal ++ " for " ++ field ++ " in " ++ owner ++ "; keeping " ++
      kept.literal ++ ": " ++ cause.message
  | .unknownField name => "Unrecognized field " ++ name ++ " found while parsing mac."
  | .ignoredEntry entry owner cause =>
    "Ignoring reduction entry " ++ entry.literal ++ " in " ++ owner ++ ": " ++ cause.message
  | .ignoredReduction value owner =>
    "Ignoring reduction entry " ++ value.literal ++ " in " ++ owner
  | .noData gas => "MAC for gas " ++ gas ++ " appears to have no data."
  | .undefinedRamp owner finalPeriod =>
    "Technology change ramp for " ++ owner ++ " is undefined with final reduction period " ++
      toString finalPeriod ++ "; reduction left unscaled."
  | .unevaluable owner price =>
    "An error occurred when evaluating MAC curve " ++ owner ++ " at carbon price " ++ price ++ "."
  | .droppedYears rows =>
    "Dropping " ++ natText rows ++ " price rows for years outside the model horizon"
  | .droppedPrices rows => "Dropping " ++ natText rows ++ " price rows with non-numeric values"
  | .droppedPoints rows path =>
    "Dropping " ++ natText rows ++ " non-numeric rows from " ++ path
  | .repeatedEntry gas sector path =>
    "Duplicate MAC for gas " ++ gas ++ " sector " ++ Text.quoted sector ++ " in " ++ path ++
      "; using the later one"
  | .loaded curves path => "Loaded " ++ natText curves ++ " MAC curves from " ++ path
  | .invalidOverride key raw source cause =>
    "Invalid override for " ++ key ++ "=" ++ raw.literal ++ " (" ++ source ++ "): " ++
      cause.message
  | .unreadableOverrides path cause =>
    "Unable to read constant overrides from " ++ path ++ ": " ++
      cause.message
  | .directoryExists path => "Asked to make dir that already exists:" ++ path
  | .constantSources sources =>
    "Constant sources: " ++
      (Value.table (sources.map fun s => (s.1, Value.text s.2))).literal
  | .constantOverrides overrides =>
    "Constant overrides from run config: " ++ (Value.table overrides).literal
  | .readingPrices path => "Reading market prices from " ++ path
  | .readingCurves path => "Reading MAC curves from " ++ path
  | .noRegions => "No regions configured; nothing to evaluate"
  | .wroteReductions rows path => "Wrote " ++ natText rows ++ " reductions to " ++ path
  | .logStarted => "Starting Logging"
  | .debugLevel => "Logging level set to DEBUG"
  | .configFile path => "Config file: " ++ path
  | .regionsUsed regions => "Regions: " ++ (Value.list (regions.map .text)).literal
  | .yearsUsed years => "Years: " ++ (Value.list (years.map .int)).literal

end Notice

namespace Severity

def name : Severity → String
  | .debug => "DEBUG"
  | .info => "INFO"
  | .warning => "WARNING"
  | .error => "ERROR"

end Severity

end Macc
