import Macc.Notice

/-!
# Run logs

What is reported while a run lasts is kept in a file beside its report: one entry
for each report, with the part of the program that speaks and how severe it is.
Details are left out unless they are asked for.
-/

namespace Macc.RunLog

/-- The name of the file that a run's log is written to. -/
def fileName : String := "run.log"

/-- The entry of a report, without the time that stands before it. -/
def entry (n : Notice) : String :=
  n.speaker ++ " | " ++ n.severity.name ++ " :: " ++ n.message

/-- Whether a report is kept; `detailed` says that details are asked for. -/
def isKept (detailed : Bool) (n : Notice) : Bool :=
  detailed || n.severity != .debug

def isStart : Notice → Bool
  | .logStarted => true
  | _ => false

/-- The reports made before the log was started, and those that it holds from then on. -/
def split (notices : List Notice) : List Notice × List Notice :=
  notices.span fun n => !isStart n

def entries (detailed : Bool) (notices : List Notice) : List String :=
  (notices.filter (isKept detailed)).map entry

end Macc.RunLog
