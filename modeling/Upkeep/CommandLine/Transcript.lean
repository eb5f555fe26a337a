import Upkeep.Check.Survey
import Upkeep.Trial.Run
import Upkeep.Whitespace.Files

/-!
What a run tells on its output, line by line.
-/

namespace Upkeep

/-- The line about a tried edit; lines are counted from one. -/
def Attempt.transcriptLine (path : Text) (attempt : Attempt) : Text :=
  let status := if attempt.isCommitted then "Success: " else "Failed: "
  let change := (attempt.edit.replacement?.map trim).getD "(removed)".toList
  status.toList ++ path ++ ':' :: Nat.toDigits 10 (attempt.line + 1) ++ [':', ' '] ++
    trim attempt.before ++ " -> ".toList ++ change

/-- The line about an event, if it is told at all. -/
def Event.transcriptLine? : Event → Option Text
  | .attempted path attempt _ => some (attempt.transcriptLine path)
  | _ => none

/-- The last line of a run of edits. -/
def RunReport.summary (report : RunReport) : Text :=
  s!"{report.committed} edit(s) committed, {report.reverted} reverted, {report.changedFiles} file(s) changed".toList

/-- The lines about a run of edits.  Those about tried edits stay if the run fails. -/
def Run.transcript {State : Type} (run : Run State RunReport) : List Text :=
  run.events.filterMap Event.transcriptLine? ++
    match run.result with
    | .ok report => [report.summary]
    | .error _ => []

/-- The lines about a check. -/
def CheckReport.transcript (report : CheckReport) : List Text :=
  report.warnings.map Warning.display ++ [s!"{report.count} warning(s)".toList]

/-- The lines about bringing files into normal form. -/
def TidyReport.transcript (report : TidyReport) : List Text :=
  report.changed.map ("normalized ".toList ++ ·) ++
    [s!"{report.changed.length} of {report.filesSeen} file(s) changed".toList]

end Upkeep
