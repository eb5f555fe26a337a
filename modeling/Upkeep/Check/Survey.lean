import Upkeep.Check.Basic
import Upkeep.Tree.Walk

/-!
Running a check over listed files.  A missing project is passed over; any other
error ends the survey.
-/

namespace Upkeep

/-- What was seen at one entry of the list. -/
inductive Finding where
  | skippedRoot (path : Text)
  | checked (warnings : List Warning)
  deriving DecidableEq, Repr

def Finding.warnings : Finding → List Warning
  | .skippedRoot _ => []
  | .checked warnings => warnings

/-- Whether a file was checked. -/
def Finding.isChecked : Finding → Bool
  | .skippedRoot _ => false
  | .checked _ => true

/-- The warnings about checked files, and how many files were checked. -/
structure CheckReport where
  warnings : List Warning
  filesChecked : Nat
  deriving DecidableEq, Repr

namespace CheckReport

def empty : CheckReport := ⟨[], 0⟩

/-- Add the warnings about one more file. -/
def record (report : CheckReport) (warnings : List Warning) : CheckReport :=
  ⟨report.warnings ++ warnings, report.filesChecked + 1⟩

/-- The number of warnings. -/
def count (report : CheckReport) : Nat :=
  report.warnings.length

/-- Whether there is no warning. -/
def isClean (report : CheckReport) : Bool :=
  report.warnings.isEmpty

def ofFindings (findings : List Finding) : CheckReport :=
  ⟨findings.flatMap Finding.warnings, findings.countP Finding.isChecked⟩

end CheckReport

/-- What was seen until the end of the list or the first error. -/
structure Survey where
  findings : List Finding
  error? : Option SourceError
  deriving DecidableEq, Repr

namespace Survey

/-- A survey with a finding before it. -/
def after (finding : Finding) (survey : Survey) : Survey :=
  { survey with findings := finding :: survey.findings }

/-- The report, unless the survey ended early. -/
def report (survey : Survey) : Except SourceError CheckReport :=
  match survey.error? with
  | some error => .error error
  | none => .ok (.ofFindings survey.findings)

end Survey

/-- Run a check over listed files. -/
def Check.survey (check : Check) (tree : Tree) : List Listed → Survey
  | [] => ⟨[], none⟩
  | .error (.missingRoot path) :: rest => (check.survey tree rest).after (.skippedRoot path)
  | .error error :: _ => ⟨[], some error⟩
  | .ok entry :: rest =>
      match SourceFile.read tree entry.path with
      | .error error => ⟨[], some error⟩
      | .ok file => (check.survey tree rest).after (.checked (check.warnings tree file))

end Upkeep
