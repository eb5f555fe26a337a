import Upkeep.Edit

/-!
What became of the edits that were tried.  The totals are counts over the
attempts; nothing is counted on the side.
-/

namespace Upkeep

/-- Whether a tried edit was kept. -/
inductive Outcome where
  | committed
  | reverted
  deriving DecidableEq, Repr

/-- A tried edit and its outcome. -/
structure Attempt where
  line : Nat
  before : Text
  edit : LineEdit
  outcome : Outcome
  deriving DecidableEq, Repr

/-- A candidate that was tried. -/
def Candidate.attempt (candidate : Candidate) (outcome : Outcome) : Attempt :=
  ⟨candidate.line, candidate.before, candidate.edit, outcome⟩

/-- The candidate that an attempt tried on a file. -/
def Attempt.candidate (attempt : Attempt) (path : Text) : Candidate :=
  ⟨path, attempt.line, attempt.before, attempt.edit⟩

/-- Whether the edit was kept. -/
def Attempt.isCommitted (attempt : Attempt) : Bool :=
  attempt.outcome == .committed

/-- The attempts made on one file, in order. -/
structure FileReport where
  path : Text
  attempts : List Attempt
  deriving DecidableEq, Repr

namespace FileReport

/-- The number of kept edits. -/
def committed (report : FileReport) : Nat :=
  report.attempts.countP Attempt.isCommitted

/-- The number of edits that were not kept. -/
def reverted (report : FileReport) : Nat :=
  report.attempts.countP fun attempt => !attempt.isCommitted

end FileReport

/-- The reports of the files that a run went through, in order. -/
structure RunReport where
  files : List FileReport
  deriving DecidableEq, Repr

namespace RunReport

/-- The number of kept edits. -/
def committed (report : RunReport) : Nat :=
  report.files.foldr (fun file count => file.committed + count) 0

/-- The number of edits that were not kept. -/
def reverted (report : RunReport) : Nat :=
  report.files.foldr (fun file count => file.reverted + count) 0

/-- The number of files with a kept edit. -/
def changedFiles (report : RunReport) : Nat :=
  report.files.countP fun file => file.committed > 0

end RunReport

end Upkeep
