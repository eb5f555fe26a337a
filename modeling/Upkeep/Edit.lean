import Upkeep.Text.Line
import Upkeep.Text.Quoted

/-!
Edits of a single line.  A candidate remembers the line it was made for and
applies only where that line still stands; all other characters are kept,
terminators included.
-/

namespace Upkeep

/-- What is done with a line. -/
inductive LineEdit where
  | remove
  | replaceBy (text : Text)
  deriving DecidableEq, Repr

/-- The text that a replacement puts in place of the line. -/
def LineEdit.replacement? : LineEdit → Option Text
  | .remove => none
  | .replaceBy text => some text

/-- A proposed edit of one line of a file; lines are counted from zero. -/
structure Candidate where
  path : Text
  line : Nat
  before : Text
  edit : LineEdit
  deriving DecidableEq, Repr

/-- Why a candidate does not apply. -/
inductive EditError where
  | changed (expected found : Text)
  | pastEnd
  deriving DecidableEq, Repr

def EditError.message : EditError → String
  | .changed expected found =>
      s!"expected {String.ofList (quoted expected)} but found {String.ofList (quoted found)}"
  | .pastEnd => "line is past the end of the file"

def LineEdit.applyAt (edit : LineEdit) (line : Nat) (segments : List Segment) : List Segment :=
  match edit with
  | .remove => segments.eraseIdx line
  | .replaceBy text => segments.modify line fun segment => { segment with body := text }

def Candidate.apply (candidate : Candidate) (content : Text) : Except EditError Text :=
  match (cut content)[candidate.line]? with
  | none => .error .pastEnd
  | some segment =>
      if segment.body = candidate.before then
        .ok (join (candidate.edit.applyAt candidate.line (cut content)))
      else .error (.changed candidate.before segment.body)

/-- The text of a failed application, with the line counted from zero. -/
def Candidate.errorMessage (candidate : Candidate) (error : EditError) : String :=
  s!"edit application failed for {String.ofList candidate.path}:{candidate.line}: {error.message}"

end Upkeep
