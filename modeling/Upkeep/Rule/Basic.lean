import Upkeep.Edit
import Upkeep.Source.LineKind

/-!
Rules propose edits of single lines.  A rule looks at lines of one kind and
decides from the path and the text of the line alone.  A replacement is again a
single line with the same end, and it is never proposed to edit it again, so that
a file has only finitely many edits.
-/

namespace Upkeep

/-- A rule for single-line edits. -/
structure Rule where
  name : String
  kind : LineKind
  edit? : (path line : Text) → Option LineEdit
  settled : ∀ {path line text},
    edit? path line = some (.replaceBy text) → edit? path text = none
  noNewline : ∀ {path line text},
    edit? path line = some (.replaceBy text) → '\n' ∉ line → '\n' ∉ text
  sameEnd : ∀ {path line text},
    edit? path line = some (.replaceBy text) → text ≠ [] ∧ text.getLast? = line.getLast?

namespace Rule

/-- Whether the text of a line alone would be edited. -/
def accepts (rule : Rule) (path line : Text) : Bool :=
  (rule.edit? path line).isSome

/-- The candidate that a numbered line gives rise to. -/
def candidate? (rule : Rule) (path : Text) (entry : (Text × LineKind) × Nat) : Option Candidate :=
  if entry.1.2 = rule.kind then
    (rule.edit? path entry.1.1).map fun edit => ⟨path, entry.2, entry.1.1, edit⟩
  else none

/-- The first candidate at or after a line. -/
def find? (rule : Rule) (path : Text) (sourceLines : List Text) (kinds : List LineKind)
    (start : Nat) : Option Candidate :=
  (((sourceLines.zip kinds).drop start).zipIdx start).findSome? (rule.candidate? path)

/-- The first candidate of a text at or after a line. -/
def findIn? (rule : Rule) (path content : Text) (start : Nat) : Option Candidate :=
  rule.find? path (lines content) (classify (lines content)) start

end Rule

end Upkeep
