import Upkeep.Tree.SourceFile

/-!
Checks look at one file at a time and change nothing.
-/

namespace Upkeep

/-- What a warning is about. -/
inductive WarningKind where
  | missingGuards
  | missingLicense
  | unresolvedReference
  deriving DecidableEq, Repr

/-- A warning about a file or one of its lines, which are counted from zero. -/
structure Warning where
  path : Text
  line : Option Nat
  kind : WarningKind
  message : Text
  deriving DecidableEq, Repr

/-- The text of a warning; lines are counted from one there. -/
def Warning.display (warning : Warning) : Text :=
  let place :=
    match warning.line with
    | some line => ':' :: (toString (line + 1)).toList
    | none => []
  warning.path ++ place ++ [':', ' '] ++ warning.message

/-- A check of single files in a tree. -/
structure Check where
  name : String
  warnings : Tree → SourceFile → List Warning

end Upkeep
