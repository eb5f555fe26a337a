import Upkeep.Path.Basic
import Upkeep.Rule.Basic
import Upkeep.Source.Directive

/-!
The rule that removes includes.  A `// keep` comment protects a line, and so does
naming the header that belongs to the file itself.
-/

namespace Upkeep

open Unicode

/-- Whether a comment on the line asks to keep it. -/
def asksToKeep : Text → Bool
  | [] => false
  | c :: rest =>
      (match after? "//".toList (c :: rest) with
        | some comment => firstWord (trimStart comment) == "keep".toList
        | none => false) || asksToKeep rest

/-- Whether an include names the header of the file itself: the same name with
another extension. -/
def isOwnHeader (path target : Text) : Bool :=
  match Path.stem? path with
  | none => false
  | some stem => Path.stem? target == some stem && Path.extension? target != Path.extension? path

/-- Whether the include on a line may be removed from a file. -/
def isPrunable (path line : Text) : Bool :=
  match includeTarget? line with
  | none => false
  | some target => !asksToKeep line && !isOwnHeader path target

/-- Remove each include that may be removed. -/
def pruneIncludes : Rule where
  name := "prune-includes"
  kind := .preprocessor
  edit? := fun path line => if isPrunable path line then some .remove else none
  settled := by
    intro path line text removed
    split at removed <;> simp at removed
  noNewline := by
    intro path line text removed
    split at removed <;> simp at removed
  sameEnd := by
    intro path line text removed
    split at removed <;> simp at removed

end Upkeep
