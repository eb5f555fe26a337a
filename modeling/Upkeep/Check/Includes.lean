import Upkeep.Check.Basic
import Upkeep.Path.Basic
import Upkeep.Source.Directive
import Upkeep.Source.LineKind

/-!
The check for includes that lead nowhere.  A name without a slash is taken for a
system header and not looked for.
-/

namespace Upkeep

/-- The first part of a path that is given with slashes. -/
def firstPart (target : Text) : Text :=
  target.takeWhile (· != '/')

/-- Whether the target exists, seen from the folder of a file. -/
def existsBeside (tree : Tree) (path target : Text) : Bool :=
  match Path.parent? path with
  | some folder => tree.isFile (Path.join folder target)
  | none => false

/-- Whether an include in a file leads somewhere: to a project or to a file. -/
def resolves (projects : List Text) (tree : Tree) (path target : Text) : Bool :=
  !target.contains '/' || projects.contains (firstPart target) || existsBeside tree path target

/-- The warning for an include, unless it leads somewhere. -/
def includeWarning?
    (projects : List Text) (tree : Tree) (path : Text) (entry : (Text × LineKind) × Nat) :
    Option Warning :=
  if entry.1.2 = .preprocessor then
    match includeTarget? entry.1.1 with
    | none => none
    | some target =>
        if resolves projects tree path target then none
        else
          some ⟨path, some entry.2, .unresolvedReference,
            "unresolved include \"".toList ++ target ++ ['"']⟩
  else none

/-- Warn about includes that lead nowhere. -/
def checkIncludes (projects : List Text) : Check where
  name := "check-includes"
  warnings := fun tree file =>
    ((file.lines.zip (classify file.lines)).zipIdx).filterMap
      (includeWarning? projects tree file.path)

end Upkeep
