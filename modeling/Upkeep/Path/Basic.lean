import Upkeep.Text.Basic

/-!
Paths as texts, and their reading as steps from the root or from the current
folder.  Nothing here looks at a tree: joining, folding `..` and taking names
apart are operations on the text alone.
-/

namespace Upkeep

/-- One step of a path.  Empty steps and `.` lead nowhere and are not kept. -/
inductive Step where
  | up
  | name (text : Text)
  deriving DecidableEq, Repr

/-- A path without its empty steps: where it starts, and its steps. -/
structure Route where
  absolute : Bool
  steps : List Step
  deriving DecidableEq, Repr

namespace Path

/-- Whether a path starts at the root. -/
def isAbsolute (path : Text) : Bool :=
  path.head? == some '/'

/-- The step that a part between slashes stands for. -/
def stepOf? (part : Text) : Option Step :=
  if part = [] ∨ part = ['.'] then none
  else if part = ['.', '.'] then some .up
  else some (.name part)

def route (path : Text) : Route :=
  ⟨isAbsolute path, (path.splitOn '/').filterMap stepOf?⟩

end Path

def Step.text : Step → Text
  | .up => ['.', '.']
  | .name text => text

/-- Write a route as a path; the route that leads nowhere is `.`. -/
def Route.path (route : Route) : Text :=
  let steps := ['/'].intercalate (route.steps.map Step.text)
  if route.absolute then '/' :: steps
  else if route.steps = [] then ['.']
  else steps

/-- Take one step from a route given with its last step first: `..` undoes a
name and is kept where there is none to undo. -/
def foldStep (taken : List Step) : Step → List Step
  | .name text => .name text :: taken
  | .up =>
      match taken with
      | .name _ :: taken => taken
      | taken => .up :: taken

/-- Fold every `..` into the name before it. -/
def Route.fold (route : Route) : Route :=
  ⟨route.absolute, (route.steps.foldl foldStep []).reverse⟩

namespace Path

/-- The lexically normal form of a path. -/
def normalize (path : Text) : Text :=
  (route path).fold.path

/-- Continue a path with another one.  An absolute continuation replaces it. -/
def join (path continuation : Text) : Text :=
  if isAbsolute continuation then continuation
  else if path = [] ∨ path.getLast? = some '/' then path ++ continuation
  else path ++ '/' :: continuation

/-- The folder that holds what a path names.  Neither the root nor the empty
path has one; the folder of a single relative step is the empty path. -/
def parent? (path : Text) : Option Text :=
  let ⟨absolute, steps⟩ := route path
  match absolute, steps with
  | _, _ :: _ :: _ => some (Route.path ⟨absolute, steps.dropLast⟩)
  | true, [_] => some ['/']
  | true, [] => none
  | false, [_] => some (if (path.splitOn '/').head? = some ['.'] then ['.'] else [])
  | false, [] => if path = [] then none else some []

/-- The same folder as a path that can be opened: the empty path stands for the current
folder. -/
def folder (path : Text) : Text :=
  match parent? path with
  | some (c :: rest) => c :: rest
  | _ => ['.']

/-- The name of what a path names, unless the path ends in `..` or names no step. -/
def fileName? (path : Text) : Option Text :=
  match (route path).steps.getLast? with
  | some (.name text) => some text
  | _ => none

/-- A file name before and after its last dot.  A dot at its start counts for nothing. -/
def splitName (name : Text) : Text × Option Text :=
  let extension := (name.reverse.takeWhile (· != '.')).reverse
  let rest := (name.reverse.dropWhile (· != '.')).reverse
  if rest.length ≤ 1 then (name, none) else (rest.dropLast, some extension)

/-- The file name without its extension. -/
def stem? (path : Text) : Option Text :=
  (fileName? path).map fun name => (splitName name).1

/-- What follows the last dot of the file name. -/
def extension? (path : Text) : Option Text :=
  (fileName? path).bind fun name => (splitName name).2

end Path

end Upkeep
