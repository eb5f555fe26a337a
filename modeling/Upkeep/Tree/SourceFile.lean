import Upkeep.Text.Line
import Upkeep.Tree.Basic

/-!
A source file held in memory under its normal path.  Memory changes only by
`replaceContent`, the tree only by the two writes.
-/

namespace Upkeep

/-- Why source files cannot be listed, read or written. -/
inductive SourceError where
  | missingRoot (path : Text)
  | walk (root : Text) (fault : Fault)
  | read (path : Text) (fault : Fault)
  | write (path : Text) (fault : Fault)
  deriving DecidableEq, Repr

def SourceError.message : SourceError → String
  | .missingRoot path => s!"project root {String.ofList path} does not exist"
  | .walk root fault => s!"failed to walk {String.ofList root}: {fault.message}"
  | .read path fault => s!"failed to read file {String.ofList path}: {fault.message}"
  | .write path fault => s!"failed to write file {String.ofList path}: {fault.message}"

/-- Replace the file at a path by one with the given content. -/
def writeText (tree : Tree) (path content : Text) : Except SourceError Tree :=
  (tree.replaceFile path (encode content)).mapError (.write path)

/-- A text file in memory. -/
structure SourceFile where
  path : Text
  content : Text
  deriving DecidableEq, Repr

namespace SourceFile

/-- A file in memory that no tree need hold. -/
def ofContent (path content : Text) : SourceFile :=
  ⟨Path.normalize path, content⟩

def read (tree : Tree) (path : Text) : Except SourceError SourceFile :=
  match tree.readText (Path.normalize path) with
  | .ok content => .ok ⟨Path.normalize path, content⟩
  | .error fault => .error (.read (Path.normalize path) fault)

/-- The lines of the content. -/
def lines (file : SourceFile) : List Text :=
  Upkeep.lines file.content

/-- Change the content in memory. -/
def replaceContent (file : SourceFile) (content : Text) : SourceFile :=
  { file with content }

/-- Write some other content to the path of the file. -/
def writeContent (file : SourceFile) (tree : Tree) (content : Text) : Except SourceError Tree :=
  writeText tree file.path content

/-- Write the content in memory to the path of the file. -/
def write (file : SourceFile) (tree : Tree) : Except SourceError Tree :=
  file.writeContent tree file.content

end SourceFile

end Upkeep
