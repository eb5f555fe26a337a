import Upkeep.Path.Basic
import Upkeep.Text.Utf8
import Upkeep.Tree.Node

/-!
File trees and what can be done with them.  A path is followed step by step from
the top or from the working folder; links met on the way are followed, up to the
number that a kernel allows.  A file is replaced in one step, so that a tree
holds either its old content or its new content.  A path can also be confined to what
lies below a folder, its floor.
-/

namespace Upkeep

/-- A file tree with the folder from which relative paths start. -/
structure Tree where
  top : Node
  workingDir : Place

/-- The place that a path leads to, and what is there. -/
structure Target where
  place : Place
  node? : Option Node

namespace Tree

/-- Follow the parts of a path from a place.  Only the last part may lead to a
place where nothing is.  A link is handed on together with the parts after it.
Where there is a floor, nothing may lead above it, and no link to the top. -/
def follow
    (top : Node)
    (floor? : Option Place)
    (followLast : Bool)
    (enterLink : Place → List Text → Except Fault Target) :
    Place → List Text → Except Fault Target
  | place, [] => .ok ⟨place, top.get? place⟩
  | place, part :: rest =>
      match top.get? place with
      | some (.folder _ entries) =>
          if part = [] ∨ part = ['.'] then follow top floor? followLast enterLink place rest
          else if part = ['.', '.'] then
            if floor? = some place then .error .outside
            else follow top floor? followLast enterLink place.dropLast rest
          else
            match NameMap.get? part entries with
            | none => if rest = [] then .ok ⟨place ++ [part], none⟩ else .error .notFound
            | some (.link target) =>
                if rest = [] ∧ followLast = false then
                  .ok ⟨place ++ [part], some (.link target)⟩
                else if floor? ≠ none ∧ Path.isAbsolute target then .error .outside
                else
                  enterLink (if Path.isAbsolute target then [] else place)
                    (target.splitOn '/' ++ rest)
            | some _ => follow top floor? followLast enterLink (place ++ [part]) rest
      | some _ => .error .notADirectory
      | none => .error .notFound

/-- Follow the parts of a path, entering a bounded number of links. -/
def followWithin (top : Node) (floor? : Option Place) (followLast : Bool) :
    Nat → Place → List Text → Except Fault Target
  | 0, _, _ => .error .tooManyLinks
  | links + 1, place, parts =>
      follow top floor? followLast (followWithin top floor? followLast links) place parts

/-- The number of links that may be met on the way of one path. -/
def linkLimit : Nat := 40

/-- Where a path leads, with a link at its end followed or not. -/
def locate (tree : Tree) (followLast : Bool) (path : Text) : Except Fault Target :=
  if path = [] then .error .notFound
  else if '\x00' ∈ path then .error .nulInPath
  else
    followWithin tree.top none followLast (linkLimit + 1)
      (if Path.isAbsolute path then [] else tree.workingDir) (path.splitOn '/')

/-- Where an entry of a folder leads, links followed that stay below the folder. -/
def locateBelow (tree : Tree) (folder : Place) (name : Text) : Except Fault Target :=
  followWithin tree.top (some folder) true (linkLimit + 1) folder [name]

/-- What a path names, links followed. -/
def node? (tree : Tree) (path : Text) : Option Node :=
  match tree.locate true path with
  | .ok target => target.node?
  | .error _ => none

/-- Whether a path names a folder. -/
def isFolder (tree : Tree) (path : Text) : Bool :=
  match tree.node? path with
  | some (.folder ..) => true
  | _ => false

/-- Whether a path names a regular file. -/
def isFile (tree : Tree) (path : Text) : Bool :=
  match tree.node? path with
  | some (.file _) => true
  | _ => false

/-- The permissions of what a path names. -/
def mode? (tree : Tree) (path : Text) : Option Nat :=
  (tree.node? path).map Node.mode

/-- The bytes of the file that a path names. -/
def read (tree : Tree) (path : Text) : Except Fault ByteArray :=
  match tree.locate true path with
  | .error fault => .error fault
  | .ok target =>
      match target.node? with
      | some (.file file) => .ok file.bytes
      | some (.folder ..) => .error .isADirectory
      | _ => .error .notFound

/-- The text of the file that a path names. -/
def readText (tree : Tree) (path : Text) : Except Fault Text :=
  match tree.read path with
  | .error fault => .error fault
  | .ok bytes =>
      match decode? bytes with
      | some text => .ok text
      | none => .error .invalidText

def setFile (tree : Tree) (place : Place) (file : File) : Tree :=
  { tree with top := tree.top.put place (.file file) }

/-- The permissions of a file that only its owner may use. -/
def privateMode : Nat := 0o600

/-- The permissions of a file that a program creates without further ado. -/
def publicMode : Nat := 0o644

/-- Whether the last step of a path is a name, so that an entry can be put there. -/
def endsInName (path : Text) : Bool :=
  match ((path.splitOn '/').filter (· != [])).getLast? with
  | none => false
  | some part => part != ['.'] && part != ['.', '.']

/-- Put a new file where a path leads, in place of what is there.  A link at the
end of the path is replaced and not followed.  The file takes the permissions of
what the path named before, and else is private. -/
def replaceFile (tree : Tree) (path : Text) (bytes : ByteArray) : Except Fault Tree :=
  match tree.locate true (Path.folder path) with
  | .error fault => .error fault
  | .ok ⟨_, none⟩ => .error .notFound
  | .ok ⟨_, some (.folder ..)⟩ =>
      if path = [] then .error .notFound
      else if !endsInName path then .error .busy
      else if path.getLast? = some '/' then .error .notADirectory
      else
        match tree.locate false path with
        | .error fault => .error fault
        | .ok ⟨_, some (.folder ..)⟩ => .error .isADirectory
        | .ok ⟨place, _⟩ =>
            .ok (tree.setFile place ⟨bytes, (tree.mode? path).getD privateMode⟩)
  | .ok _ => .error .notADirectory

/-- Open the file that a path names for writing, with its present bytes passed
through the given function, and create it where there is none. -/
def writeThrough (tree : Tree) (path : Text) (change : ByteArray → ByteArray) :
    Except Fault Tree :=
  match tree.locate true path with
  | .error fault => .error fault
  | .ok ⟨place, some (.file file)⟩ => .ok (tree.setFile place { file with bytes := change file.bytes })
  | .ok ⟨_, some _⟩ => .error .isADirectory
  | .ok ⟨place, none⟩ => .ok (tree.setFile place ⟨change .empty, publicMode⟩)

/-- Empty the file that a path names, or create it. -/
def truncate (tree : Tree) (path : Text) : Except Fault Tree :=
  tree.writeThrough path fun _ => .empty

/-- Append to the file that a path names, or create it. -/
def append (tree : Tree) (path : Text) (bytes : ByteArray) : Except Fault Tree :=
  tree.writeThrough path (· ++ bytes)

/-- The files and links below the working folder. -/
def listing (tree : Tree) : List (Place × Node) :=
  match tree.top.get? tree.workingDir with
  | some node => node.leaves
  | none => []

end Tree

end Upkeep
