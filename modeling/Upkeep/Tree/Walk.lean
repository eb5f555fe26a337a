import Upkeep.Tree.SourceFile

/-!
Listing the source files of projects.  Each project is a folder below a base
folder; its files come depth first, the entries of a folder in the order of
their names.  Links below a project are passed over, and a folder that cannot be
listed is told of in place of what is below it.
-/

namespace Upkeep

/-- A listed file and the project that holds it. -/
structure ProjectFile where
  project : Text
  path : Text
  deriving DecidableEq, Repr

/-- A listed file, or what went wrong in its place. -/
abbrev Listed := Except SourceError ProjectFile

namespace Node

mutual

/-- What a walk comes to at and below an entry, with the names that lead there: files and
links, and in place of what is below them the folders that cannot be listed. -/
def visited : Node → List (Place × Except Fault Node)
  | .folder mode entries =>
      match mode.refusal? with
      | some fault => [([], .error fault)]
      | none => visitedBelow entries
  | leaf => [([], .ok leaf)]

/-- What a walk comes to at and below the entries of a folder. -/
def visitedBelow : NameMap Node → List (Place × Except Fault Node)
  | [] => []
  | (name, node) :: rest =>
      (node.visited.map fun (place, met) => (name :: place, met)) ++ visitedBelow rest

end

end Node

/-- An extension without the dots before it, in ASCII lower case. -/
def normalExtension (extension : Text) : Text :=
  (extension.dropWhile (· == '.')).map Char.toLower

/-- Whether a path has one of the given extensions, in any ASCII case. -/
def acceptsPath (extensions : List Text) (path : Text) : Bool :=
  match Path.extension? path with
  | none => false
  | some extension =>
      extensions.any fun accepted => normalExtension accepted == extension.map Char.toLower

/-- What is listed: projects below a base folder, and the extensions of their files. -/
structure Listing where
  base : Text
  projects : List Text
  extensions : List Text
  deriving DecidableEq, Repr

namespace Listing

/-- What a walk through a project tells of what it comes to.  Links and files of other
kinds are passed over. -/
def item? (listing : Listing) (project : Text) : Place × Except Fault Node → Option Listed
  | (place, met) =>
      let folder := Path.join listing.base project
      let path := place.foldl Path.join folder
      match met with
      | .error fault => some (.error (.walk folder (.listing path fault)))
      | .ok (.file _) =>
          if acceptsPath listing.extensions path then some (.ok ⟨project, path⟩) else none
      | .ok _ => none

/-- The files of one project, with an error for each folder that cannot be listed, or that
the project is missing. -/
def walkProject (listing : Listing) (tree : Tree) (project : Text) : List Listed :=
  let folder := Path.join listing.base project
  match tree.node? folder with
  | some (.folder mode entries) =>
      (Node.folder mode entries).visited.filterMap (listing.item? project)
  | _ => [.error (.missingRoot folder)]

/-- The files of all projects, project by project. -/
def walk (listing : Listing) (tree : Tree) : List Listed :=
  listing.projects.flatMap (listing.walkProject tree)

end Listing

/-- The files of a list without errors, or its first error. -/
def allFound : List Listed → Except SourceError (List ProjectFile)
  | [] => .ok []
  | .error error :: _ => .error error
  | .ok file :: rest =>
      match allFound rest with
      | .error error => .error error
      | .ok files => .ok (file :: files)

end Upkeep
