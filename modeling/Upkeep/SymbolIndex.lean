import Upkeep.Source.Scan
import Upkeep.Tree.Walk

/-!
The index of declared types: which project declares which type, and which names
are scopes.  The last declaration of a type wins; a name can be both a type and
a scope.
-/

namespace Upkeep

/-- The project of each declared type, and the names of scopes. -/
structure SymbolIndex where
  projects : NameMap Text
  scopes : NameMap Unit
  deriving DecidableEq, Repr

namespace SymbolIndex

def empty : SymbolIndex := ⟨[], []⟩

/-- Record a type as declared by a project. -/
def insert (index : SymbolIndex) (name project : Text) : SymbolIndex :=
  { index with projects := NameMap.set name project index.projects }

/-- Record the name of a scope. -/
def insertScope (index : SymbolIndex) (name : Text) : SymbolIndex :=
  { index with scopes := NameMap.set name () index.scopes }

/-- The project that declares a type. -/
def provenance? (index : SymbolIndex) (name : Text) : Option Text :=
  NameMap.get? name index.projects

/-- Whether a name is a declared type. -/
def isKnownType (index : SymbolIndex) (name : Text) : Bool :=
  (index.provenance? name).isSome

def isScope (index : SymbolIndex) (name : Text) : Bool :=
  (NameMap.get? name index.scopes).isSome

/-- The number of declared types. -/
def size (index : SymbolIndex) : Nat :=
  index.projects.length

/-- The index of pairs of a type and its project. -/
def ofPairs (pairs : List (Text × Text)) : SymbolIndex :=
  pairs.foldl (fun index (name, project) => index.insert name project) empty

/-- Record what one declaration says. -/
def record (project : Text) (index : SymbolIndex) (declaration : Declaration) : SymbolIndex :=
  if declaration.kind.isType then index.insert declaration.name project
  else index.insertScope declaration.name

/-- Record the declarations of one text. -/
def recordText (index : SymbolIndex) (project text : Text) : SymbolIndex :=
  (scan text).foldl (record project) index

/-- Add the declarations of listed files in turn.  The first error ends this. -/
def extend (tree : Tree) (index : SymbolIndex) : List Listed → Except SourceError SymbolIndex
  | [] => .ok index
  | .error error :: _ => .error error
  | .ok entry :: rest =>
      match SourceFile.read tree entry.path with
      | .error error => .error error
      | .ok file => extend tree (index.recordText entry.project file.content) rest

/-- The index of listed files. -/
def build (tree : Tree) (listed : List Listed) : Except SourceError SymbolIndex :=
  empty.extend tree listed

end SymbolIndex

end Upkeep
