import Upkeep.NameMap
import Upkeep.Tree.Fault

/-!
What a file tree holds.  A folder lists its entries by ascending name, each name
once; `put` keeps that order.  A place in the tree is the list of names that
lead to it from the top.
-/

namespace Upkeep

/-- A regular file: its bytes and its permissions. -/
structure File where
  bytes : ByteArray
  mode : Nat

/-- Files are the same if they have the same bytes and permissions. -/
instance : DecidableEq File := fun first second =>
  decidable_of_iff (first.bytes.data = second.bytes.data ∧ first.mode = second.mode) (by
    obtain ⟨⟨bytes⟩, mode⟩ := first
    obtain ⟨⟨otherBytes⟩, otherMode⟩ := second
    simp)

/-- What a folder allows: its permissions, and why its entries cannot be listed, if they
cannot.  Entries that cannot be listed can still be reached by their names. -/
structure FolderMode where
  permissions : Nat
  refusal? : Option Fault
  deriving DecidableEq, Repr

/-- Permissions stand for those of a folder that can be listed. -/
instance (permissions : Nat) : OfNat FolderMode permissions :=
  ⟨⟨permissions, none⟩⟩

/-- An entry of a file tree. -/
inductive Node where
  | file (file : File)
  | link (target : Text)
  | folder (mode : FolderMode) (entries : List (Text × Node))

/-- The names that lead to an entry from the top of the tree. -/
abbrev Place := List Text

namespace Node

/-- What a folder allows that nothing else is said about. -/
def folderMode : FolderMode := 0o755

def get? : Node → Place → Option Node
  | node, [] => some node
  | .folder _ entries, name :: rest =>
      match NameMap.get? name entries with
      | none => none
      | some node => node.get? rest
  | _, _ :: _ => none

/-- Put an entry at a place.  Missing folders on the way are made; a file or a
link on the way leaves the tree as it was. -/
def put : Node → Place → Node → Node
  | _, [], new => new
  | .folder mode entries, name :: rest, new =>
      .folder mode (NameMap.set name (((NameMap.get? name entries).getD (.folder folderMode [])).put rest new)
        entries)
  | node, _ :: _, _ => node

def erase : Node → Place → Node
  | .folder mode entries, [name] => .folder mode (NameMap.remove name entries)
  | .folder mode entries, name :: rest =>
      match NameMap.get? name entries with
      | none => .folder mode entries
      | some node => .folder mode (NameMap.set name (node.erase rest) entries)
  | node, _ => node

/-- The permissions of an entry; a link has those that links always have. -/
def mode : Node → Nat
  | .file content => content.mode
  | .folder mode _ => mode.permissions
  | .link _ => 0o777

/-- Change the permissions of a file or a folder. -/
def withMode (mode : Nat) : Node → Node
  | .file content => .file { content with mode }
  | .folder old entries => .folder { old with permissions := mode } entries
  | .link target => .link target

mutual

/-- The files and links below an entry, with the names that lead to them, each
folder's entries in the order of their names. -/
def leaves : Node → List (Place × Node)
  | .folder _ entries => leavesOf entries
  | leaf => [([], leaf)]

/-- The files and links below the entries of a folder. -/
def leavesOf : NameMap Node → List (Place × Node)
  | [] => []
  | (name, node) :: rest =>
      (node.leaves.map fun (place, leaf) => (name :: place, leaf)) ++ leavesOf rest

end

end Node

end Upkeep
