import Upkeep.Proofs.Tree.Follow

/-!
Putting a file in place of a file or a link.  Nothing else of the tree changes: what
a place holds, apart from the entries of a folder, is the same everywhere else.
-/

namespace Upkeep

namespace Node

/-- An entry without what it holds, if it is a folder. -/
def bare : Node → Node
  | .folder mode _ => .folder mode []
  | node => node

@[simp]
theorem bare_file (file : File) : (Node.file file).bare = .file file :=
  rfl

theorem bare_eq_file_iff {node : Node} {file : File} :
    node.bare = .file file ↔ node = .file file := by
  cases node <;> simp [bare]

theorem bare_eq_link_iff {node : Node} {target : Text} :
    node.bare = .link target ↔ node = .link target := by
  cases node <;> simp [bare]

theorem bare_eq_folder_iff {node : Node} {mode : FolderMode} :
    node.bare = .folder mode [] ↔ ∃ entries, node = .folder mode entries := by
  cases node <;> simp [bare]

theorem map_bare_eq_file_iff {node? : Option Node} {file : File} :
    node?.map bare = some (.file file) ↔ node? = some (.file file) := by
  cases node? <;> simp [bare_eq_file_iff]

theorem map_bare_eq_link_iff {node? : Option Node} {target : Text} :
    node?.map bare = some (.link target) ↔ node? = some (.link target) := by
  cases node? <;> simp [bare_eq_link_iff]

/-- Whether a file or a link is at a place. -/
def LeafAt (top : Node) (place : Place) : Prop :=
  ∃ node, top.get? place = some node ∧ ∀ mode entries, node ≠ .folder mode entries

theorem leafAt_of_file
    {top : Node} {place : Place} {file : File}
    (there : top.get? place = some (.file file)) :
    top.LeafAt place :=
  ⟨_, there, by simp⟩

theorem leafAt_of_link
    {top : Node} {place : Place} {target : Text}
    (there : top.get? place = some (.link target)) :
    top.LeafAt place :=
  ⟨_, there, by simp⟩

theorem LeafAt.not_folderAt
    {top : Node} {place : Place}
    (leaf : top.LeafAt place) :
    ¬ top.FolderAt place := by
  obtain ⟨node, there, noFolder⟩ := leaf
  rintro ⟨mode, entries, found⟩
  exact noFolder mode entries (Option.some.inj (there.symm.trans found))

theorem LeafAt.exists_below
    {top : Node} {name : Text} {rest : Place}
    (leaf : top.LeafAt (name :: rest)) :
    ∃ mode entries child, top = .folder mode entries ∧
      NameMap.get? name entries = some child ∧ child.LeafAt rest := by
  obtain ⟨node, there, noFolder⟩ := leaf
  cases top with
  | file file => simp [get?] at there
  | link target => simp [get?] at there
  | folder mode entries =>
      rw [get?_folder_cons, Option.bind_eq_some_iff] at there
      obtain ⟨child, named, below⟩ := there
      exact ⟨mode, entries, child, rfl, named, node, below, noFolder⟩

/-- A file put in place of a file or a link is all that changes. -/
theorem map_bare_get?_put
    {top : Node} {place : Place}
    (leaf : top.LeafAt place) (new : File) (other : Place) :
    ((top.put place (.file new)).get? other).map bare =
      if other = place then some (.file new) else (top.get? other).map bare := by
  induction place generalizing top other with
  | nil =>
      cases other with
      | nil => simp [put]
      | cons name rest =>
          obtain ⟨node, there, noFolder⟩ := leaf
          rw [get?_nil, Option.some.injEq] at there
          subst there
          cases top with
          | folder mode entries => exact absurd rfl (noFolder mode entries)
          | file file => simp [put, get?]
          | link target => simp [put, get?]
  | cons name rest inductionHypothesis =>
      obtain ⟨mode, entries, child, rfl, named, below⟩ := leaf.exists_below
      rw [put, named, Option.getD_some]
      cases other with
      | nil => simp [bare]
      | cons otherName otherRest =>
          rw [get?_folder_cons, get?_folder_cons]
          by_cases same : otherName = name
          · subst same
            rw [NameMap.get?_set_self, named, Option.bind_some, Option.bind_some,
              inductionHypothesis below]
            simp
          · rw [NameMap.get?_set_of_ne same]
            simp [same]

variable {top : Node} {place other : Place} {old new file : File}

theorem get?_put_self
    (leaf : top.LeafAt place) :
    (top.put place (.file new)).get? place = some (.file new) := by
  have change := map_bare_get?_put leaf new place
  rw [if_pos rfl] at change
  exact map_bare_eq_file_iff.1 change

theorem get?_put_eq_file_iff_of_ne
    (leaf : top.LeafAt place)
    (different : other ≠ place) :
    (top.put place (.file new)).get? other = some (.file file) ↔
      top.get? other = some (.file file) := by
  have change := map_bare_get?_put leaf new other
  rw [if_neg different] at change
  rw [← map_bare_eq_file_iff, change, map_bare_eq_file_iff]

theorem get?_put_eq_link_iff_of_ne
    {target : Text}
    (leaf : top.LeafAt place)
    (different : other ≠ place) :
    (top.put place (.file new)).get? other = some (.link target) ↔
      top.get? other = some (.link target) := by
  have change := map_bare_get?_put leaf new other
  rw [if_neg different] at change
  rw [← map_bare_eq_link_iff, change, map_bare_eq_link_iff]

theorem folderAt_put_iff
    (leaf : top.LeafAt place) :
    (top.put place (.file new)).FolderAt other ↔ top.FolderAt other := by
  have change := map_bare_get?_put leaf new other
  have bare_iff : ∀ someTop : Node, someTop.FolderAt other ↔
      ∃ mode, (someTop.get? other).map bare = some (.folder mode []) := by
    intro someTop
    simp only [FolderAt, Option.map_eq_some_iff, bare_eq_folder_iff]
    constructor
    · rintro ⟨mode, entries, found⟩
      exact ⟨mode, _, found, entries, rfl⟩
    · rintro ⟨mode, node, found, entries, rfl⟩
      exact ⟨mode, entries, found⟩
  by_cases same : other = place
  · subst same
    have filed : (top.put other (.file new)).LeafAt other := leafAt_of_file (get?_put_self leaf)
    exact iff_of_false filed.not_folderAt leaf.not_folderAt
  · rw [bare_iff, bare_iff, change, if_neg same]

theorem get?_put_eq_none_iff
    (leaf : top.LeafAt place) :
    (top.put place (.file new)).get? other = none ↔ top.get? other = none := by
  rw [← Option.map_eq_none_iff (f := bare), map_bare_get?_put leaf]
  by_cases same : other = place
  · subst same
    obtain ⟨node, there, _⟩ := leaf
    simp [there]
  · rw [if_neg same, Option.map_eq_none_iff]

theorem get?_put_eq_link_iff
    {target : Text}
    (there : top.get? place = some (.file old)) :
    (top.put place (.file new)).get? other = some (.link target) ↔
      top.get? other = some (.link target) := by
  by_cases same : other = place
  · subst same
    simp [get?_put_self (leafAt_of_file there), there]
  · exact get?_put_eq_link_iff_of_ne (leafAt_of_file there) same

/-- What is there and is no link is no link afterwards. -/
theorem exists_get?_put
    {node : Node}
    (leaf : top.LeafAt place) (new : File)
    (there : top.get? other = some node)
    (noLink : ∀ text, node ≠ .link text) :
    ∃ still, (top.put place (.file new)).get? other = some still ∧
      ∀ text, still ≠ .link text := by
  by_cases same : other = place
  · subst same
    exact ⟨.file new, get?_put_self leaf, by simp⟩
  cases found : (top.put place (.file new)).get? other with
  | none =>
      rw [get?_put_eq_none_iff leaf, there] at found
      simp at found
  | some still =>
      refine ⟨still, rfl, ?_⟩
      rintro text rfl
      rw [get?_put_eq_link_iff_of_ne leaf same, there, Option.some.injEq] at found
      exact noLink text found

theorem NoLinks.put
    (noLinks : top.NoLinks)
    (there : top.get? place = some (.file old)) :
    (top.put place (.file new)).NoLinks := by
  intro other target found
  exact noLinks other target ((get?_put_eq_link_iff there).1 found)

end Node

namespace Tree

variable {tree : Tree} {place : Place} {old new : File}

theorem passable_put_iff
    (leaf : tree.top.LeafAt place)
    {start : Place} {parts : List Text} :
    Passable (tree.top.put place (.file new)) start parts ↔ Passable tree.top start parts := by
  simp only [Passable, Node.folderAt_put_iff leaf]

theorem NoLinks.setFile
    (noLinks : tree.NoLinks)
    (there : tree.top.get? place = some (.file old)) :
    (tree.setFile place new).NoLinks :=
  Node.NoLinks.put noLinks there

@[simp]
theorem top_setFile (tree : Tree) (place : Place) (file : File) :
    (tree.setFile place file).top = tree.top.put place (.file file) :=
  rfl

@[simp]
theorem workingDir_setFile (tree : Tree) (place : Place) (file : File) :
    (tree.setFile place file).workingDir = tree.workingDir :=
  rfl

@[simp]
theorem startOf_setFile (tree : Tree) (place : Place) (file : File) (path : Text) :
    (tree.setFile place file).startOf path = tree.startOf path :=
  rfl

@[simp]
theorem placeOf_setFile (tree : Tree) (place : Place) (file : File) (path : Text) :
    (tree.setFile place file).placeOf path = tree.placeOf path :=
  rfl

/-- Paths that lead elsewhere name the same files as before. -/
theorem file?_setFile_of_ne
    (noLinks : tree.NoLinks)
    (there : tree.top.get? place = some (.file old))
    {path : Text}
    (different : tree.placeOf path ≠ place) :
    (tree.setFile place new).file? path = tree.file? path := by
  apply Option.ext
  intro file
  rw [file?_eq_some_iff (noLinks.setFile there), file?_eq_some_iff noLinks]
  simp only [placeOf_setFile, startOf_setFile, top_setFile,
    Node.get?_put_eq_file_iff_of_ne (Node.leafAt_of_file there) different,
    passable_put_iff (Node.leafAt_of_file there)]

end Tree

end Upkeep
