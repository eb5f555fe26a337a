import Upkeep.Proofs.Tree.Staged

/-!
Writing source files.  A write puts a file where the path ends and leaves all else as it was, or
changes nothing; and of a source file memory changes by replacing its content only, the tree by
writing it only.
-/

namespace Upkeep

namespace Tree

variable {tree : Tree} {path name : Text} {folder : Place}

/-- A path goes through the entry that it names only if that is a link, and one to no file. -/
theorem NamesEntry.link_of_goesThrough
    (names : tree.NamesEntry path folder name)
    (noFolder : ¬ tree.top.FolderAt (folder ++ [name]))
    (through : tree.GoesThrough path (folder ++ [name])) :
    (∃ text, tree.top.get? (folder ++ [name]) = some (.link text)) ∧ tree.file? path = none := by
  have notRegular : ∀ file,
      ¬ (tree.setFile (folder ++ [name]) file).IsRegular path (folder ++ [name]) file :=
    fun file regular => (names.isRegular_setFile_iff noFolder).1 regular through
  have located := names.locate
  constructor
  · cases there : tree.top.get? (folder ++ [name]) with
    | none =>
        -- A file that is new is found like any other.
        have free : tree.IsFree (folder ++ [name]) := ⟨folder, name, rfl, names.folderAt, there⟩
        have file : File := ⟨.empty, privateMode⟩
        have found := free.locate_setFile located file
        rw [Target.lookIn, (free.replaces file).there] at found
        exact absurd found (notRegular file)
    | some node =>
        rw [there] at located
        cases node with
        | link text => exact ⟨text, rfl⟩
        | folder mode entries => exact absurd ⟨mode, entries, there⟩ noFolder
        | file old =>
            have regular : tree.IsRegular path (folder ++ [name]) old := located
            exact absurd (regular.setFile old) (notRegular old)
  · cases named : tree.file? path with
    | none => rfl
    | some file =>
        obtain ⟨place, leaf, regular⟩ := exists_namesLeaf named
        have same := Except.ok.inj (located.symm.trans leaf.located)
        obtain ⟨rfl, _⟩ := Target.mk.inj same
        exact absurd (regular file) (notRegular file)

/-- Whether a file took the place of an entry that a path names, and nothing else changed.  What a
link led to is still there, and the path leads to the file, unless it went through the entry. -/
structure Written (tree : Tree) (path : Text) (place : Place) (file : File) (left : Tree) :
    Prop where
  workingDir : left.workingDir = tree.workingDir
  replaces : Node.Replaces place file tree.top left.top
  linked : ∀ text linked old, tree.top.get? place = some (.link text) →
    tree.locate true path = .ok ⟨linked, some (.file old)⟩ →
    left.top.get? linked = some (.file old)
  isRegular_iff : left.IsRegular path place file ↔ ¬ tree.GoesThrough path place
  link_of_goesThrough : tree.GoesThrough path place →
    (∃ text, tree.top.get? place = some (.link text)) ∧ tree.file? path = none

theorem NamesEntry.written
    (names : tree.NamesEntry path folder name)
    (noFolder : ¬ tree.top.FolderAt (folder ++ [name])) (file : File) :
    tree.Written path (folder ++ [name]) file (tree.setFile (folder ++ [name]) file) where
  workingDir := rfl
  replaces := Node.replaces_put names.folderAt noFolder file
  linked := fun _ _ _ link located => names.get?_setFile_linked link located
  isRegular_iff := names.isRegular_setFile_iff noFolder
  link_of_goesThrough := names.link_of_goesThrough noFolder

end Tree

theorem writeText_eq_ok_iff
    {tree left : Tree} {path content : Text} :
    writeText tree path content = .ok left ↔ tree.replaceFile path (encode content) = .ok left := by
  rw [writeText]
  cases tree.replaceFile path (encode content) <;> simp [Except.mapError]

/-- What can be done with a source file. -/
inductive FileStep where
  | write
  | writeContent (content : Text)
  | replaceContent (content : Text)
  deriving DecidableEq, Repr

namespace FileStep

/-- Take a step with a file in memory and a tree.  A write that fails leaves the tree. -/
def take : FileStep → SourceFile × Tree → SourceFile × Tree
  | .write, (file, tree) => (file, (tree.settle (file.write tree)).1)
  | .writeContent content, (file, tree) => (file, (tree.settle (file.writeContent tree content)).1)
  | .replaceContent content, (file, tree) => (file.replaceContent content, tree)

/-- Take steps one after the other. -/
def takeAll (steps : List FileStep) (state : SourceFile × Tree) : SourceFile × Tree :=
  steps.foldl (fun state step => step.take state) state

/-- The content that is in memory after some steps. -/
def lastContent : Text → List FileStep → Text
  | content, [] => content
  | _, .replaceContent content :: rest => lastContent content rest
  | content, _ :: rest => lastContent content rest

/-- The contents that steps write, with the content that is in memory before them. -/
def writtenContents : Text → List FileStep → List Text
  | _, [] => []
  | content, .write :: rest => content :: writtenContents content rest
  | content, .writeContent other :: rest => other :: writtenContents content rest
  | _, .replaceContent content :: rest => writtenContents content rest

/-- The tree after contents are written to a path, one after the other. -/
def writeAll (path : Text) (contents : List Text) (tree : Tree) : Tree :=
  contents.foldl (fun tree content => (tree.settle (writeText tree path content)).1) tree

/-- Steps change memory by the contents that are replaced, and the tree by those that are
written. -/
theorem takeAll_eq (steps : List FileStep) (file : SourceFile) (tree : Tree) :
    takeAll steps (file, tree) =
      (file.replaceContent (lastContent file.content steps),
        writeAll file.path (writtenContents file.content steps) tree) := by
  induction steps generalizing file tree with
  | nil => rfl
  | cons step steps inductionHypothesis =>
      rw [takeAll, List.foldl_cons, ← takeAll]
      cases step with
      | write => exact inductionHypothesis file _
      | writeContent content => exact inductionHypothesis file _
      | replaceContent content => exact inductionHypothesis (file.replaceContent content) tree

end FileStep

/-- What is written to a path takes the place of the entry that the path names, with the permissions
of what the path led to, or private ones if it led nowhere.  This succeeds exactly if the path ends
in a name, what stands before the name leads to a folder, and the entry is no folder.  Nothing else
changes, not even the file that a link led to.  The path leads to the new file, unless it went
through the very entry that is replaced; then the entry was a link, and the path led to no file.

The same is true if the file is written in stages, to a new file that is moved: whatever fails, the
tree is what it was, without the new file.  And steps with a source file change its content in
memory by replacing it only, and the tree by writing only. -/
theorem writeText_replaces_entry_or_nothing (tree : Tree) (path content : Text) :
    ((∃ left, writeText tree path content = .ok left) ↔
      ∃ folder name, tree.NamesEntry path folder name ∧
        ¬ tree.top.FolderAt (folder ++ [name])) ∧
    (∀ left, writeText tree path content = .ok left →
      ∃ folder name, tree.NamesEntry path folder name ∧
        tree.Written path (folder ++ [name]) ⟨encode content, (tree.mode? path).getD 0o600⟩ left) ∧
    (tree.top.Ordered → ∀ sibling,
      (∀ hindrances left,
        (tree.writeInStages path (encode content) sibling hindrances = (left, none) →
          writeText tree path content = .ok left) ∧
        (∀ fault,
          tree.writeInStages path (encode content) sibling hindrances = (left, some fault) →
          left = tree)) ∧
      ((∀ folder node?, tree.locate true (Path.folder path) = .ok ⟨folder, node?⟩ →
          tree.top.get? (folder ++ [sibling]) = none) →
        tree.writeInStages path (encode content) sibling ⟨none, fun _ => none⟩ =
          tree.settle (tree.replaceFile path (encode content)))) ∧
    (∀ (steps : List FileStep) (file : SourceFile),
      FileStep.takeAll steps (file, tree) =
        (file.replaceContent (FileStep.lastContent file.content steps),
          FileStep.writeAll file.path (FileStep.writtenContents file.content steps) tree)) := by
  refine ⟨?_, ?_, ?_, ?_⟩
  · simp only [writeText_eq_ok_iff, Tree.replaceFile_eq_ok_iff]
    constructor
    · rintro ⟨_, folder, name, names, noFolder, _⟩
      exact ⟨folder, name, names, noFolder⟩
    · rintro ⟨folder, name, names, noFolder⟩
      exact ⟨_, folder, name, names, noFolder, rfl⟩
  · intro left written
    rw [writeText_eq_ok_iff, Tree.replaceFile_eq_ok_iff] at written
    obtain ⟨folder, name, names, noFolder, rfl⟩ := written
    exact ⟨folder, name, names, names.written noFolder _⟩
  · intro ordered sibling
    refine ⟨?_, fun fresh => Tree.writeInStages_of_unhindered ordered fresh⟩
    intro hindrances left
    obtain ⟨outcome, ends, replaced⟩ := Tree.exists_outcome_of_writeInStages ordered hindrances
    rw [ends, writeText_eq_ok_iff]
    cases outcome with
    | error error => simp [Tree.settle, eq_comm]
    | ok after =>
        constructor
        · intro same
          rw [← (Prod.mk.inj same).1]
          exact replaced after rfl
        · intro fault same
          simp [Tree.settle] at same
  · exact fun steps file => FileStep.takeAll_eq steps file tree

/-- A file and a link to it. -/
def linkedTree : Tree :=
  ⟨.folder Node.folderMode
    [("a.h".toList, .file ⟨encode ['a'], 0o640⟩), ("b.h".toList, .link "a.h".toList)], []⟩

theorem ordered_linkedTree : linkedTree.top.Ordered := by
  apply Node.Ordered.of_entries
  · exact List.pairwise_pair.2 (by decide)
  · simp

theorem writeText_replaces_entry_or_nothing_of_linkedTree :
    linkedTree.top.Ordered ∧
      ∃ left, writeText linkedTree "b.h".toList ['b'] = .ok left ∧
        left.IsRegular "b.h".toList ["b.h".toList] ⟨encode ['b'], 0o640⟩ ∧
        left.top.get? ["a.h".toList] = some (.file ⟨encode ['a'], 0o640⟩) ∧
        ∀ hindrances other fault,
          linkedTree.writeInStages "b.h".toList (encode ['b']) "x".toList hindrances =
            (other, some fault) → other = linkedTree := by
  obtain ⟨_, success, staged, _⟩ :=
    writeText_replaces_entry_or_nothing linkedTree "b.h".toList ['b']
  have written : writeText linkedTree "b.h".toList ['b'] =
      .ok (linkedTree.setFile ["b.h".toList] ⟨encode ['b'], 0o640⟩) := by
    rfl
  have named : linkedTree.file? "b.h".toList = some ⟨encode ['a'], 0o640⟩ := by rfl
  have located : linkedTree.locate false "b.h".toList =
      .ok ⟨["b.h".toList], some (.link "a.h".toList)⟩ := by
    rfl
  obtain ⟨folder, name, names, done⟩ := success _ written
  have place : folder ++ [name] = ["b.h".toList] :=
    (Target.mk.inj (Except.ok.inj (names.locate.symm.trans located))).1
  rw [place] at done
  have notThrough : ¬ linkedTree.GoesThrough "b.h".toList ["b.h".toList] := by
    intro through
    rw [(done.link_of_goesThrough through).2] at named
    simp at named
  refine ⟨ordered_linkedTree, _, written, done.isRegular_iff.2 notThrough, ?_, ?_⟩
  · exact done.linked _ ["a.h".toList] _ (by rfl) (by rfl)
  · exact fun hindrances other fault =>
      ((staged ordered_linkedTree _).1 hindrances other).2 fault

/-- A link to the folder that holds it. -/
def loopingTree : Tree :=
  ⟨.folder Node.folderMode [("link".toList, .link ['.'])], []⟩

/-- A path through the link that it names does not lead to the file that is written to it. -/
theorem writeText_through_its_own_link :
    ∃ left, writeText loopingTree "link/link".toList ['x'] = .ok left ∧
      left.locate false "link/link".toList = .error .notADirectory ∧
      ¬ ∃ place file, left.IsRegular "link/link".toList place file := by
  refine ⟨loopingTree.setFile ["link".toList] ⟨encode ['x'], Node.folderMode.permissions⟩,
    by rfl, by rfl, ?_⟩
  rintro ⟨place, file, regular⟩
  have lost : (loopingTree.setFile ["link".toList]
      ⟨encode ['x'], Node.folderMode.permissions⟩).locate false "link/link".toList =
        .error .notADirectory := by
    rfl
  rw [Tree.IsRegular, lost] at regular
  simp at regular

end Upkeep
