import Upkeep.Proofs.Tree.Order
import Upkeep.Proofs.Tree.Replace

/-!
Writing in stages.  A new file is made beside what a path names, it is filled and given its
permissions, and it is moved to where the path leads.  Whatever stands in the way of a stage, the new
file is taken away and the tree is what it was; if nothing does, the file is replaced as in one
step.
-/

namespace Upkeep

/-- A stage of a write, once there is a new file. -/
inductive WriteStage where
  | fill
  | permit
  | rename
  deriving DecidableEq, Repr

/-- What stands in the way of a stage: why it fails, and what it has made of the new file. -/
structure Hindrance where
  fault : Fault
  leftover : File

/-- What stands in the way of a write, apart from the tree itself. -/
structure Hindrances where
  create? : Option Fault
  stage? : WriteStage → Option Hindrance

namespace Tree

/-- Where a new file goes that is made beside what a path names. -/
def placeBeside (tree : Tree) (path sibling : Text) : Except Fault Place :=
  match tree.locate true (Path.folder path) with
  | .error fault => .error fault
  | .ok ⟨_, none⟩ => .error .notFound
  | .ok ⟨folder, some (.folder ..)⟩ =>
      match tree.top.get? (folder ++ [sibling]) with
      | none => .ok (folder ++ [sibling])
      | some _ => .error .alreadyExists
  | .ok _ => .error .notADirectory

/-- Change the file at a place. -/
def changeFile (tree : Tree) (place : Place) (change : File → File) : Tree :=
  match tree.top.get? place with
  | some (.file file) => tree.setFile place (change file)
  | _ => tree

def eraseAt (tree : Tree) (place : Place) : Tree :=
  { tree with top := tree.top.erase place }

/-- Move the file at a place to where a path leads, in place of what is there. -/
def moveFile (tree : Tree) (source : Place) (path : Text) : Except Fault Tree :=
  tree.atEntry path fun place =>
    if place = source then .ok tree
    else
      match tree.top.get? source with
      | some (.file file) => .ok ((tree.eraseAt source).setFile place file)
      | _ => .error .notFound

/-- Take a stage with the new file, which gets the given bytes and the permissions of what the path
names. -/
def takeStage (tree : Tree) (path : Text) (bytes : ByteArray) (source : Place) :
    WriteStage → Except Fault Tree
  | .fill => .ok (tree.changeFile source fun file => { file with bytes })
  | .permit =>
      .ok (match tree.mode? path with
        | some mode => tree.changeFile source fun file => { file with mode }
        | none => tree)
  | .rename => tree.moveFile source path

/-- Take stages with the new file, up to one that fails; then the new file is taken away. -/
def takeStages (path : Text) (bytes : ByteArray) (source : Place)
    (hinders : WriteStage → Option Hindrance) : List WriteStage → Tree → Tree × Option Fault
  | [], tree => (tree, none)
  | stage :: rest, tree =>
      match hinders stage with
      | some hindrance =>
          ((tree.setFile source hindrance.leftover).eraseAt source, some hindrance.fault)
      | none =>
          match tree.takeStage path bytes source stage with
          | .error fault => (tree.eraseAt source, some fault)
          | .ok tree => takeStages path bytes source hinders rest tree

/-- Write a file in stages. -/
def writeInStages (tree : Tree) (path : Text) (bytes : ByteArray) (sibling : Text)
    (hindrances : Hindrances) : Tree × Option Fault :=
  match hindrances.create?, tree.placeBeside path sibling with
  | some fault, _ => (tree, some fault)
  | none, .error fault => (tree, some fault)
  | none, .ok source =>
      takeStages path bytes source hindrances.stage? [.fill, .permit, .rename]
        (tree.setFile source ⟨.empty, privateMode⟩)

/-- The tree after an attempt to change it, and why it failed, which leaves the tree as it was. -/
def settle {Error : Type} (tree : Tree) : Except Error Tree → Tree × Option Error
  | .error error => (tree, some error)
  | .ok left => (left, none)

section

variable {top new : Node} {followLast : Bool} {links : Nat} {start folder place : Place}
  {parts : List Text} {name : Text} {target : Target} {file : File}

/-- A new file beside others makes no difference to where paths lead. -/
theorem Leads.of_replaces_none
    (replaces : Node.Replaces place file top new)
    (missing : top.get? place = none)
    (leads : Leads new followLast links start parts target) :
    Leads top followLast links start parts ⟨target.place, top.get? target.place⟩ := by
  have there := replaces.there
  induction leads with
  | arrived => exact .arrived
  | stepped folder noEntry _ inductionHypothesis =>
      exact .stepped (replaces.folderAt_iff.1 folder) noEntry inductionHypothesis
  | @missing links start part folder isEntry none_ =>
      have elsewhere : start ++ [part] ≠ place := by
        rintro rfl
        simp [there] at none_
      have alsoNone := (replaces.none_iff elsewhere).1 none_
      simp only [alsoNone]
      exact .missing (replaces.folderAt_iff.1 folder) isEntry alsoNone
  | @ended links start part text isEntry link last =>
      have elsewhere : start ++ [part] ≠ place := by
        rintro rfl
        simp [there] at link
      have alsoLink := (replaces.link_iff elsewhere).1 link
      simp only [alsoLink]
      exact .ended isEntry alsoLink last
  | @entered links start part rest text target isEntry link further _ inductionHypothesis =>
      have elsewhere : start ++ [part] ≠ place := by
        rintro rfl
        simp [there] at link
      exact .entered isEntry ((replaces.link_iff elsewhere).1 link) further inductionHypothesis
  | @went links start part rest node target isEntry found noLink leads inductionHypothesis =>
      by_cases here : start ++ [part] = place
      · -- The new file ends the parts, and without it nothing is there.
        have folderAt := Node.folderAt_of_get?_append found (by simp)
        have last : rest = [] := by
          by_contra further
          rw [here] at leads
          exact (Node.leafAt_of_file there).not_folderAt (leads.folderAt_of_ne_nil further)
        subst last
        cases leads
        rw [← here] at missing
        simp only [missing]
        exact .missing (replaces.folderAt_iff.1 folderAt) isEntry missing
      · obtain ⟨other, alsoThere, alsoNoLink⟩ := (replaces.noLink_iff here).1 ⟨node, found, noLink⟩
        exact .went isEntry alsoThere alsoNoLink inductionHypothesis

end

/-- Whether nothing is at a place yet, in a folder that is there. -/
def IsFree (tree : Tree) (place : Place) : Prop :=
  ∃ folder name, place = folder ++ [name] ∧ tree.top.FolderAt folder ∧ tree.top.get? place = none

variable {tree : Tree} {path sibling : Text} {source folder : Place} {bytes : ByteArray}
  {file : File}

theorem exists_folder_of_placeBeside
    (found : tree.placeBeside path sibling = .ok source) :
    ∃ folder mode entries,
      tree.locate true (Path.folder path) = .ok ⟨folder, some (.folder mode entries)⟩ ∧
        source = folder ++ [sibling] ∧ tree.top.get? source = none := by
  unfold placeBeside at found
  split at found
  · simp at found
  · simp at found
  next folder mode entries located =>
    split at found
    next missing =>
      obtain rfl := Except.ok.inj found
      exact ⟨folder, mode, entries, located, rfl, missing⟩
    · simp at found
  · simp at found

theorem isFree_of_placeBeside
    (found : tree.placeBeside path sibling = .ok source) :
    tree.IsFree source := by
  obtain ⟨folder, mode, entries, located, beside, missing⟩ := exists_folder_of_placeBeside found
  have there := (locate_eq_ok_iff_leads.1 located).2.2.node?_eq
  exact ⟨folder, sibling, beside, ⟨mode, entries, there.symm⟩, missing⟩

namespace IsFree

variable (free : tree.IsFree source)

include free

theorem replaces (file : File) :
    Node.Replaces source file tree.top (tree.setFile source file).top := by
  obtain ⟨folder, name, rfl, folderAt, missing⟩ := free
  apply Node.replaces_put folderAt
  rintro ⟨mode, entries, there⟩
  simp [missing] at there

theorem setFile_setFile (first second : File) :
    (tree.setFile source first).setFile source second = tree.setFile source second := by
  obtain ⟨folder, name, rfl, folderAt, _⟩ := free
  simp only [setFile, Node.put_put_entry folderAt]

theorem eraseAt_setFile
    (ordered : tree.top.Ordered) (file : File) :
    (tree.setFile source file).eraseAt source = tree := by
  obtain ⟨folder, name, rfl, folderAt, missing⟩ := free
  simp only [setFile, eraseAt, Node.erase_put_entry ordered folderAt missing]

theorem changeFile_setFile (file : File) (change : File → File) :
    (tree.setFile source file).changeFile source change = tree.setFile source (change file) := by
  have there := (free.replaces file).there
  rw [changeFile, there]
  exact free.setFile_setFile file (change file)

theorem locate_setFile
    {followLast : Bool} {target : Target}
    (located : tree.locate followLast path = .ok target) (file : File) :
    (tree.setFile source file).locate followLast path =
      .ok (target.lookIn (tree.setFile source file).top) := by
  have replaces := free.replaces file
  obtain ⟨folder, name, rfl, folderAt, missing⟩ := free
  obtain ⟨nonempty, noNul, leads⟩ := locate_eq_ok_iff_leads.1 located
  have keeps := (Node.changedWithin_put_of_none file folderAt missing).keeps
  refine locate_eq_ok_iff_leads.2 ⟨nonempty, noNul, leads.keeps keeps ?_⟩
  intro none_ text link
  by_cases here : target.place = folder ++ [name]
  · rw [here] at link
    exact absurd (replaces.there.symm.trans link) (by simp)
  · have wasLink := (replaces.link_iff here).1 link
    rw [leads.node?_eq, wasLink] at none_
    simp at none_

theorem exists_locate_of_setFile
    {followLast : Bool} {target : Target}
    (located : (tree.setFile source file).locate followLast path = .ok target) :
    ∃ before, tree.locate followLast path = .ok before := by
  obtain ⟨nonempty, noNul, leads⟩ := locate_eq_ok_iff_leads.1 located
  obtain ⟨_, _, rfl, _, missing⟩ := id free
  exact ⟨_, locate_eq_ok_iff_leads.2 ⟨nonempty, noNul,
    leads.of_replaces_none (free.replaces file) missing⟩⟩

/-- What a path names has the permissions that it had, or those of the new file, if nothing was
there. -/
theorem mode?_setFile (path : Text) (file : File) :
    ((tree.setFile source file).mode? path).getD file.mode =
      (tree.mode? path).getD file.mode := by
  have replaces := free.replaces file
  cases located : tree.locate true path with
  | error fault =>
      cases locatedNow : (tree.setFile source file).locate true path with
      | error faultNow => simp [mode?, node?, located, locatedNow]
      | ok target =>
          obtain ⟨before, found⟩ := free.exists_locate_of_setFile locatedNow
          simp [located] at found
  | ok target =>
      have there := (locate_eq_ok_iff_leads.1 located).2.2.node?_eq
      simp only [mode?, node?, located, free.locate_setFile located file, Target.lookIn]
      by_cases here : target.place = source
      · obtain ⟨_, _, rfl, _, missing⟩ := id free
        rw [there, here, missing, replaces.there]
        rfl
      · have same := congrArg (Option.map Node.mode) (replaces.others target.place here)
        have modes : Node.mode ∘ Node.bare = Node.mode := by
          funext node
          cases node <;> rfl
        rw [Option.map_map, Option.map_map, modes, ← there] at same
        rw [same]

/-- A new file beside others does not change what can be put where a path leads. -/
theorem atEntry_setFile
    {mode : FolderMode} {entries : NameMap Node}
    (located : tree.locate true (Path.folder path) = .ok ⟨folder, some (.folder mode entries)⟩)
    (file : File) (put : Place → Except Fault Tree) :
    (tree.setFile source file).atEntry path put = tree.atEntry path put := by
  by_cases nul : '\x00' ∈ path
  · have nonempty : path ≠ [] := List.ne_nil_of_mem nul
    simp only [atEntry, locate, if_neg nonempty, if_pos nul]
  by_cases named : endsInName path = true ∧ path.getLast? ≠ some '/'
  · obtain ⟨name, names⟩ := namesEntry_of_located located named.1 named.2 nul
    have replaces := free.replaces file
    have folderNow : (tree.setFile source file).top.FolderAt folder :=
      replaces.folderAt_iff.2 names.folderAt
    obtain ⟨modeNow, entriesNow, thereNow⟩ := folderNow
    have namesNow : (tree.setFile source file).NamesEntry path folder name := by
      refine ⟨⟨modeNow, entriesNow, ?_⟩, names.ends, names.isEntry, nul⟩
      rw [free.locate_setFile located, Target.lookIn, thereNow]
    by_cases folderAt : tree.top.FolderAt (folder ++ [name])
    · rw [names.atEntry_of_folderAt folderAt,
        namesNow.atEntry_of_folderAt (replaces.folderAt_iff.2 folderAt)]
    · rw [names.atEntry_of_not_folderAt folderAt,
        namesNow.atEntry_of_not_folderAt (mt replaces.folderAt_iff.1 folderAt)]
  · simp only [atEntry]
    by_cases ends : endsInName path = true
    · have slash : path.getLast? = some '/' := by
        by_contra noSlash
        exact named ⟨ends, noSlash⟩
      simp only [ends, if_pos slash]
    · simp [ends]

/-- Where the new file is moved it is the file that replaces what was there. -/
theorem moveFile_setFile
    {mode : FolderMode} {entries : NameMap Node}
    (ordered : tree.top.Ordered)
    (located : tree.locate true (Path.folder path) = .ok ⟨folder, some (.folder mode entries)⟩)
    (bytes : ByteArray) :
    (tree.setFile source ⟨bytes, (tree.mode? path).getD privateMode⟩).moveFile source path =
      tree.replaceFile path bytes := by
  rw [moveFile, free.atEntry_setFile located, replaceFile_eq_atEntry located]
  congr 1
  funext place
  by_cases same : place = source
  · rw [if_pos same, same]
  · rw [if_neg same, (free.replaces _).there, free.eraseAt_setFile ordered]

end IsFree

end Tree

/-- What a stage makes of the new file. -/
def WriteStage.change (tree : Tree) (path : Text) (bytes : ByteArray) : WriteStage → File → File
  | .fill, file => { file with bytes }
  | .permit, file => { file with mode := (tree.mode? path).getD file.mode }
  | .rename, file => file

namespace Tree

variable {tree : Tree} {path sibling : Text} {source folder : Place} {bytes : ByteArray}
  {file : File}

namespace IsFree

variable (free : tree.IsFree source)

include free

/-- Before it is moved, a stage changes the new file and nothing else. -/
theorem takeStage_setFile
    {stage : WriteStage}
    (stays : stage ≠ .rename) (file : File) :
    (tree.setFile source file).takeStage path bytes source stage =
      .ok (tree.setFile source (stage.change tree path bytes file)) := by
  cases stage with
  | rename => exact absurd rfl stays
  | fill => rw [takeStage, free.changeFile_setFile, WriteStage.change]
  | permit =>
      have modes := free.mode?_setFile path file
      rw [takeStage, WriteStage.change, ← modes]
      cases (tree.setFile source file).mode? path with
      | none => rfl
      | some mode =>
          simp only [Option.getD_some]
          rw [free.changeFile_setFile]

/-- Stages before the move leave a new file, and no trace if one of them is hindered. -/
theorem takeStages_append
    {hinders : WriteStage → Option Hindrance} {stages : List WriteStage}
    (ordered : tree.top.Ordered)
    (stay : .rename ∉ stages) (rest : List WriteStage) (file : File) :
    takeStages path bytes source hinders (stages ++ rest) (tree.setFile source file) =
      match stages.findSome? hinders with
      | some hindrance => tree.settle (.error hindrance.fault)
      | none => takeStages path bytes source hinders rest
          (tree.setFile source (stages.foldl (fun file stage => stage.change tree path bytes file)
            file)) := by
  induction stages generalizing file with
  | nil => rfl
  | cons stage stages inductionHypothesis =>
      rw [List.mem_cons, not_or] at stay
      rw [List.cons_append, takeStages, List.findSome?_cons]
      cases hinders stage with
      | some hindrance =>
          simp only [free.setFile_setFile, free.eraseAt_setFile ordered, settle]
      | none =>
          simp only [free.takeStage_setFile (Ne.symm stay.1), List.foldl_cons]
          exact inductionHypothesis stay.2 _

/-- Where the new file is moved last, it replaces what was there or is taken away. -/
theorem takeStages_rename
    {hinders : WriteStage → Option Hindrance} {mode : FolderMode} {entries : NameMap Node}
    (ordered : tree.top.Ordered)
    (located : tree.locate true (Path.folder path) = .ok ⟨folder, some (.folder mode entries)⟩) :
    takeStages path bytes source hinders [.rename]
        (tree.setFile source ⟨bytes, (tree.mode? path).getD privateMode⟩) =
      tree.settle (match hinders .rename with
        | some hindrance => .error hindrance.fault
        | none => tree.replaceFile path bytes) := by
  rw [takeStages, takeStage, free.moveFile_setFile ordered located]
  cases hinders .rename with
  | some hindrance => simp only [free.setFile_setFile, free.eraseAt_setFile ordered, settle]
  | none =>
      cases tree.replaceFile path bytes with
      | error fault => simp only [free.eraseAt_setFile ordered, settle]
      | ok left => rfl

end IsFree

/-- Once there is a new file, a write in stages replaces the file, unless a stage is hindered. -/
theorem writeInStages_of_placeBeside
    {hindrances : Hindrances}
    (ordered : tree.top.Ordered)
    (found : tree.placeBeside path sibling = .ok source)
    (created : hindrances.create? = none) :
    tree.writeInStages path bytes sibling hindrances =
      tree.settle (match [WriteStage.fill, .permit, .rename].findSome? hindrances.stage? with
        | some hindrance => .error hindrance.fault
        | none => tree.replaceFile path bytes) := by
  have free := isFree_of_placeBeside found
  obtain ⟨folder, mode, entries, located, _⟩ := exists_folder_of_placeBeside found
  have stages : [WriteStage.fill, .permit, .rename] = [.fill, .permit] ++ [.rename] := rfl
  rw [writeInStages, created, found]
  simp only
  rw [stages, free.takeStages_append ordered (by decide), List.findSome?_append]
  cases [WriteStage.fill, .permit].findSome? hindrances.stage? with
  | some hindrance => rfl
  | none =>
      refine (free.takeStages_rename ordered located).trans ?_
      rw [Option.none_or, List.findSome?_singleton]

/-- However a write in stages ends, the tree is as it was or the file is replaced. -/
theorem exists_outcome_of_writeInStages
    (ordered : tree.top.Ordered) (hindrances : Hindrances) :
    ∃ outcome : Except Fault Tree,
      tree.writeInStages path bytes sibling hindrances = tree.settle outcome ∧
        ∀ left, outcome = .ok left → tree.replaceFile path bytes = .ok left := by
  cases created : hindrances.create? with
  | some fault => exact ⟨.error fault, by rw [writeInStages, created]; rfl, by simp⟩
  | none =>
      cases found : tree.placeBeside path sibling with
      | error fault => exact ⟨.error fault, by rw [writeInStages, created, found]; rfl, by simp⟩
      | ok source =>
          refine ⟨_, writeInStages_of_placeBeside ordered found created, ?_⟩
          intro left
          cases [WriteStage.fill, .permit, .rename].findSome? hindrances.stage? with
          | some hindrance => simp
          | none => exact id

/-- If nothing stands in its way, a write in stages replaces the file, or fails as that does. -/
theorem writeInStages_of_unhindered
    (ordered : tree.top.Ordered)
    (fresh : ∀ folder node?, tree.locate true (Path.folder path) = .ok ⟨folder, node?⟩ →
      tree.top.get? (folder ++ [sibling]) = none) :
    tree.writeInStages path bytes sibling ⟨none, fun _ => none⟩ =
      tree.settle (tree.replaceFile path bytes) := by
  cases found : tree.placeBeside path sibling with
  | ok source => exact writeInStages_of_placeBeside ordered found rfl
  | error fault =>
      have alsoLost : tree.replaceFile path bytes = .error fault := by
        unfold placeBeside at found
        unfold replaceFile
        cases located : tree.locate true (Path.folder path) with
        | error lost => simpa [located] using found
        | ok target =>
            obtain ⟨folder, node?⟩ := target
            cases node? with
            | none => simpa [located] using found
            | some node =>
                cases node with
                | file file => simpa [located] using found
                | link text => simpa [located] using found
                | folder mode entries => simp [located, fresh folder _ located] at found
      rw [writeInStages, found, alsoLost]
      rfl

end Tree

end Upkeep
