import Upkeep.Proofs.Tree.Write

/-!
What a change of a tree leaves as it was.  Everything that was there can still be there with
its permissions, so that paths lead where they did, and outside of the places that are touched
nothing differs at all.
-/

namespace Upkeep

namespace Node

/-- An entry without what it holds, if it is a folder or a file. -/
def outline : Node → Node
  | .file content => .file ⟨.empty, content.mode⟩
  | .folder mode _ => .folder mode []
  | .link target => .link target

@[simp]
theorem outline_bare (node : Node) : node.bare.outline = node.outline := by
  cases node <;> rfl

theorem outline_eq_file_iff {node : Node} {mode : Nat} :
    node.outline = .file ⟨.empty, mode⟩ ↔ ∃ bytes, node = .file ⟨bytes, mode⟩ := by
  cases node with
  | file content =>
      obtain ⟨bytes, fileMode⟩ := content
      simp [outline]
  | folder folderMode entries => simp [outline]
  | link target => simp [outline]

theorem outline_eq_link_iff {node : Node} {target : Text} :
    node.outline = .link target ↔ node = .link target := by
  cases node <;> simp [outline]

theorem outline_eq_folder_iff {node : Node} {mode : FolderMode} :
    node.outline = .folder mode [] ↔ ∃ entries, node = .folder mode entries := by
  cases node <;> simp [outline]

/-- Whether everything is still there, and differs at most in the bytes of files. -/
def Keeps (top new : Node) : Prop :=
  ∀ place node, top.get? place = some node →
    ∃ now, new.get? place = some now ∧ now.outline = node.outline

variable {top middle new : Node} {place : Place}

theorem Keeps.refl (top : Node) : top.Keeps top :=
  fun _ node there => ⟨node, there, rfl⟩

theorem Keeps.trans
    (first : top.Keeps middle)
    (second : middle.Keeps new) :
    top.Keeps new := by
  intro place node there
  obtain ⟨between, thereBetween, same⟩ := first place node there
  obtain ⟨now, thereNow, sameNow⟩ := second place between thereBetween
  exact ⟨now, thereNow, sameNow.trans same⟩

theorem Keeps.file
    {file : File}
    (keeps : top.Keeps new)
    (there : top.get? place = some (.file file)) :
    ∃ bytes, new.get? place = some (.file ⟨bytes, file.mode⟩) := by
  obtain ⟨now, thereNow, same⟩ := keeps place _ there
  obtain ⟨bytes, rfl⟩ := outline_eq_file_iff.1 same
  exact ⟨bytes, thereNow⟩

theorem Keeps.link
    {target : Text}
    (keeps : top.Keeps new)
    (there : top.get? place = some (.link target)) :
    new.get? place = some (.link target) := by
  obtain ⟨now, thereNow, same⟩ := keeps place _ there
  rwa [outline_eq_link_iff.1 same] at thereNow

theorem Keeps.folderAt
    (keeps : top.Keeps new)
    (folder : top.FolderAt place) :
    new.FolderAt place := by
  obtain ⟨mode, entries, there⟩ := folder
  obtain ⟨now, thereNow, same⟩ := keeps place _ there
  obtain ⟨nowEntries, rfl⟩ := outline_eq_folder_iff.1 same
  exact ⟨mode, nowEntries, thereNow⟩

theorem Keeps.noLink
    {node : Node}
    (keeps : top.Keeps new)
    (there : top.get? place = some node)
    (noLink : ∀ text, node ≠ .link text) :
    ∃ now, new.get? place = some now ∧ ∀ text, now ≠ .link text := by
  obtain ⟨now, thereNow, same⟩ := keeps place _ there
  refine ⟨now, thereNow, ?_⟩
  rintro text rfl
  exact noLink text (outline_eq_link_iff.1 same.symm)

/-- Whether everything is still there, and nothing differs or is new but at the places that
are touched. -/
structure ChangedWithin (touched : Place → Prop) (top new : Node) : Prop where
  keeps : top.Keeps new
  others : ∀ place, ¬ touched place → (new.get? place).map bare = (top.get? place).map bare

variable {touched wider : Place → Prop}

theorem ChangedWithin.refl (touched : Place → Prop) (top : Node) : ChangedWithin touched top top :=
  ⟨Keeps.refl top, fun _ _ => rfl⟩

theorem ChangedWithin.trans
    (first : ChangedWithin touched top middle)
    (second : ChangedWithin touched middle new) :
    ChangedWithin touched top new where
  keeps := first.keeps.trans second.keeps
  others := fun place untouched =>
    (second.others place untouched).trans (first.others place untouched)

theorem ChangedWithin.mono
    (changed : ChangedWithin touched top new)
    (within : ∀ place, touched place → wider place) :
    ChangedWithin wider top new where
  keeps := changed.keeps
  others := fun place untouched =>
    changed.others place fun inside => untouched (within place inside)

/-- What nothing touches is the same. -/
theorem keeps_of_others
    (others : ∀ other, other ≠ place → (new.get? other).map bare = (top.get? other).map bare)
    (here : ∀ node, top.get? place = some node →
      ∃ now, new.get? place = some now ∧ now.outline = node.outline) :
    top.Keeps new := by
  intro other node there
  by_cases same : other = place
  · subst same
    exact here node there
  · have bareThere := others other same
    rw [there, Option.map_some, Option.map_eq_some_iff] at bareThere
    obtain ⟨now, thereNow, bareSame⟩ := bareThere
    refine ⟨now, thereNow, ?_⟩
    rw [← outline_bare now, bareSame, outline_bare]

theorem changedWithin_put
    {old : File} (bytes : ByteArray)
    (there : top.get? place = some (.file old)) :
    ChangedWithin (· = place) top (top.put place (.file ⟨bytes, old.mode⟩)) := by
  have leaf := leafAt_of_file there
  have others : ∀ other, other ≠ place →
      ((top.put place (.file ⟨bytes, old.mode⟩)).get? other).map bare =
        (top.get? other).map bare := by
    intro other different
    rw [map_bare_get?_put leaf, if_neg different]
  refine ⟨keeps_of_others others ?_, others⟩
  intro node thereToo
  rw [there, Option.some.injEq] at thereToo
  subst thereToo
  exact ⟨_, get?_put_self leaf, rfl⟩

/-- A file put into a folder that has no entry of its name is all that changes. -/
theorem map_bare_get?_put_of_none
    {name : Text}
    (folder : top.FolderAt place)
    (missing : top.get? (place ++ [name]) = none) (new : File) (other : Place) :
    ((top.put (place ++ [name]) (.file new)).get? other).map bare =
      if other = place ++ [name] then some (.file new) else (top.get? other).map bare := by
  obtain ⟨mode, entries, there⟩ := folder
  induction place generalizing top other with
  | nil =>
      rw [get?_nil, Option.some.injEq] at there
      subst there
      rw [List.nil_append, get?_folder_singleton] at missing
      rw [List.nil_append, put]
      cases other with
      | nil => simp [bare]
      | cons otherName rest =>
          rw [get?_folder_cons, get?_folder_cons]
          by_cases same : otherName = name
          · subst same
            rw [NameMap.get?_set_self, missing, put, Option.bind_some]
            cases rest <;> simp [get?]
          · rw [NameMap.get?_set_of_ne same]
            simp [same]
  | cons first rest inductionHypothesis =>
      cases top with
      | file file => simp [get?] at there
      | link target => simp [get?] at there
      | folder topMode topEntries =>
          rw [get?_folder_cons, Option.bind_eq_some_iff] at there
          obtain ⟨child, named, below⟩ := there
          rw [List.cons_append, get?_folder_cons, named, Option.bind_some] at missing
          rw [List.cons_append, put, named, Option.getD_some]
          cases other with
          | nil => simp [bare]
          | cons otherName otherRest =>
              rw [get?_folder_cons, get?_folder_cons]
              by_cases same : otherName = first
              · subst same
                rw [NameMap.get?_set_self, named, Option.bind_some, Option.bind_some,
                  inductionHypothesis missing _ below]
                simp
              · rw [NameMap.get?_set_of_ne same]
                simp [same]

theorem changedWithin_put_of_none
    {name : Text} (file : File)
    (folder : top.FolderAt place)
    (missing : top.get? (place ++ [name]) = none) :
    ChangedWithin (· = place ++ [name]) top (top.put (place ++ [name]) (.file file)) := by
  have others : ∀ other, other ≠ place ++ [name] →
      ((top.put (place ++ [name]) (.file file)).get? other).map bare =
        (top.get? other).map bare := by
    intro other different
    rw [map_bare_get?_put_of_none folder missing, if_neg different]
  refine ⟨keeps_of_others others ?_, others⟩
  intro node there
  simp [missing] at there

end Node

/-- What another tree holds at the place of a target. -/
def Target.lookIn (top : Node) (target : Target) : Target :=
  ⟨target.place, top.get? target.place⟩

namespace Tree

variable {top new : Node} {followLast : Bool} {links : Nat} {start : Place} {parts : List Text}
  {target : Target}

/-- Paths lead where they did as long as everything is still there. -/
theorem Leads.keeps
    (keeps : top.Keeps new)
    (leads : Leads top followLast links start parts target)
    (noLink : target.node? = none → ∀ text, new.get? target.place ≠ some (.link text)) :
    Leads new followLast links start parts ⟨target.place, new.get? target.place⟩ := by
  induction leads with
  | arrived => exact .arrived
  | stepped folder noEntry _ inductionHypothesis =>
      exact .stepped (keeps.folderAt folder) noEntry (inductionHypothesis noLink)
  | @missing links place part folder isEntry none_ =>
      simp only at noLink ⊢
      cases found : new.get? (place ++ [part]) with
      | none => exact .missing (keeps.folderAt folder) isEntry found
      | some now =>
          refine .went isEntry found ?_ ?_
          · rintro text rfl
            exact noLink trivial text found
          · rw [← found]
            exact .arrived
  | ended isEntry link last =>
      rw [keeps.link link]
      exact .ended isEntry (keeps.link link) last
  | entered isEntry link further _ inductionHypothesis =>
      exact .entered isEntry (keeps.link link) further (inductionHypothesis noLink)
  | went isEntry there isNoLink _ inductionHypothesis =>
      obtain ⟨now, thereNow, stillNoLink⟩ := keeps.noLink there isNoLink
      exact .went isEntry thereNow stillNoLink (inductionHypothesis noLink)

/-- Where nothing is, parts end in the name of a missing entry of a folder. -/
theorem Leads.exists_folder_of_none
    (leads : Leads top followLast links start parts target)
    (somewhere : parts ≠ [] ∨ top.get? start ≠ none)
    (missing : target.node? = none) :
    ∃ place name, target.place = place ++ [name] ∧ top.FolderAt place := by
  induction leads with
  | arrived =>
      rcases somewhere with more | present
      · exact absurd rfl more
      · exact absurd missing present
  | stepped folder noEntry _ inductionHypothesis =>
      apply inductionHypothesis _ missing
      obtain ⟨mode, entries, there⟩ := folderAt_enter folder noEntry
      exact .inr (by simp [there])
  | missing folder => exact ⟨_, _, rfl, folder⟩
  | ended => simp at missing
  | entered _ _ _ _ inductionHypothesis =>
      exact inductionHypothesis (.inl (by simp [List.splitOn_ne_nil])) missing
  | went _ there _ _ inductionHypothesis =>
      exact inductionHypothesis (.inr (by simp [there])) missing

section

variable (keeps : top.Keeps new) (missing : ∀ place, top.get? place = none → new.get? place = none)

include keeps missing

theorem follow_eq_of_keeps
    {enterLink enterLinkNew : Place → List Text → Except Fault Target}
    (enters : ∀ place parts,
      enterLinkNew place parts = (enterLink place parts).map (Target.lookIn new)) :
    follow new none followLast enterLinkNew start parts =
      (follow top none followLast enterLink start parts).map (Target.lookIn new) := by
  induction parts generalizing start with
  | nil => rfl
  | cons part rest inductionHypothesis =>
      rw [follow, follow]
      cases found : top.get? start with
      | none => rw [missing start found]; rfl
      | some node =>
          cases node with
          | file file =>
              obtain ⟨bytes, there⟩ := keeps.file found
              rw [there]
              rfl
          | link text => rw [keeps.link found]; rfl
          | folder mode entries =>
              obtain ⟨newMode, newEntries, there⟩ := keeps.folderAt ⟨mode, entries, found⟩
              rw [there]
              simp only
              by_cases stays : part = [] ∨ part = ['.']
              · simp only [if_pos stays, inductionHypothesis]
              by_cases climbs : part = ['.', '.']
              · simp only [if_neg stays, if_pos climbs, reduceCtorEq, if_false,
                  inductionHypothesis]
              simp only [if_neg stays, if_neg climbs]
              rw [← get?_concat found, ← get?_concat there]
              cases entry : top.get? (start ++ [part]) with
              | none =>
                  rw [missing _ entry]
                  by_cases last : rest = []
                  · simp [last, Except.map, Target.lookIn, missing _ entry]
                  · simp [last, Except.map]
              | some node =>
                  cases node with
                  | link text =>
                      rw [keeps.link entry]
                      simp only [ne_eq, not_true_eq_false, false_and, if_false]
                      by_cases last : rest = [] ∧ followLast = false
                      · simp [last, Except.map, Target.lookIn, keeps.link entry]
                      · simp only [if_neg last, enters]
                  | file file =>
                      obtain ⟨bytes, thereNow⟩ := keeps.file entry
                      rw [thereNow]
                      exact inductionHypothesis
                  | folder entryMode inner =>
                      obtain ⟨_, _, thereNow⟩ := keeps.folderAt ⟨entryMode, inner, entry⟩
                      rw [thereNow]
                      exact inductionHypothesis

theorem followWithin_eq_of_keeps :
    followWithin new none followLast links start parts =
      (followWithin top none followLast links start parts).map (Target.lookIn new) := by
  induction links generalizing start parts with
  | zero => rfl
  | succ links inductionHypothesis =>
      exact follow_eq_of_keeps keeps missing fun _ _ => inductionHypothesis

end

/-- Whether nothing of a tree differs or is new but at the places that are touched. -/
structure ChangedWithin (touched : Place → Prop) (tree left : Tree) : Prop where
  top : tree.top.ChangedWithin touched left.top
  workingDir : left.workingDir = tree.workingDir

section

variable {touched wider : Place → Prop} {tree middle left : Tree} {path : Text} {place : Place}
  {file : File}

theorem ChangedWithin.refl (touched : Place → Prop) (tree : Tree) :
    tree.ChangedWithin touched tree :=
  ⟨.refl touched tree.top, rfl⟩

theorem ChangedWithin.trans
    (first : tree.ChangedWithin touched middle)
    (second : middle.ChangedWithin touched left) :
    tree.ChangedWithin touched left :=
  ⟨first.top.trans second.top, second.workingDir.trans first.workingDir⟩

theorem ChangedWithin.mono
    (changed : tree.ChangedWithin touched left)
    (within : ∀ place, touched place → wider place) :
    tree.ChangedWithin wider left :=
  ⟨changed.top.mono within, changed.workingDir⟩

theorem ChangedWithin.startOf
    (changed : tree.ChangedWithin touched left) (path : Text) :
    left.startOf path = tree.startOf path := by
  rw [Tree.startOf, Tree.startOf, changed.workingDir]

/-- A path to a file leads to it still, and the file has its permissions. -/
theorem ChangedWithin.locate_file
    (changed : tree.ChangedWithin touched left)
    (located : tree.locate followLast path = .ok ⟨place, some (.file file)⟩) :
    ∃ bytes, left.locate followLast path = .ok ⟨place, some (.file ⟨bytes, file.mode⟩)⟩ := by
  obtain ⟨nonempty, noNul, leads⟩ := locate_eq_ok_iff_leads.1 located
  obtain ⟨bytes, there⟩ := changed.top.keeps.file leads.node?_eq.symm
  refine ⟨bytes, locate_eq_ok_iff_leads.2 ⟨nonempty, noNul, ?_⟩⟩
  rw [changed.startOf, ← there]
  exact leads.keeps changed.top.keeps (by simp)

theorem ChangedWithin.isRegular
    (changed : tree.ChangedWithin touched left)
    (regular : tree.IsRegular path place file) :
    ∃ bytes, left.IsRegular path place ⟨bytes, file.mode⟩ :=
  changed.locate_file regular

/-- Where only what is there is touched, paths lead where they did or nowhere for the same
reason. -/
theorem ChangedWithin.locate_eq
    (changed : tree.ChangedWithin touched left)
    (present : ∀ place, touched place → tree.top.get? place ≠ none)
    (followLast : Bool) (path : Text) :
    left.locate followLast path = (tree.locate followLast path).map (Target.lookIn left.top) := by
  have missing : ∀ place, tree.top.get? place = none → left.top.get? place = none := by
    intro place none_
    have same := changed.top.others place fun inside => present place inside none_
    rwa [none_, Option.map_none, Option.map_eq_none_iff] at same
  unfold locate
  split
  · rfl
  split
  · rfl
  have start := changed.startOf path
  rw [Tree.startOf, Tree.startOf] at start
  rw [start]
  exact followWithin_eq_of_keeps changed.top.keeps missing

section

variable (changed : tree.ChangedWithin touched left)
  (present : ∀ place, touched place → tree.top.get? place ≠ none)
  (untouched : ∀ target, tree.locate true path = .ok target → ¬ touched target.place)

include changed present untouched

theorem ChangedWithin.locate_untouched :
    match tree.locate true path with
    | .error fault => left.locate true path = .error fault
    | .ok target => ∃ node?, left.locate true path = .ok ⟨target.place, node?⟩ ∧
        node?.map Node.bare = target.node?.map Node.bare := by
  have located := changed.locate_eq present true path
  cases found : tree.locate true path with
  | error fault => rw [located, found]; rfl
  | ok target =>
      have same := changed.top.others target.place (untouched target found)
      rw [← (locate_eq_ok_iff_leads.1 found).2.2.node?_eq] at same
      exact ⟨left.top.get? target.place, by rw [located, found]; rfl, same⟩

/-- What is read where nothing is touched stays the same, and so does why nothing is read. -/
theorem ChangedWithin.read_eq : left.read path = tree.read path := by
  have same := changed.locate_untouched present untouched
  unfold read
  cases found : tree.locate true path with
  | error fault =>
      rw [found] at same
      rw [same]
  | ok target =>
      rw [found] at same
      obtain ⟨node?, located, bare⟩ := same
      rw [located]
      obtain ⟨place, was?⟩ := target
      cases was? with
      | none => rw [Option.map_eq_none_iff.1 bare]
      | some was =>
          rw [Option.map_some, Option.map_eq_some_iff] at bare
          obtain ⟨now, rfl, bare⟩ := bare
          cases was with
          | file file => rw [Node.bare_eq_file_iff.1 bare]
          | link text => rw [Node.bare_eq_link_iff.1 bare]
          | folder mode entries =>
              obtain ⟨_, rfl⟩ := Node.bare_eq_folder_iff.1 bare
              rfl

theorem ChangedWithin.file?_eq : left.file? path = tree.file? path := by
  have same := changed.locate_untouched present untouched
  apply Option.ext
  intro file
  rw [file?_eq_some_iff_locate, file?_eq_some_iff_locate]
  cases found : tree.locate true path with
  | error fault =>
      rw [found] at same
      simp [same]
  | ok target =>
      rw [found] at same
      obtain ⟨node?, located, bare⟩ := same
      have files : node? = some (.file file) ↔ target.node? = some (.file file) := by
        rw [← Node.map_bare_eq_file_iff, bare, Node.map_bare_eq_file_iff]
      rw [located]
      simp only [Except.ok.injEq]
      constructor
      · rintro ⟨place, same⟩
        obtain ⟨rfl, there⟩ := Target.mk.inj same
        exact ⟨target.place, by rw [← files.1 there]⟩
      · rintro ⟨place, rfl⟩
        exact ⟨place, by rw [files.2 rfl]⟩

theorem ChangedWithin.sourceFile_read_eq
    {given : Text} (normal : Path.normalize given = path) :
    SourceFile.read left given = SourceFile.read tree given := by
  rw [SourceFile.read, SourceFile.read, normal, readText, readText,
    changed.read_eq present untouched]

end

/-- No link is made where files alone are touched. -/
theorem ChangedWithin.noLinks
    (changed : tree.ChangedWithin touched left)
    (noLinks : tree.NoLinks)
    (files : ∀ place, touched place → ∃ file, tree.top.get? place = some (.file file)) :
    left.NoLinks := by
  intro place target link
  by_cases inside : touched place
  · obtain ⟨file, there⟩ := files place inside
    obtain ⟨bytes, thereNow⟩ := changed.top.keeps.file there
    simp [thereNow] at link
  · have same := changed.top.others place inside
    rw [Node.map_bare_eq_link_iff.2 link, eq_comm, Node.map_bare_eq_link_iff] at same
    exact noLinks place target same

theorem ChangedWithin.placeOf
    (changed : tree.ChangedWithin touched left) (path : Text) :
    left.placeOf path = tree.placeOf path := by
  rw [Tree.placeOf, Tree.placeOf, changed.startOf]

theorem ChangedWithin.setFile
    {old : File} (bytes : ByteArray)
    (there : tree.top.get? place = some (.file old)) :
    tree.ChangedWithin (· = place) (tree.setFile place ⟨bytes, old.mode⟩) :=
  ⟨Node.changedWithin_put bytes there, rfl⟩

/-- Another text for a regular file changes no more than its bytes. -/
theorem IsRegular.changedWithin
    {text : Text}
    (regular : tree.IsRegular (Path.normalize path) place file)
    (written : Upkeep.writeText tree (Path.normalize path) text = .ok left) :
    tree.ChangedWithin (· = place) left := by
  rw [regular.writeText, Except.ok.injEq] at written
  rw [← written]
  exact .setFile _ regular.get?_eq

theorem noNul_of_replaceFile
    {bytes : ByteArray}
    (replaced : tree.replaceFile path bytes = .ok left) :
    '\x00' ∉ path := by
  intro nul
  have nonempty : path ≠ [] := List.ne_nil_of_mem nul
  have lost : tree.locate false path = .error .nulInPath := by
    rw [locate, if_neg nonempty, if_pos nul]
  unfold replaceFile at replaced
  rw [lost] at replaced
  split at replaced
  · simp at replaced
  · simp at replaced
  · rw [if_neg nonempty] at replaced
    split at replaced
    · simp at replaced
    split at replaced <;> simp at replaced
  · simp at replaced

theorem noNul_of_writeText
    {text : Text}
    (written : Upkeep.writeText tree path text = .ok left) :
    '\x00' ∉ path := by
  cases replaced : tree.replaceFile path (encode text) with
  | error fault => simp [Upkeep.writeText, replaced, Except.mapError] at written
  | ok after => exact noNul_of_replaceFile replaced

/-- What is written to the file that a path names, or to a new one, changes nothing else. -/
theorem exists_changedWithin_of_writeThrough
    {change : ByteArray → ByteArray}
    (written : tree.writeThrough path change = .ok left) :
    ∃ place node? file, tree.locate true path = .ok ⟨place, node?⟩ ∧
      left.locate true path = .ok ⟨place, some (.file file)⟩ ∧
      tree.ChangedWithin (· = place) left := by
  unfold writeThrough at written
  cases located : tree.locate true path with
  | error fault => simp [located] at written
  | ok target =>
      obtain ⟨place, node?⟩ := target
      obtain ⟨nonempty, noNul, leads⟩ := locate_eq_ok_iff_leads.1 located
      have there := leads.node?_eq
      simp only [located] at written
      have still : ∀ file : File, tree.ChangedWithin (· = place) (tree.setFile place file) →
          (tree.top.put place (.file file)).get? place = some (.file file) →
          (tree.setFile place file).locate true path = .ok ⟨place, some (.file file)⟩ := by
        intro file changed put
        refine locate_eq_ok_iff_leads.2 ⟨nonempty, noNul, ?_⟩
        have leadsNow := leads.keeps changed.top.keeps (by simp [put])
        rwa [top_setFile, put] at leadsNow
      cases node? with
      | none =>
          simp only [Except.ok.injEq] at written
          subst written
          obtain ⟨folder, name, rfl, folderAt⟩ := leads.exists_folder_of_none
            (.inl (List.splitOn_ne_nil _ _)) rfl
          have changed : tree.ChangedWithin (· = folder ++ [name])
              (tree.setFile (folder ++ [name]) ⟨change .empty, publicMode⟩) :=
            ⟨Node.changedWithin_put_of_none _ folderAt there.symm, rfl⟩
          have put := Node.map_bare_get?_put_of_none folderAt there.symm
            ⟨change .empty, publicMode⟩ (folder ++ [name])
          rw [if_pos rfl, Node.map_bare_eq_file_iff] at put
          exact ⟨_, none, _, rfl, still _ changed put, changed⟩
      | some node =>
          cases node with
          | link text => simp at written
          | folder mode entries => simp at written
          | file file =>
              simp only [Except.ok.injEq] at written
              subst written
              have changed := ChangedWithin.setFile (change file.bytes) there.symm
              exact ⟨place, _, _, rfl,
                still _ changed (Node.get?_put_self (Node.leafAt_of_file there.symm)), changed⟩

end

end Tree

end Upkeep
