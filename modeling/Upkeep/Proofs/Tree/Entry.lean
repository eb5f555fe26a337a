import Upkeep.Proofs.Tree.Change
import Upkeep.Proofs.Tree.Normal

/-!
The entry that a path names, which a new file can take the place of.  A path names an entry if it
ends in a name and what stands before the name leads to a folder.  A file is replaced exactly if the
path names an entry and the entry is no folder.
-/

namespace Upkeep

namespace Tree

/-- A path that ends in a name, and in no slash, names an entry with its last part. -/
theorem exists_splitOn_of_endsInName
    {path : Text}
    (named : endsInName path = true)
    (noSlash : path.getLast? ≠ some '/') :
    ∃ front name, path.splitOn '/' = front ++ [name] ∧ IsEntry name := by
  have split : ∃ front name, path.splitOn '/' = front ++ [name] ∧ name ≠ [] := by
    by_cases slash : '/' ∈ path
    · obtain ⟨behind, before, reversed, other⟩ :=
        List.eq_append_cons_of_mem (List.mem_reverse.2 slash)
      have written : path = before.reverse ++ '/' :: behind.reverse := by
        rw [← List.reverse_reverse path, reversed]
        simp
      refine ⟨before.reverse.splitOn '/', behind.reverse, ?_, ?_⟩
      · rw [written, List.splitOn_append_cons_self,
          List.splitOn_eq_singleton (fun member => other (List.mem_reverse.1 member))]
      · intro nothing
        rw [nothing] at written
        exact noSlash (List.getLast?_eq_some_iff.2 ⟨_, written⟩)
    · refine ⟨[], path, List.splitOn_eq_singleton slash, ?_⟩
      rintro rfl
      simp [endsInName] at named
  obtain ⟨front, name, parts, nonempty⟩ := split
  refine ⟨front, name, parts, ?_⟩
  rw [endsInName, parts, List.filter_append] at named
  simpa [IsEntry, nonempty] using named

/-- Whether a path names an entry of a folder, be it there or not. -/
structure NamesEntry (tree : Tree) (path : Text) (folder : Place) (name : Text) : Prop where
  located : ∃ mode entries,
    tree.locate true (Path.folder path) = .ok ⟨folder, some (.folder mode entries)⟩
  ends : ∃ front, path.splitOn '/' = front ++ [name]
  isEntry : IsEntry name
  noNul : '\x00' ∉ path

variable {tree : Tree} {top : Node} {followLast : Bool} {links : Nat} {start folder : Place}
  {parts front back : List Text} {path name : Text} {target : Target}

/-- Parts that lead nowhere can be put back on the way to a folder. -/
theorem Leads.of_filter_back
    (leads : Leads top true links start (front ++ back.filter fun part => !isIdle part) target)
    (folder : top.FolderAt target.place) :
    Leads top true links start (front ++ back) target := by
  induction back generalizing front with
  | nil => exact leads
  | cons part back inductionHypothesis =>
      rw [List.append_cons]
      apply inductionHypothesis
      rw [← List.append_cons]
      by_cases idle : isIdle part = true
      · rw [List.filter_cons_of_neg (by simp [idle])] at leads
        exact leads.insert (isIdle_iff.1 idle) rfl folder
      · rwa [List.filter_cons_of_pos (by simp [idle])] at leads

/-- A name leads from a folder to the entry, links at the end not followed. -/
theorem leads_entry
    (folderAt : top.FolderAt folder)
    (isEntry : IsEntry name) (links : Nat) :
    Leads top false links folder [name] ⟨folder ++ [name], top.get? (folder ++ [name])⟩ := by
  cases there : top.get? (folder ++ [name]) with
  | none => exact .missing folderAt isEntry there
  | some node =>
      have arrived : Leads top false links (folder ++ [name]) []
          ⟨folder ++ [name], top.get? (folder ++ [name])⟩ := .arrived
      rw [there] at arrived
      cases node with
      | link text => exact .ended isEntry there rfl
      | file file => exact .went isEntry there (by simp) arrived
      | folder mode entries => exact .went isEntry there (by simp) arrived

namespace NamesEntry

theorem nonempty
    (names : tree.NamesEntry path folder name) :
    path ≠ [] := by
  rintro rfl
  obtain ⟨front, split⟩ := names.ends
  rw [List.splitOn_nil, ← List.nil_append [[]]] at split
  exact names.isEntry.1 (.inl (List.append_inj_right' split rfl |> List.cons.inj |>.1).symm)

theorem folderAt
    (names : tree.NamesEntry path folder name) :
    tree.top.FolderAt folder := by
  obtain ⟨mode, entries, located⟩ := names.located
  exact ⟨mode, entries, (locate_eq_ok_iff_leads.1 located).2.2.node?_eq.symm⟩

theorem folder_eq
    (names : tree.NamesEntry path folder name)
    (split : path.splitOn '/' = front ++ [name]) :
    Route.Proper ⟨Path.isAbsolute path, front.filterMap Path.stepOf?⟩ ∧
      Path.folder path = Route.path ⟨Path.isAbsolute path, front.filterMap Path.stepOf?⟩ := by
  have step : Path.stepOf? name = some (.name name) := by
    rw [Path.stepOf?, if_neg names.isEntry.1, if_neg names.isEntry.2]
  have read : Path.route path =
      ⟨Path.isAbsolute path, front.filterMap Path.stepOf? ++ [.name name]⟩ := by
    rw [Path.route, split, List.filterMap_append, List.filterMap_cons_some step,
      List.filterMap_nil]
  have proper := Path.proper_route path
  rw [read] at proper
  have frontProper : Route.Proper ⟨Path.isAbsolute path, front.filterMap Path.stepOf?⟩ :=
    fun step member => proper step (List.mem_append_left _ member)
  exact ⟨frontProper, Route.folder_eq frontProper read⟩

/-- What stands before the name leads to the folder. -/
theorem leads_front
    (names : tree.NamesEntry path folder name)
    (split : path.splitOn '/' = front ++ [name]) :
    Leads tree.top true linkLimit (tree.startOf path) front ⟨folder, tree.top.get? folder⟩ := by
  obtain ⟨mode, entries, located⟩ := names.located
  obtain ⟨proper, written⟩ := names.folder_eq split
  obtain ⟨_, _, leads⟩ := locate_eq_ok_iff_leads.1 located
  have noSlash : ∀ part ∈ front, '/' ∉ part := by
    intro part member
    have isPart : part ∈ path.splitOn '/' := by
      rw [split]
      exact List.mem_append_left _ member
    exact separator_notMem_of_mem_splitOn isPart
  have sameParts : ((Path.folder path).splitOn '/').filter (fun part => !isIdle part) =
      front.filter fun part => !isIdle part := by
    rw [← Path.map_text_steps_route, written, Route.route_path proper,
      map_text_filterMap_stepOf? noSlash]
  have start : tree.startOf (Path.folder path) = tree.startOf path := by
    rw [startOf, startOf, written, Route.isAbsolute_path proper]
  have filtered := leads.filter_back (List.nil_append _).symm
  have there : some (.folder mode entries) = tree.top.get? folder := leads.node?_eq
  rw [sameParts, start, there] at filtered
  exact filtered.of_filter_back names.folderAt

/-- A path that names an entry leads there, links at the end not followed. -/
theorem locate
    (names : tree.NamesEntry path folder name) :
    tree.locate false path = .ok ⟨folder ++ [name], tree.top.get? (folder ++ [name])⟩ := by
  obtain ⟨front, split⟩ := names.ends
  refine locate_eq_ok_iff_leads.2 ⟨names.nonempty, names.noNul, ?_⟩
  rw [split]
  exact (names.leads_front split).append names.folderAt (leads_entry names.folderAt names.isEntry)
    (by simp)

end NamesEntry

theorem namesEntry_of_located
    {mode : FolderMode} {entries : NameMap Node}
    (located : tree.locate true (Path.folder path) = .ok ⟨folder, some (.folder mode entries)⟩)
    (named : endsInName path = true)
    (noSlash : path.getLast? ≠ some '/')
    (noNul : '\x00' ∉ path) :
    ∃ name, tree.NamesEntry path folder name := by
  obtain ⟨front, name, split, isEntry⟩ := exists_splitOn_of_endsInName named noSlash
  exact ⟨name, ⟨mode, entries, located⟩, ⟨front, split⟩, isEntry, noNul⟩

theorem exists_namesEntry_of_replaceFile
    {bytes : ByteArray} {left : Tree}
    (replaced : tree.replaceFile path bytes = .ok left) :
    ∃ folder name, tree.NamesEntry path folder name := by
  have noNul := noNul_of_replaceFile replaced
  unfold replaceFile at replaced
  split at replaced
  · simp at replaced
  · simp at replaced
  next folder mode entries located =>
    split at replaced
    · simp at replaced
    split at replaced
    · simp at replaced
    next named =>
      split at replaced
      · simp at replaced
      next noSlash =>
        exact ⟨folder, namesEntry_of_located located (by simpa using named) noSlash noNul⟩
  · simp at replaced

/-- Put something where a path leads, in place of what is there.  The path has to end in a name, a
link at its end is not followed, and no folder gives way. -/
def atEntry (tree : Tree) (path : Text) (put : Place → Except Fault Tree) : Except Fault Tree :=
  if path = [] then .error .notFound
  else if !endsInName path then .error .busy
  else if path.getLast? = some '/' then .error .notADirectory
  else
    match tree.locate false path with
    | .error fault => .error fault
    | .ok ⟨_, some (.folder ..)⟩ => .error .isADirectory
    | .ok ⟨place, _⟩ => put place

theorem replaceFile_eq_atEntry
    {mode : FolderMode} {entries : NameMap Node}
    (located : tree.locate true (Path.folder path) = .ok ⟨folder, some (.folder mode entries)⟩)
    (bytes : ByteArray) :
    tree.replaceFile path bytes = tree.atEntry path fun place =>
      .ok (tree.setFile place ⟨bytes, (tree.mode? path).getD privateMode⟩) := by
  rw [replaceFile, located]
  rfl

theorem NamesEntry.atEntry_of_folderAt
    (names : tree.NamesEntry path folder name)
    (folderAt : tree.top.FolderAt (folder ++ [name])) (put : Place → Except Fault Tree) :
    tree.atEntry path put = .error .isADirectory := by
  obtain ⟨front, split⟩ := names.ends
  obtain ⟨named, noSlash⟩ := endsInName_of_splitOn split names.isEntry
  obtain ⟨mode, entries, there⟩ := folderAt
  have located := names.locate
  rw [there] at located
  simp only [atEntry, if_neg names.nonempty, named, if_neg noSlash, located]
  rfl

theorem NamesEntry.atEntry_of_not_folderAt
    (names : tree.NamesEntry path folder name)
    (noFolder : ¬ tree.top.FolderAt (folder ++ [name])) (put : Place → Except Fault Tree) :
    tree.atEntry path put = put (folder ++ [name]) := by
  obtain ⟨front, split⟩ := names.ends
  obtain ⟨named, noSlash⟩ := endsInName_of_splitOn split names.isEntry
  simp only [atEntry, if_neg names.nonempty, named, if_neg noSlash, names.locate]
  cases there : tree.top.get? (folder ++ [name]) with
  | none => rfl
  | some node =>
      cases node with
      | folder mode entries => exact absurd ⟨mode, entries, there⟩ noFolder
      | file old => rfl
      | link text => rfl

/-- A file is replaced exactly if the path names an entry that is no folder; it takes the place of
the entry, with the permissions of what the path led to. -/
theorem replaceFile_eq_ok_iff
    {bytes : ByteArray} {left : Tree} :
    tree.replaceFile path bytes = .ok left ↔
      ∃ folder name, tree.NamesEntry path folder name ∧
        ¬ tree.top.FolderAt (folder ++ [name]) ∧
        left = tree.setFile (folder ++ [name]) ⟨bytes, (tree.mode? path).getD privateMode⟩ := by
  have replaced_iff : ∀ {folder name}, tree.NamesEntry path folder name →
      (tree.replaceFile path bytes = .ok left ↔
        ¬ tree.top.FolderAt (folder ++ [name]) ∧
        left = tree.setFile (folder ++ [name])
          ⟨bytes, (tree.mode? path).getD privateMode⟩) := by
    intro folder name names
    obtain ⟨mode, entries, located⟩ := names.located
    rw [replaceFile_eq_atEntry located]
    by_cases folderAt : tree.top.FolderAt (folder ++ [name])
    · simp [names.atEntry_of_folderAt folderAt, folderAt]
    · simp [names.atEntry_of_not_folderAt folderAt, folderAt, eq_comm]
  constructor
  · intro replaced
    obtain ⟨folder, name, names⟩ := exists_namesEntry_of_replaceFile replaced
    exact ⟨folder, name, names, (replaced_iff names).1 replaced⟩
  · rintro ⟨folder, name, names, written⟩
    exact (replaced_iff names).2 written

end Tree

end Upkeep
