import Upkeep.Proofs.Tree.Leads
import Upkeep.Proofs.Tree.Order
import Upkeep.Proofs.Tree.Read

/-!
Writing to a file that is there.  Under its normal path a file can always be
written; it then holds the new text, with its old permissions, and no other file
changes.  A link to a file gives way to a file of its own.
-/

namespace Upkeep

theorem mem_iff_mem_part
    {text : Text} (separator : Char) {c : Char}
    (other : c ≠ separator) :
    c ∈ text ↔ ∃ part ∈ text.splitOn separator, c ∈ part := by
  induction text with
  | nil => simp
  | cons first rest inductionHypothesis =>
      rw [List.splitOn_cons_eq_if_modifyHead]
      split
      next same =>
        have ne : c ≠ first := by
          rintro rfl
          exact other (by simpa using same)
        simp [ne, inductionHypothesis]
      next different =>
        cases pieces : rest.splitOn separator with
        | nil => exact absurd pieces (List.splitOn_ne_nil _ _)
        | cons piece pieces_ =>
            rw [pieces] at inductionHypothesis
            simp only [List.mem_cons, inductionHypothesis, List.modifyHead_cons,
              exists_eq_or_imp, or_assoc]

namespace Tree

variable {tree : Tree} {route : Route} {file : File} {place : Place}

/-- A route to a file or a link is a route to a folder and a name. -/
theorem NamesLeaf.exists_folder
    (proper : route.Proper)
    (names : tree.NamesLeaf route.path place) :
    ∃ steps name, route.steps = steps ++ [.name name] ∧
      ∃ folderPlace, tree.top.FolderAt folderPlace ∧
        Leads tree.top true linkLimit (if route.absolute then [] else tree.workingDir)
          (Route.frontParts route.absolute steps) ⟨folderPlace, tree.top.get? folderPlace⟩ := by
  obtain ⟨_, _, leads⟩ := locate_eq_ok_iff_leads.1 names.located
  rw [startOf, Route.isAbsolute_path proper, Route.splitOn_path proper] at leads
  obtain ⟨absolute, steps⟩ := route
  rcases List.eq_nil_or_concat steps with empty | ⟨front, last, ends⟩
  · -- an empty route has no entry for its last part
    subst empty
    cases absolute with
    | true => exact absurd (.inl rfl) (Leads.isEntry [[]] [] leads names.leaf).1
    | false => exact absurd (.inr rfl) (Leads.isEntry [] ['.'] leads names.leaf).1
  · rw [List.concat_eq_append] at ends
    subst ends
    rw [Route.parts_concat] at leads
    have isEntry := leads.isEntry _ _ names.leaf
    obtain ⟨folderPlace, leads, folder⟩ := leads.front _ (by simp)
    cases last with
    | up => exact absurd rfl isEntry.2
    | name name => exact ⟨front, name, rfl, folderPlace, folder, leads⟩

/-- Before other parts are followed from a folder, an empty part or a dot leads nowhere. -/
theorem Leads.stay
    {top : Node} {followLast : Bool} {links : Nat} {start : Place} {parts : List Text}
    {target : Target} {part : Text}
    (stays : part = [] ∨ part = ['.'])
    (folder : top.FolderAt start)
    (leads : Leads top followLast links start parts target) :
    Leads top followLast links start (part :: parts) target := by
  refine .stepped folder (fun isEntry => isEntry.1 stays) ?_
  rwa [enter, if_pos stays]

/-- A path to a folder leads there as well with an empty part or a dot put into it. -/
theorem Leads.insert
    {top : Node} {links : Nat} {start : Place} {parts front back : List Text} {target : Target}
    {part : Text}
    (stays : part = [] ∨ part = ['.'])
    (leads : Leads top true links start parts target)
    (split : parts = front ++ back)
    (folder : top.FolderAt target.place) :
    Leads top true links start (front ++ part :: back) target := by
  -- The part is put in front of what is left, or further on, behind what a link puts there.
  induction leads generalizing front with
  | arrived =>
      obtain ⟨rfl, rfl⟩ := List.append_eq_nil_iff.1 split.symm
      exact .stay stays folder .arrived
  | stepped folderStart noEntry leads inductionHypothesis =>
      cases front with
      | nil =>
          rw [List.nil_append] at split
          subst split
          exact .stay stays folderStart (.stepped folderStart noEntry leads)
      | cons first front =>
          obtain ⟨rfl, later⟩ := List.cons.inj split
          exact .stepped folderStart noEntry (inductionHypothesis later folder)
  | missing _ _ none_ =>
      obtain ⟨mode, entries, found⟩ := folder
      simp [none_] at found
  | ended _ link =>
      obtain ⟨mode, entries, found⟩ := folder
      simp [link] at found
  | entered isEntry link further leads inductionHypothesis =>
      cases front with
      | nil =>
          rw [List.nil_append] at split
          subst split
          exact .stay stays (Node.folderAt_of_get?_append link (by simp))
            (.entered isEntry link further leads)
      | cons first front =>
          obtain ⟨rfl, rfl⟩ := List.cons.inj split
          have inner := inductionHypothesis (List.append_assoc ..).symm folder
          rw [List.append_assoc] at inner
          exact .entered isEntry link (.inr rfl) inner
  | went isEntry there noLink leads inductionHypothesis =>
      cases front with
      | nil =>
          rw [List.nil_append] at split
          subst split
          exact .stay stays (Node.folderAt_of_get?_append there (by simp))
            (.went isEntry there noLink leads)
      | cons first front =>
          obtain ⟨rfl, later⟩ := List.cons.inj split
          exact .went isEntry there noLink (inductionHypothesis later folder)

theorem leads_parts
    {top : Node} {start : Place} {target : Target} {absolute : Bool} {steps : List Step}
    (leads : Leads top true linkLimit start (Route.frontParts absolute steps) target)
    (folder : top.FolderAt target.place) :
    Leads top true linkLimit start (Route.parts ⟨absolute, steps⟩) target := by
  by_cases empty : steps = []
  · subst empty
    cases absolute with
    | true => exact leads.insert (.inl rfl) (List.append_nil _).symm folder
    | false => exact leads.insert (.inr rfl) (List.append_nil _).symm folder
  · rwa [Route.parts_eq_frontParts empty]

theorem NamesLeaf.locate_folder
    (proper : route.Proper)
    (names : tree.NamesLeaf route.path place) :
    ∃ place mode entries,
      tree.locate true (Path.folder route.path) = .ok ⟨place, some (.folder mode entries)⟩ := by
  obtain ⟨steps, name, ends, folderPlace, folder, leads⟩ := names.exists_folder proper
  obtain ⟨_, noNul, _⟩ := locate_eq_ok_iff_leads.1 names.located
  rw [mem_iff_mem_part '/' (by decide), Route.splitOn_path proper] at noNul
  obtain ⟨absolute, allSteps⟩ := route
  subst ends
  rw [Route.parts_concat] at noNul
  have frontProper : Route.Proper ⟨absolute, steps⟩ := fun step member =>
    proper step (List.mem_append_left _ member)
  obtain ⟨mode, entries, found⟩ := folder
  refine ⟨folderPlace, mode, entries, ?_⟩
  rw [Route.folder_path proper, locate_eq_ok_iff_leads, startOf, Route.isAbsolute_path frontProper,
    mem_iff_mem_part '/' (by decide), Route.splitOn_path frontProper, ← found]
  refine ⟨Route.path_ne_nil frontProper, ?_, ?_⟩
  · rintro ⟨part, member, nul⟩
    by_cases empty : steps = []
    · subst empty
      cases absolute with
      | true => simp_all [Route.parts]
      | false => simp_all [Route.parts]
    · rw [Route.parts_eq_frontParts empty] at member
      exact noNul ⟨part, List.mem_append_left _ member, nul⟩
  · exact leads_parts leads ⟨mode, entries, found⟩

/-- A path whose last part names an entry ends in a name, and in no slash. -/
theorem endsInName_of_splitOn
    {path name : Text} {front : List Text}
    (split : path.splitOn '/' = front ++ [name])
    (isEntry : IsEntry name) :
    endsInName path = true ∧ path.getLast? ≠ some '/' := by
  obtain ⟨notIdle, notUp⟩ := isEntry
  rw [not_or] at notIdle
  constructor
  · rw [endsInName, split, List.filter_append]
    simp [notIdle, notUp]
  · intro ends
    obtain ⟨before, rfl⟩ := List.getLast?_eq_some_iff.1 ends
    rw [List.splitOn_append_cons_self, List.splitOn_nil] at split
    exact notIdle.1 (List.append_inj_right' split rfl |> List.cons.inj |>.1).symm

theorem endsInName_path
    {absolute : Bool} {steps : List Step} {name : Text}
    (proper : Route.Proper ⟨absolute, steps ++ [.name name]⟩) :
    endsInName (Route.path ⟨absolute, steps ++ [.name name]⟩) = true ∧
      (Route.path ⟨absolute, steps ++ [.name name]⟩).getLast? ≠ some '/' := by
  obtain ⟨nonempty, notDot, notUp, _⟩ : IsName name :=
    proper (.name name) (List.mem_append_right _ List.mem_cons_self)
  have split := Route.splitOn_path proper
  rw [Route.parts_concat] at split
  exact endsInName_of_splitOn split ⟨not_or.2 ⟨nonempty, notDot⟩, notUp⟩

/-- A file or a link is replaced in its place, and the new file has the permissions of
the file that the path named. -/
theorem NamesLeaf.replaceFile
    (proper : route.Proper)
    (names : tree.NamesLeaf route.path place)
    (named : tree.file? route.path = some file)
    (bytes : ByteArray) :
    tree.replaceFile route.path bytes = .ok (tree.setFile place ⟨bytes, file.mode⟩) := by
  obtain ⟨folderPlace, folderMode, entries, folder⟩ := names.locate_folder proper
  obtain ⟨steps, name, ends, _⟩ := names.exists_folder proper
  have nonempty := (locate_eq_ok_iff_leads.1 names.located).1
  have mode : tree.mode? route.path = some file.mode := by
    obtain ⟨filePlace, located⟩ := file?_eq_some_iff_locate.1 named
    rw [mode?, node?, located]
    rfl
  have endsWell : endsInName route.path = true ∧ route.path.getLast? ≠ some '/' := by
    obtain ⟨absolute, allSteps⟩ := route
    subst ends
    exact endsInName_path proper
  obtain ⟨node, there, noFolder⟩ := names.leaf
  have located := names.located
  rw [there] at located
  rw [Tree.replaceFile, folder]
  cases node with
  | folder mode entries => exact absurd rfl (noFolder mode entries)
  | file old => simp [nonempty, endsWell, located, mode]
  | link text => simp [nonempty, endsWell, located, mode]

/-- The text of a file can be exchanged under its normal path, at the end of which a
link can be. -/
theorem NamesLeaf.writeText
    {path : Text}
    (names : tree.NamesLeaf (Path.normalize path) place)
    (named : tree.file? (Path.normalize path) = some file) (text : Text) :
    Upkeep.writeText tree (Path.normalize path) text =
      .ok (tree.setFile place ⟨encode text, file.mode⟩) := by
  rw [Upkeep.writeText, Path.normalize,
    NamesLeaf.replaceFile (Path.proper_route path).fold names named]
  rfl

theorem IsRegular.writeText
    {path : Text}
    (regular : tree.IsRegular (Path.normalize path) place file) (text : Text) :
    Upkeep.writeText tree (Path.normalize path) text =
      .ok (tree.setFile place ⟨encode text, file.mode⟩) :=
  regular.namesLeaf.writeText regular.file?_eq text

/-- A tree in which the file at a place holds another text. -/
def withText (tree : Tree) (place : Place) (mode : Nat) (text : Text) : Tree :=
  tree.setFile place ⟨encode text, mode⟩

/-- Whether what is written under a path is put at a place. -/
structure Rewritable (tree : Tree) (path : Text) (place : Place) (mode : Nat) : Prop where
  write : ∀ text, writeText tree path text = .ok (tree.withText place mode text)
  regular : ∀ text, (tree.withText place mode text).IsRegular path place ⟨encode text, mode⟩
  leaf : tree.top.LeafAt place

section

variable {path text : Text} {mode : Nat}

theorem exists_rewritable
    (named : tree.file? (Path.normalize path) = some file) :
    ∃ place, tree.Rewritable (Path.normalize path) place file.mode := by
  obtain ⟨place, names, regular⟩ := exists_namesLeaf named
  exact ⟨place, names.writeText named, fun text => regular ⟨encode text, file.mode⟩, names.leaf⟩

theorem Rewritable.withText_eq_self
    {otherPlace : Place} {otherMode : Nat}
    (rewritable : tree.Rewritable (Path.normalize path) place mode)
    (ordered : tree.top.Ordered)
    (regular : tree.IsRegular (Path.normalize path) otherPlace ⟨encode text, otherMode⟩) :
    tree.withText place mode text = tree := by
  have written := rewritable.write text
  rw [regular.writeText, Except.ok.injEq, setFile_of_get? ordered regular.get?_eq] at written
  exact written.symm

theorem Rewritable.readText_withText
    (rewritable : tree.Rewritable path place mode) (text : Text) :
    (tree.withText place mode text).readText path = .ok text :=
  readText_eq_ok_iff.2 ⟨mode, (rewritable.regular text).file?_eq⟩

theorem Rewritable.writeText_withText
    (rewritable : tree.Rewritable (Path.normalize path) place mode) (text new : Text) :
    Upkeep.writeText (tree.withText place mode text) (Path.normalize path) new =
      .ok (tree.withText place mode new) := by
  rw [(rewritable.regular text).writeText]
  unfold withText
  rw [setFile_setFile rewritable.leaf]

end

end Tree

end Upkeep
