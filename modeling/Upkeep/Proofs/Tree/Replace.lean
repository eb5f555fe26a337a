import Upkeep.Proofs.Tree.Entry

/-!
A file that takes the place of an entry.  Nothing else changes, and what the entry linked to stays.
A path that names the entry leads to the new file, unless it goes through the entry on its way
there: a link can lead to the folder that holds it, and where it was there is a file now.
-/

namespace Upkeep

namespace Node

variable {top new : Node} {folder place other : Place} {name : Text} {file : File}

/-- Whether a file is where no folder was, and nothing else differs. -/
structure Replaces (place : Place) (file : File) (top new : Node) : Prop where
  there : new.get? place = some (.file file)
  noFolder : ¬ top.FolderAt place
  others : ∀ other, other ≠ place → (new.get? other).map bare = (top.get? other).map bare

/-- A file replaces what it is put at, if that is an entry of a folder and no folder itself. -/
theorem replaces_put
    (folderAt : top.FolderAt folder)
    (noFolder : ¬ top.FolderAt (folder ++ [name])) (file : File) :
    Replaces (folder ++ [name]) file top (top.put (folder ++ [name]) (.file file)) := by
  have change : ∀ other, ((top.put (folder ++ [name]) (.file file)).get? other).map bare =
      if other = folder ++ [name] then some (.file file) else (top.get? other).map bare := by
    cases there : top.get? (folder ++ [name]) with
    | none => exact map_bare_get?_put_of_none folderAt there file
    | some node =>
        apply map_bare_get?_put
        refine ⟨node, there, ?_⟩
        rintro mode entries rfl
        exact noFolder ⟨mode, entries, there⟩
  refine ⟨?_, noFolder, ?_⟩
  · have here := change (folder ++ [name])
    rwa [if_pos rfl, map_bare_eq_file_iff] at here
  · intro other different
    rw [change, if_neg different]

namespace Replaces

theorem folderAt_iff
    (replaces : Replaces place file top new) :
    new.FolderAt other ↔ top.FolderAt other := by
  have bare_iff : ∀ {someTop : Node}, someTop.FolderAt other ↔
      ∃ mode, (someTop.get? other).map bare = some (.folder mode []) := by
    simp only [FolderAt, Option.map_eq_some_iff, bare_eq_folder_iff]
    grind
  by_cases same : other = place
  · subst same
    apply iff_of_false _ replaces.noFolder
    rintro ⟨mode, entries, found⟩
    simp [replaces.there] at found
  · rw [bare_iff, bare_iff, replaces.others other same]

theorem link_iff
    {text : Text}
    (replaces : Replaces place file top new)
    (different : other ≠ place) :
    new.get? other = some (.link text) ↔ top.get? other = some (.link text) := by
  rw [← map_bare_eq_link_iff, replaces.others other different, map_bare_eq_link_iff]

theorem none_iff
    (replaces : Replaces place file top new)
    (different : other ≠ place) :
    new.get? other = none ↔ top.get? other = none := by
  rw [← Option.map_eq_none_iff (f := bare), replaces.others other different,
    Option.map_eq_none_iff]

theorem noLink_iff
    (replaces : Replaces place file top new)
    (different : other ≠ place) :
    (∃ node, new.get? other = some node ∧ ∀ text, node ≠ .link text) ↔
      ∃ node, top.get? other = some node ∧ ∀ text, node ≠ .link text := by
  have apart : ∀ someTop : Node,
      (∃ node, someTop.get? other = some node ∧ ∀ text, node ≠ .link text) ↔
        someTop.get? other ≠ none ∧ ∀ text, someTop.get? other ≠ some (.link text) := by
    intro someTop
    cases someTop.get? other <;> simp
  simp only [apart, ne_eq, replaces.none_iff different, replaces.link_iff different]

theorem file_iff
    {old : File}
    (replaces : Replaces place file top new)
    (different : other ≠ place) :
    new.get? other = some (.file old) ↔ top.get? other = some (.file old) := by
  rw [← map_bare_eq_file_iff, replaces.others other different, map_bare_eq_file_iff]

end Replaces

end Node

namespace Tree

/-- Whether parts lead through the entry at a place and on from there. -/
inductive LeadsThrough (top : Node) (through : Place) : Place → List Text → Prop where
  | here {place part rest} :
      IsEntry part →
      place ++ [part] = through →
      rest ≠ [] →
      LeadsThrough top through place (part :: rest)
  | stepped {place part rest} :
      ¬ IsEntry part →
      LeadsThrough top through (enter place part) rest →
      LeadsThrough top through place (part :: rest)
  | entered {place part rest text} :
      IsEntry part →
      top.get? (place ++ [part]) = some (.link text) →
      rest ≠ [] →
      LeadsThrough top through (if Path.isAbsolute text then [] else place)
        (text.splitOn '/' ++ rest) →
      LeadsThrough top through place (part :: rest)
  | went {place part rest node} :
      IsEntry part →
      top.get? (place ++ [part]) = some node →
      (∀ text, node ≠ .link text) →
      LeadsThrough top through (place ++ [part]) rest →
      LeadsThrough top through place (part :: rest)

variable {top new : Node} {followLast : Bool} {links : Nat} {start place : Place}
  {parts rest : List Text} {part : Text} {target : Target} {file : File}

theorem Leads.folderAt_of_ne_nil
    (leads : Leads top followLast links start parts target)
    (further : parts ≠ []) :
    top.FolderAt start := by
  cases leads with
  | arrived => exact absurd rfl further
  | stepped folder => exact folder
  | missing folder => exact folder
  | ended _ link => exact Node.folderAt_of_get?_append link (by simp)
  | entered _ link => exact Node.folderAt_of_get?_append link (by simp)
  | went _ there => exact Node.folderAt_of_get?_append there (by simp)

/-- Nothing leads on from a file. -/
theorem not_leads_behind_file
    (there : top.get? (start ++ [part]) = some (.file file))
    (isEntry : IsEntry part)
    (further : rest ≠ []) :
    ¬ Leads top followLast links start (part :: rest) target := by
  intro leads
  cases leads with
  | stepped _ noEntry => exact noEntry isEntry
  | missing => exact further rfl
  | ended => exact further rfl
  | entered _ link => simp [there] at link
  | went _ _ _ leads =>
      exact (Node.leafAt_of_file there).not_folderAt (leads.folderAt_of_ne_nil further)

theorem leads_file
    (there : top.get? (start ++ [part]) = some (.file file))
    (isEntry : IsEntry part) (links : Nat) :
    Leads top false links start [part] ⟨start ++ [part], some (.file file)⟩ := by
  have folderAt := Node.folderAt_of_get?_append there (by simp)
  have leads := leads_entry folderAt isEntry links
  rwa [there] at leads

/-- Parts that lead to an entry lead to the file that replaces it, if they do not lead through the
entry before. -/
theorem Leads.replaces
    (leads : Leads top false links start parts target)
    (replaces : Node.Replaces target.place file top new)
    (notThrough : ¬ LeadsThrough top target.place start parts) :
    Leads new false links start parts ⟨target.place, some (.file file)⟩ := by
  induction leads with
  | arrived =>
      rw [← replaces.there]
      exact .arrived
  | stepped folder noEntry _ inductionHypothesis =>
      exact .stepped (replaces.folderAt_iff.2 folder) noEntry
        (inductionHypothesis replaces fun through => notThrough (.stepped noEntry through))
  | missing _ isEntry => exact leads_file replaces.there isEntry _
  | ended isEntry => exact leads_file replaces.there isEntry _
  | @entered links place part rest text target isEntry link further _ inductionHypothesis =>
      have more : rest ≠ [] := by simpa using further
      by_cases same : place ++ [part] = target.place
      · exact absurd (.here isEntry same more) notThrough
      · exact .entered isEntry ((replaces.link_iff same).2 link) further
          (inductionHypothesis replaces fun through =>
            notThrough (.entered isEntry link more through))
  | @went links place part rest node target isEntry there noLink _ inductionHypothesis =>
      by_cases same : place ++ [part] = target.place
      · by_cases last : rest = []
        · subst last
          rw [← same] at replaces ⊢
          exact leads_file replaces.there isEntry links
        · exact absurd (.here isEntry same last) notThrough
      · obtain ⟨other, still, stillNoLink⟩ := (replaces.noLink_iff same).2 ⟨node, there, noLink⟩
        exact .went isEntry still stillNoLink
          (inductionHypothesis replaces fun through =>
            notThrough (.went isEntry there noLink through))

/-- Where a file replaces an entry, no parts lead on that lead through the entry. -/
theorem LeadsThrough.not_leads
    (through : LeadsThrough top place start parts)
    (replaces : Node.Replaces place file top new) :
    ¬ Leads new followLast links start parts target := by
  induction through generalizing links with
  | here isEntry same further =>
      subst same
      exact not_leads_behind_file replaces.there isEntry further
  | stepped noEntry _ inductionHypothesis =>
      intro leads
      cases leads with
      | stepped _ _ leads => exact inductionHypothesis leads
      | missing _ isEntry => exact noEntry isEntry
      | ended isEntry => exact noEntry isEntry
      | entered isEntry => exact noEntry isEntry
      | went isEntry => exact noEntry isEntry
  | @entered start part rest text isEntry link further _ inductionHypothesis =>
      by_cases same : start ++ [part] = place
      · subst same
        exact not_leads_behind_file replaces.there isEntry further
      have stillLink := (replaces.link_iff same).2 link
      intro leads
      cases leads with
      | stepped _ noEntry => exact noEntry isEntry
      | missing => exact further rfl
      | ended => exact further rfl
      | entered _ found _ leads =>
          rw [stillLink, Option.some.injEq, Node.link.injEq] at found
          subst found
          exact inductionHypothesis leads
      | went _ found noLink =>
          rw [stillLink, Option.some.injEq] at found
          exact noLink text found.symm
  | @went start part rest node isEntry there noLink through inductionHypothesis =>
      by_cases same : start ++ [part] = place
      · subst same
        apply not_leads_behind_file replaces.there isEntry
        rintro rfl
        cases through
      have stillNoLink : ∀ text, new.get? (start ++ [part]) ≠ some (.link text) := by
        intro text link
        rw [replaces.link_iff same, there, Option.some.injEq] at link
        exact noLink text link
      intro leads
      cases leads with
      | stepped _ noEntry => exact noEntry isEntry
      | missing _ _ none_ =>
          rw [replaces.none_iff same, there] at none_
          simp at none_
      | ended _ link => exact stillNoLink _ link
      | entered _ link => exact stillNoLink _ link
      | went _ _ _ leads => exact inductionHypothesis leads

/-- Whether a path leads through the entry at a place and on from there. -/
def GoesThrough (tree : Tree) (path : Text) (place : Place) : Prop :=
  LeadsThrough tree.top place (tree.startOf path) (path.splitOn '/')

variable {tree left : Tree} {path name : Text} {folder : Place} {bytes : ByteArray}

/-- Under a path that names an entry, the new file is where the path leads exactly if the path does
not go through the entry. -/
theorem NamesEntry.isRegular_setFile_iff
    (names : tree.NamesEntry path folder name)
    (noFolder : ¬ tree.top.FolderAt (folder ++ [name])) :
    (tree.setFile (folder ++ [name]) file).IsRegular path (folder ++ [name]) file ↔
      ¬ tree.GoesThrough path (folder ++ [name]) := by
  have replaces := Node.replaces_put names.folderAt noFolder file
  obtain ⟨nonempty, noNul, leads⟩ := locate_eq_ok_iff_leads.1 names.locate
  rw [IsRegular, locate_eq_ok_iff_leads]
  constructor
  · rintro ⟨_, _, leadsNow⟩ through
    exact LeadsThrough.not_leads through replaces leadsNow
  · intro notThrough
    exact ⟨nonempty, noNul, leads.replaces replaces notThrough⟩

/-- What a link led to stays when a file takes the place of the link. -/
theorem NamesEntry.get?_setFile_linked
    {text : Text} {linked : Place} {old : File}
    (names : tree.NamesEntry path folder name)
    (link : tree.top.get? (folder ++ [name]) = some (.link text))
    (located : tree.locate true path = .ok ⟨linked, some (.file old)⟩) :
    (tree.setFile (folder ++ [name]) file).top.get? linked = some (.file old) := by
  have there := (locate_eq_ok_iff_leads.1 located).2.2.node?_eq
  have replaces := Node.replaces_put names.folderAt (Node.leafAt_of_link link).not_folderAt file
  have elsewhere : linked ≠ folder ++ [name] := by
    rintro rfl
    simp [link] at there
  exact (replaces.file_iff elsewhere).2 there.symm

end Tree

end Upkeep
