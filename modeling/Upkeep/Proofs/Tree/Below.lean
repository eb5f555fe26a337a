import Upkeep.Proofs.Tree.Walk
import Upkeep.Proofs.Tree.Write

/-!
Where the files that a walk lists are found.  Under the normal form of its path a listed file is
where its names lead from the folder of its project, if the path to this folder does not go up.
-/

namespace Upkeep

/-- Whether a part of a path leads nowhere. -/
def isIdle (part : Text) : Bool :=
  part == [] || part == ['.']

theorem isIdle_iff {part : Text} : isIdle part = true ↔ part = [] ∨ part = ['.'] := by
  simp [isIdle]

theorem map_text_filterMap_stepOf?
    {parts : List Text}
    (noSlash : ∀ part ∈ parts, '/' ∉ part) :
    (parts.filterMap Path.stepOf?).map Step.text = parts.filter fun part => !isIdle part := by
  induction parts with
  | nil => rfl
  | cons part rest inductionHypothesis =>
      rw [List.forall_mem_cons] at noSlash
      cases read : Path.stepOf? part with
      | none =>
          have idle : isIdle part = true := by
            rw [isIdle_iff]
            unfold Path.stepOf? at read
            split at read
            next idle => exact idle
            · split at read <;> simp at read
          rw [List.filterMap_cons_none read, inductionHypothesis noSlash.2,
            List.filter_cons_of_neg (by simp [idle])]
      | some step =>
          have text := (Path.proper_of_stepOf? noSlash.1 read).2
          have busy : isIdle part = false := by
            rw [Bool.eq_false_iff, ne_eq, isIdle_iff]
            intro idle
            rw [Path.stepOf?, if_pos idle] at read
            simp at read
          rw [List.filterMap_cons_some read, List.map_cons, text, inductionHypothesis noSlash.2,
            List.filter_cons_of_pos (by simp [busy])]

namespace Tree

variable {top : Node} {followLast : Bool} {links : Nat} {start root : Place}
  {parts front back rest : List Text} {target : Target}

/-- Where links at the end are followed, parts that lead nowhere can be left out. -/
theorem Leads.filter_back
    (leads : Leads top true links start parts target)
    (split : parts = front ++ back) :
    Leads top true links start (front ++ back.filter fun part => !isIdle part) target := by
  -- A link puts the parts of its target in front of those that are left out, and keeps its own.
  induction leads generalizing front back with
  | arrived =>
      obtain ⟨rfl, rfl⟩ := List.append_eq_nil_iff.1 split.symm
      exact .arrived
  | @stepped links place part rest target folder noEntry _ inductionHypothesis =>
      cases front with
      | cons first front =>
          obtain ⟨rfl, later⟩ := List.cons.inj split
          exact .stepped folder noEntry (inductionHypothesis later)
      | nil =>
          have further := inductionHypothesis (List.nil_append _).symm
          rw [List.nil_append] at split further ⊢
          subst split
          by_cases idle : isIdle part = true
          · rw [List.filter_cons_of_neg (by simp [idle])]
            rwa [enter, if_pos (isIdle_iff.1 idle)] at further
          · rw [List.filter_cons_of_pos (by simp [idle])]
            exact .stepped folder noEntry further
  | @missing links place part folder isEntry none_ =>
      cases front with
      | cons first front =>
          obtain ⟨rfl, later⟩ := List.cons.inj split
          obtain ⟨rfl, rfl⟩ := List.append_eq_nil_iff.1 later.symm
          exact .missing folder isEntry none_
      | nil =>
          rw [List.nil_append] at split ⊢
          subst split
          rw [List.filter_cons_of_pos (by simpa [isIdle] using isEntry.1)]
          exact .missing folder isEntry none_
  | ended _ _ last => simp at last
  | @entered links place part rest text target isEntry link _ _ inductionHypothesis =>
      cases front with
      | cons first front =>
          obtain ⟨rfl, rfl⟩ := List.cons.inj split
          have further := inductionHypothesis (List.append_assoc ..).symm
          rw [List.append_assoc] at further
          exact .entered isEntry link (.inr rfl) further
      | nil =>
          have further := inductionHypothesis rfl
          rw [List.nil_append] at split ⊢
          subst split
          rw [List.filter_cons_of_pos (by simpa [isIdle] using isEntry.1)]
          exact .entered isEntry link (.inr rfl) further
  | @went links place part rest node target isEntry there noLink _ inductionHypothesis =>
      cases front with
      | cons first front =>
          obtain ⟨rfl, later⟩ := List.cons.inj split
          exact .went isEntry there noLink (inductionHypothesis later)
      | nil =>
          have further := inductionHypothesis (List.nil_append _).symm
          rw [List.nil_append] at split further ⊢
          subst split
          rw [List.filter_cons_of_pos (by simpa [isIdle] using isEntry.1)]
          exact .went isEntry there noLink further

/-- A path to a folder can be continued below the folder. -/
theorem Leads.append
    (leads : Leads top true links start front ⟨root, top.get? root⟩)
    (folder : top.FolderAt root)
    (below : ∀ links, Leads top followLast links root rest target)
    (further : rest ≠ []) :
    Leads top followLast links start (front ++ rest) target := by
  generalize there : (⟨root, top.get? root⟩ : Target) = middle at leads
  induction leads with
  | arrived =>
      obtain ⟨rfl, _⟩ := Target.mk.inj there
      exact below _
  | stepped folderStart noEntry _ inductionHypothesis =>
      exact .stepped folderStart noEntry (inductionHypothesis there)
  | missing _ _ none_ =>
      obtain ⟨mode, entries, found⟩ := folder
      obtain ⟨rfl, missing⟩ := Target.mk.inj there
      simp [found] at missing
  | ended _ _ last => simp at last
  | entered isEntry link _ _ inductionHypothesis =>
      have inner := inductionHypothesis there
      rw [List.append_assoc] at inner
      exact .entered isEntry link (.inl (by simp [further])) inner
  | went isEntry present noLink _ inductionHypothesis =>
      exact .went isEntry present noLink (inductionHypothesis there)

/-- Names lead from a folder to the file below it. -/
theorem leads_of_names
    {content : File}
    (names : ∀ name ∈ rest, IsName name)
    (there : top.get? (root ++ rest) = some (.file content)) (links : Nat) :
    Leads top followLast links root rest ⟨root ++ rest, some (.file content)⟩ := by
  induction rest generalizing root with
  | nil =>
      rw [List.append_nil] at there ⊢
      rw [← there]
      exact .arrived
  | cons name rest inductionHypothesis =>
      rw [List.forall_mem_cons] at names
      obtain ⟨nonempty, notDot, notUp, _⟩ := names.1
      have isEntry : IsEntry name := ⟨by simp [nonempty, notDot], notUp⟩
      rw [List.append_cons] at there ⊢
      have further := inductionHypothesis names.2 there
      by_cases last : rest = []
      · subst last
        rw [List.append_nil] at there
        exact .went isEntry there (by simp) further
      · obtain ⟨mode, entries, folder⟩ := Node.folderAt_of_get?_append there last
        exact .went isEntry folder (by simp) further

/-- Under its normal form a path that goes on below a folder names the file there, if the path to
the folder does not go up. -/
theorem isRegular_of_below
    {tree : Tree} {folder path : Text} {mode : FolderMode} {entries : NameMap Node} {names : Place}
    {content : File}
    (located : tree.locate true folder = .ok ⟨root, some (.folder mode entries)⟩)
    (inside : .up ∉ (Path.route folder).steps)
    (areNames : ∀ name ∈ names, IsName name)
    (further : names ≠ [])
    (there : tree.top.get? (root ++ names) = some (.file content))
    (continued : path = names.foldl Path.join folder)
    (noNul : '\x00' ∉ Path.normalize path) :
    tree.IsRegular (Path.normalize path) (root ++ names) content := by
  obtain ⟨_, _, leads⟩ := locate_eq_ok_iff_leads.1 located
  have folderAt : tree.top.FolderAt root := ⟨mode, entries, leads.node?_eq.symm⟩
  have whole : (Path.route path).fold =
      ⟨Path.isAbsolute folder, (Path.route folder).steps ++ names.map .name⟩ := by
    rw [continued, Path.route_foldl_join areNames, Route.fold_of_up_notMem]
    simp [inside]
  have proper := whole ▸ (Path.proper_route path).fold
  have nonempty : (Path.route folder).steps ++ names.map Step.name ≠ [] := by simp [further]
  rw [Path.normalize, whole] at noNul ⊢
  refine locate_eq_ok_iff_leads.2 ⟨Route.path_ne_nil proper, noNul, ?_⟩
  rw [startOf, Route.isAbsolute_path proper, Route.splitOn_path proper,
    Route.parts_eq_frontParts nonempty, Route.frontParts, List.map_append, List.map_map,
    Path.route, map_text_filterMap_stepOf? fun part => separator_notMem_of_mem_splitOn]
  have texts : names.map (Step.text ∘ Step.name) = names := List.map_id names
  rw [texts]
  have reached : Leads tree.top true linkLimit (tree.startOf folder)
      ((folder.splitOn '/').filter fun part => !isIdle part) ⟨root, tree.top.get? root⟩ := by
    rw [← leads.node?_eq]
    exact leads.filter_back (List.nil_append _).symm
  have below : Leads tree.top false linkLimit (tree.startOf folder)
      (((folder.splitOn '/').filter fun part => !isIdle part) ++ names)
      ⟨root ++ names, some (.file content)⟩ :=
    reached.append folderAt (leads_of_names areNames there) further
  by_cases absolute : Path.isAbsolute folder = true
  · rw [startOf, if_pos absolute] at below
    rw [if_pos absolute, if_pos absolute]
    refine .stepped ?_ (fun isEntry => isEntry.1 (.inl rfl)) below
    have atTop : tree.top.get? ([] ++ (root ++ names)) = some (.file content) := there
    exact Node.folderAt_of_get?_append atTop (by simp [further])
  · rw [startOf, if_neg absolute] at below
    rw [if_neg absolute, if_neg absolute]
    exact below

end Tree

namespace Listing

variable {listing : Listing} {tree : Tree} {entry : ProjectFile} {place : Place}

/-- Whether a regular file with a listed extension is at a place below a project. -/
def FileAt (listing : Listing) (tree : Tree) (place : Place) : Prop :=
  ∃ project ∈ listing.projects, ∃ root mode entries names name content,
    tree.locate true (Path.join listing.base project) =
      .ok ⟨root, some (.folder mode entries)⟩ ∧
    place = root ++ names ∧
    names.getLast? = some name ∧
    HasExtension listing.extensions name ∧
    tree.top.get? place = some (.file content)

/-- Whether neither the base folder nor a project goes up. -/
def StaysInside (listing : Listing) : Prop :=
  ∀ folder, folder = listing.base ∨ folder ∈ listing.projects → ['.', '.'] ∉ folder.splitOn '/'

/-- A file that a walk lists is regular, and it is found under the normal form of its path. -/
theorem exists_isRegular_of_mem_walk
    (ordered : tree.top.Ordered)
    (named : tree.top.Named)
    (inside : listing.StaysInside)
    (listed : .ok entry ∈ listing.walk tree)
    (noNul : '\x00' ∉ Path.normalize entry.path) :
    ∃ place content, listing.FileAt tree place ∧
      tree.IsRegular (Path.normalize entry.path) place content := by
  obtain ⟨project, isProject, inProject⟩ := List.mem_flatMap.1 listed
  cases found : tree.node? (Path.join listing.base project) with
  | none => simp [walkProject, found] at inProject
  | some node =>
      cases node with
      | file content => simp [walkProject, found] at inProject
      | link target => simp [walkProject, found] at inProject
      | folder mode entries =>
          obtain ⟨root, located, there⟩ := tree.exists_located_of_node? found
          rw [walkProject_eq found, List.mem_filterMap] at inProject
          obtain ⟨⟨names, met⟩, member, picked⟩ := inProject
          have namedBelow := named.below there
          have tells := (mem_visited_item_iff (ordered.below there) namedBelow).1
            ⟨met, member, picked⟩
          obtain ⟨areNames, continued⟩ := tells.toldPath_eq namedBelow
          cases tells with
          | @file content _ reached last accepted =>
              have leafThere : tree.top.get? (root ++ names) = some (.file content) := by
                rw [Node.get?_append, there, Option.bind_some, reached.1]
              have some_ : names ≠ [] := by
                rintro rfl
                simp at last
              refine ⟨root ++ names, content, ?_, ?_⟩
              · exact ⟨project, isProject, root, mode, entries, names, _, _, located, rfl,
                  last, accepted, leafThere⟩
              · exact Tree.isRegular_of_below located
                  (Path.up_notMem_route_join (inside _ (.inl rfl)) (inside _ (.inr isProject)))
                  areNames some_ leafThere continued noNul

end Listing

end Upkeep
