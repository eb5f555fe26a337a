import Upkeep.Proofs.Tree.Put

/-!
Where paths lead in a tree with links.  Where a path leads depends on the folders and
the links that it meets and not on what files hold, so that it leads to a file as
before once another file is put in its place.  A link to a file is met at the end of a
path only, and the same is true of a file that is put in place of the link.
-/

namespace Upkeep

/-- Whether a part of a path is taken from the entries of a folder. -/
def IsEntry (part : Text) : Prop :=
  ¬ (part = [] ∨ part = ['.']) ∧ part ≠ ['.', '.']

namespace Tree

/-- Where parts lead from a place, with the number of links that may be entered. -/
inductive Leads (top : Node) (followLast : Bool) : Nat → Place → List Text → Target → Prop where
  | arrived {links place} :
      Leads top followLast links place [] ⟨place, top.get? place⟩
  | stepped {links place part rest target} :
      top.FolderAt place →
      ¬ IsEntry part →
      Leads top followLast links (enter place part) rest target →
      Leads top followLast links place (part :: rest) target
  | missing {links place part} :
      top.FolderAt place →
      IsEntry part →
      top.get? (place ++ [part]) = none →
      Leads top followLast links place [part] ⟨place ++ [part], none⟩
  | ended {links place part text} :
      IsEntry part →
      top.get? (place ++ [part]) = some (.link text) →
      followLast = false →
      Leads top followLast links place [part] ⟨place ++ [part], some (.link text)⟩
  | entered {links place part rest text target} :
      IsEntry part →
      top.get? (place ++ [part]) = some (.link text) →
      (rest ≠ [] ∨ followLast = true) →
      Leads top followLast links (if Path.isAbsolute text then [] else place)
        (text.splitOn '/' ++ rest) target →
      Leads top followLast (links + 1) place (part :: rest) target
  | went {links place part rest node target} :
      IsEntry part →
      top.get? (place ++ [part]) = some node →
      (∀ text, node ≠ .link text) →
      Leads top followLast links (place ++ [part]) rest target →
      Leads top followLast links place (part :: rest) target

section

variable {top : Node} {followLast : Bool} {links : Nat} {place : Place} {parts : List Text}
  {target : Target}

theorem get?_concat
    {mode : FolderMode} {entries : NameMap Node}
    (folder : top.get? place = some (.folder mode entries)) (part : Text) :
    top.get? (place ++ [part]) = NameMap.get? part entries := by
  rw [Node.get?_append, folder, Option.bind_some, Node.get?_folder_singleton]

theorem leads_of_follow
    {enterLink : Place → List Text → Except Fault Target}
    (enters : ∀ {place parts target}, enterLink place parts = .ok target →
      ∃ fewer, links = fewer + 1 ∧ Leads top followLast fewer place parts target)
    (followed : follow top none followLast enterLink place parts = .ok target) :
    Leads top followLast links place parts target := by
  induction parts generalizing place with
  | nil =>
      rw [follow, Except.ok.injEq] at followed
      rw [← followed]
      exact .arrived
  | cons part rest inductionHypothesis =>
      rw [follow] at followed
      cases found : top.get? place with
      | none => simp [found] at followed
      | some node =>
          rw [found] at followed
          cases node with
          | file file => simp at followed
          | link text => simp at followed
          | folder mode entries =>
              have folder : top.FolderAt place := ⟨mode, entries, found⟩
              have entry := get?_concat found part
              by_cases stays : part = [] ∨ part = ['.']
              · simp only [if_pos stays] at followed
                refine .stepped folder (fun isEntry => isEntry.1 stays) ?_
                rw [enter, if_pos stays]
                exact inductionHypothesis followed
              by_cases climbs : part = ['.', '.']
              · simp only [if_neg stays, if_pos climbs, reduceCtorEq, if_false] at followed
                refine .stepped folder (fun isEntry => isEntry.2 climbs) ?_
                rw [enter, if_neg stays, if_pos climbs]
                exact inductionHypothesis followed
              have isEntry : IsEntry part := ⟨stays, climbs⟩
              simp only [if_neg stays, if_neg climbs] at followed
              cases named : NameMap.get? part entries with
              | none =>
                  rw [named] at followed entry
                  simp only at followed
                  split at followed
                  next last =>
                    subst last
                    rw [Except.ok.injEq] at followed
                    rw [← followed]
                    exact .missing folder isEntry entry
                  · simp at followed
              | some node =>
                  rw [named] at followed entry
                  cases node with
                  | file file =>
                      exact .went isEntry entry (by simp) (inductionHypothesis followed)
                  | folder mode entries =>
                      exact .went isEntry entry (by simp) (inductionHypothesis followed)
                  | link text =>
                      simp only [ne_eq, not_true_eq_false, false_and, if_false] at followed
                      split at followed
                      next last =>
                        obtain ⟨rfl, notLast⟩ := last
                        rw [Except.ok.injEq] at followed
                        rw [← followed]
                        exact .ended isEntry entry notLast
                      next further =>
                        obtain ⟨fewer, rfl, leads⟩ := enters followed
                        refine .entered isEntry entry ?_ leads
                        by_cases last : rest = []
                        · exact .inr (by simpa [last] using further)
                        · exact .inl last

theorem leads_of_followWithin
    (followed : followWithin top none followLast (links + 1) place parts = .ok target) :
    Leads top followLast links place parts target := by
  induction links generalizing place parts target with
  | zero => exact leads_of_follow (by simp [followWithin]) followed
  | succ links inductionHypothesis =>
      exact leads_of_follow (fun entered => ⟨links, rfl, inductionHypothesis entered⟩) followed

theorem followWithin_of_leads
    (leads : Leads top followLast links place parts target) :
    followWithin top none followLast (links + 1) place parts = .ok target := by
  induction leads with
  | arrived => rfl
  | @stepped links place part rest target folder noEntry _ inductionHypothesis =>
      obtain ⟨mode, entries, found⟩ := folder
      rw [followWithin, follow, found]
      rw [followWithin, enter] at inductionHypothesis
      by_cases stays : part = [] ∨ part = ['.']
      · simpa only [if_pos stays] using inductionHypothesis
      · have climbs : part = ['.', '.'] := Classical.not_not.1 fun other => noEntry ⟨stays, other⟩
        simpa only [if_neg stays, if_pos climbs, reduceCtorEq, if_false] using inductionHypothesis
  | missing folder isEntry none_ =>
      obtain ⟨mode, entries, found⟩ := folder
      rw [get?_concat found] at none_
      simp [followWithin, follow, found, isEntry.1, isEntry.2, none_]
  | ended isEntry link last =>
      obtain ⟨mode, entries, found⟩ := Node.folderAt_of_get?_append link (by simp)
      rw [get?_concat found] at link
      simp [followWithin, follow, found, isEntry.1, isEntry.2, link, last]
  | @entered links place part rest text target isEntry link further _ inductionHypothesis =>
      obtain ⟨mode, entries, found⟩ := Node.folderAt_of_get?_append link (by simp)
      rw [get?_concat found] at link
      have goesOn : ¬ (rest = [] ∧ followLast = false) := by
        rintro ⟨last, notLast⟩
        rcases further with more | last'
        · exact more last
        · simp [notLast] at last'
      rw [followWithin, follow, found]
      simp only [if_neg isEntry.1, if_neg isEntry.2, link, if_neg goesOn, ne_eq, not_true_eq_false,
        false_and, if_false]
      exact inductionHypothesis
  | @went links place part rest node target isEntry there noLink _ inductionHypothesis =>
      obtain ⟨mode, entries, found⟩ := Node.folderAt_of_get?_append there (by simp)
      rw [get?_concat found] at there
      rw [followWithin, follow, found]
      simp only [if_neg isEntry.1, if_neg isEntry.2, there]
      cases node with
      | link text => exact absurd rfl (noLink text)
      | file file => exact inductionHypothesis
      | folder mode entries => exact inductionHypothesis

theorem Leads.node?_eq
    (leads : Leads top followLast links place parts target) :
    target.node? = top.get? target.place := by
  induction leads with
  | arrived => rfl
  | stepped _ _ _ inductionHypothesis => exact inductionHypothesis
  | missing _ _ none_ => exact none_.symm
  | ended _ link _ => exact link.symm
  | entered _ _ _ _ inductionHypothesis => exact inductionHypothesis
  | went _ _ _ _ inductionHypothesis => exact inductionHypothesis

/-- A path that leads to a file leads there whether a link at its end is followed or not. -/
theorem Leads.following
    {file : File}
    (leads : Leads top false links place parts target)
    (isFile : target.node? = some (.file file)) :
    Leads top true links place parts target := by
  induction leads with
  | arrived => exact .arrived
  | stepped folder noEntry _ inductionHypothesis =>
      exact .stepped folder noEntry (inductionHypothesis isFile)
  | missing folder isEntry none_ => exact .missing folder isEntry none_
  | ended => simp at isFile
  | entered isEntry link _ _ inductionHypothesis =>
      exact .entered isEntry link (.inr rfl) (inductionHypothesis isFile)
  | went isEntry there noLink _ inductionHypothesis =>
      exact .went isEntry there noLink (inductionHypothesis isFile)

theorem folderAt_enter
    {part : Text}
    (folder : top.FolderAt place)
    (noEntry : ¬ IsEntry part) :
    top.FolderAt (enter place part) := by
  unfold enter
  by_cases stays : part = [] ∨ part = ['.']
  · rwa [if_pos stays]
  · have climbs : part = ['.', '.'] := Classical.not_not.1 fun other => noEntry ⟨stays, other⟩
    rw [if_neg stays, if_pos climbs]
    exact folder.dropLast

theorem Leads.mono
    {more : Nat}
    (few : links ≤ more)
    (leads : Leads top followLast links place parts target) :
    Leads top followLast more place parts target := by
  induction leads generalizing more with
  | arrived => exact .arrived
  | stepped folder noEntry _ inductionHypothesis =>
      exact .stepped folder noEntry (inductionHypothesis few)
  | missing folder isEntry none_ => exact .missing folder isEntry none_
  | ended isEntry link last => exact .ended isEntry link last
  | entered isEntry link further _ inductionHypothesis =>
      obtain ⟨fewer, rfl⟩ := Nat.exists_eq_add_of_le' (Nat.lt_of_lt_of_le (Nat.succ_pos _) few)
      exact .entered isEntry link further (inductionHypothesis (Nat.le_of_succ_le_succ few))
  | went isEntry there noLink _ inductionHypothesis =>
      exact .went isEntry there noLink (inductionHypothesis few)

/-- Parts lead to one place only, however many links may be entered. -/
theorem Leads.target_eq
    {otherLinks : Nat} {other : Target}
    (leads : Leads top followLast links place parts target)
    (leadsToo : Leads top followLast otherLinks place parts other) :
    target = other := by
  have first := followWithin_of_leads (leads.mono (Nat.le_max_left links otherLinks))
  have second := followWithin_of_leads (leadsToo.mono (Nat.le_max_right links otherLinks))
  exact Except.ok.inj (first.symm.trans second)

/-- What comes before other parts leads to a folder, a link at its end followed. -/
theorem Leads.front
    {rest : List Text} (front : List Text)
    (further : rest ≠ [])
    (leads : Leads top followLast links place (front ++ rest) target) :
    ∃ folderPlace, Leads top true links place front ⟨folderPlace, top.get? folderPlace⟩ ∧
      top.FolderAt folderPlace := by
  generalize whole : front ++ rest = parts at leads
  induction leads generalizing front with
  | arrived => exact absurd (List.append_eq_nil_iff.1 whole).2 further
  | @stepped links place first later target folder noEntry _ inductionHypothesis =>
      cases front with
      | nil => exact ⟨place, .arrived, folder⟩
      | cons other front =>
          rw [List.cons_append, List.cons.injEq] at whole
          obtain ⟨rfl, later⟩ := whole
          obtain ⟨folderPlace, leads, folderThere⟩ := inductionHypothesis front later
          exact ⟨folderPlace, .stepped folder noEntry leads, folderThere⟩
  | @missing links place first folder isEntry none_ =>
      cases front with
      | nil => exact ⟨place, .arrived, folder⟩
      | cons other front => simp [further] at whole
  | @ended links place first text isEntry link last =>
      cases front with
      | nil => exact ⟨place, .arrived, Node.folderAt_of_get?_append link (by simp)⟩
      | cons other front => simp [further] at whole
  | @entered links place first later text target isEntry link _ _ inductionHypothesis =>
      cases front with
      | nil => exact ⟨place, .arrived, Node.folderAt_of_get?_append link (by simp)⟩
      | cons other front =>
          rw [List.cons_append, List.cons.injEq] at whole
          obtain ⟨rfl, rfl⟩ := whole
          obtain ⟨folderPlace, leads, folderThere⟩ :=
            inductionHypothesis (text.splitOn '/' ++ front) (List.append_assoc ..)
          exact ⟨folderPlace, .entered isEntry link (.inr rfl) leads, folderThere⟩
  | @went links place first later node target isEntry there noLink _ inductionHypothesis =>
      cases front with
      | nil => exact ⟨place, .arrived, Node.folderAt_of_get?_append there (by simp)⟩
      | cons other front =>
          rw [List.cons_append, List.cons.injEq] at whole
          obtain ⟨rfl, later⟩ := whole
          obtain ⟨folderPlace, leads, folderThere⟩ := inductionHypothesis front later
          exact ⟨folderPlace, .went isEntry there noLink leads, folderThere⟩

/-- A path to a file or a link ends in the name of an entry. -/
theorem Leads.isEntry
    (front : List Text) (part : Text)
    (leads : Leads top false links place (front ++ [part]) target)
    (leaf : top.LeafAt target.place) :
    IsEntry part := by
  generalize whole : front ++ [part] = parts at leads
  induction leads generalizing front with
  | arrived => simp at whole
  | @stepped links place first rest target folder noEntry leads inductionHypothesis =>
      cases front with
      | nil =>
          rw [List.nil_append, List.cons.injEq] at whole
          obtain ⟨rfl, rfl⟩ := whole
          cases leads
          exact absurd (folderAt_enter folder noEntry) leaf.not_folderAt
      | cons other front => exact inductionHypothesis front leaf (List.cons.inj whole).2
  | @missing links place first _ isEntry _ =>
      cases front with
      | nil => rwa [(List.cons.inj whole).1]
      | cons other front => simp at whole
  | @ended links place first _ isEntry _ _ =>
      cases front with
      | nil => rwa [(List.cons.inj whole).1]
      | cons other front => simp at whole
  | @entered links place first rest text target isEntry _ further _ inductionHypothesis =>
      cases front with
      | nil => rwa [(List.cons.inj whole).1]
      | cons other front =>
          obtain ⟨rfl, rfl⟩ := List.cons.inj whole
          exact inductionHypothesis (text.splitOn '/' ++ front) leaf (List.append_assoc ..)
  | @went links place first rest _ target isEntry _ _ _ inductionHypothesis =>
      cases front with
      | nil => rwa [(List.cons.inj whole).1]
      | cons other front => exact inductionHypothesis front leaf (List.cons.inj whole).2

/-- A path to a file names the file or, if links at its end are not followed, a link
to it. -/
theorem Leads.unfollowed
    {file : File}
    (leads : Leads top true links place parts target)
    (isFile : target.node? = some (.file file)) :
    Leads top false links place parts target ∨
      ∃ folderPlace name text fewer,
        top.get? (folderPlace ++ [name]) = some (.link text) ∧
        Leads top false links place parts ⟨folderPlace ++ [name], some (.link text)⟩ ∧
        Leads top true fewer (if Path.isAbsolute text then [] else folderPlace)
          (text.splitOn '/') target := by
  induction leads with
  | arrived => exact .inl .arrived
  | stepped folder noEntry _ inductionHypothesis =>
      rcases inductionHypothesis isFile with
        leads | ⟨folderPlace, name, text, fewer, link, leads, inner⟩
      · exact .inl (.stepped folder noEntry leads)
      · exact .inr ⟨folderPlace, name, text, fewer, link, .stepped folder noEntry leads, inner⟩
  | missing => simp at isFile
  | ended _ _ last => simp at last
  | @entered links place part rest text target isEntry link further leads inductionHypothesis =>
      by_cases last : rest = []
      · subst last
        rw [List.append_nil] at leads
        exact .inr ⟨place, part, text, links, link, .ended isEntry link rfl, leads⟩
      · rcases inductionHypothesis isFile with
          leads | ⟨folderPlace, name, text', fewer, link', leads, inner⟩
        · exact .inl (.entered isEntry link (.inl last) leads)
        · exact .inr ⟨folderPlace, name, text', fewer, link',
            .entered isEntry link (.inl last) leads, inner⟩
  | went isEntry there noLink _ inductionHypothesis =>
      rcases inductionHypothesis isFile with
        leads | ⟨folderPlace, name, text, fewer, link, leads, inner⟩
      · exact .inl (.went isEntry there noLink leads)
      · exact .inr ⟨folderPlace, name, text, fewer, link, .went isEntry there noLink leads, inner⟩

/-- Paths lead where they did once a file is put in place of a file. -/
theorem Leads.put
    {old : File} {filePlace : Place}
    (there : top.get? filePlace = some (.file old))
    (leads : Leads top followLast links place parts target) (new : File) :
    Leads (top.put filePlace (.file new)) followLast links place parts
      ⟨target.place, (top.put filePlace (.file new)).get? target.place⟩ := by
  have leaf := Node.leafAt_of_file there
  induction leads with
  | arrived => exact .arrived
  | stepped folder noEntry _ inductionHypothesis =>
      exact .stepped ((Node.folderAt_put_iff leaf).2 folder) noEntry inductionHypothesis
  | missing folder isEntry none_ =>
      have stillNone : (top.put filePlace (.file new)).get? _ = none :=
        (Node.get?_put_eq_none_iff leaf).2 none_
      rw [stillNone]
      exact .missing ((Node.folderAt_put_iff leaf).2 folder) isEntry stillNone
  | ended isEntry link last =>
      have stillLink : (top.put filePlace (.file new)).get? _ = some (.link _) :=
        (Node.get?_put_eq_link_iff there).2 link
      rw [stillLink]
      exact .ended isEntry stillLink last
  | entered isEntry link further _ inductionHypothesis =>
      exact .entered isEntry ((Node.get?_put_eq_link_iff there).2 link) further inductionHypothesis
  | @went links place part rest node target isEntry found noLink _ inductionHypothesis =>
      obtain ⟨other, stillThere, stillNoLink⟩ := Node.exists_get?_put leaf new found noLink
      exact .went isEntry stillThere stillNoLink inductionHypothesis

/-- A path to a link leads to the file that is put in place of the link.  As the link
leads to a file, it is not met on the way. -/
theorem Leads.put_link
    {folderPlace filePlace : Place} {name text : Text} {otherLinks : Nat} {old : File}
    (link : top.get? (folderPlace ++ [name]) = some (.link text))
    (inner : Leads top true otherLinks (if Path.isAbsolute text then [] else folderPlace)
      (text.splitOn '/') ⟨filePlace, some (.file old)⟩)
    (leads : Leads top false links place parts target)
    (here : target.place = folderPlace ++ [name]) (new : File) :
    Leads (top.put (folderPlace ++ [name]) (.file new)) false links place parts
      ⟨folderPlace ++ [name], some (.file new)⟩ := by
  have leaf := Node.leafAt_of_link link
  have put : (top.put (folderPlace ++ [name]) (.file new)).get? (folderPlace ++ [name]) =
      some (.file new) :=
    Node.get?_put_self leaf
  induction leads with
  | arrived =>
      rw [← put, ← here]
      exact .arrived
  | stepped folder noEntry _ inductionHypothesis =>
      exact .stepped ((Node.folderAt_put_iff leaf).2 folder) noEntry (inductionHypothesis here)
  | missing _ _ none_ =>
      simp only at here
      simp [here, link] at none_
  | ended isEntry _ _ =>
      simp only at here
      rw [← here] at put ⊢
      refine .went isEntry put (by simp) ?_
      rw [← put]
      exact .arrived
  | @entered links place part rest other target isEntry found further leads inductionHypothesis =>
      have more : rest ≠ [] := by simpa using further
      by_cases same : place ++ [part] = folderPlace ++ [name]
      · -- the link would be followed to a folder
        obtain ⟨rfl, _⟩ := List.append_inj' same rfl
        rw [same, link, Option.some.injEq, Node.link.injEq] at found
        subst found
        obtain ⟨middle, through, folder⟩ := leads.front (text.splitOn '/') more
        have both := inner.target_eq through
        obtain ⟨rfl, file⟩ := Target.mk.inj both
        exact absurd folder (Node.leafAt_of_file file.symm).not_folderAt
      · exact .entered isEntry ((Node.get?_put_eq_link_iff_of_ne leaf same).2 found) further
          (inductionHypothesis here)
  | @went links place part rest node target isEntry found noLink _ inductionHypothesis =>
      obtain ⟨other, stillThere, stillNoLink⟩ := Node.exists_get?_put leaf new found noLink
      exact .went isEntry stillThere stillNoLink (inductionHypothesis here)

end

variable {tree : Tree} {followLast : Bool} {path : Text} {target : Target} {place : Place}
  {file : File}

theorem locate_eq_ok_iff_leads :
    tree.locate followLast path = .ok target ↔
      path ≠ [] ∧ '\x00' ∉ path ∧
        Leads tree.top followLast linkLimit (tree.startOf path) (path.splitOn '/') target := by
  unfold locate
  split
  next empty => simp [empty]
  next nonempty =>
    split
    next nul => simp [nul]
    next noNul =>
      simp only [ne_eq, nonempty, not_false_eq_true, noNul, true_and]
      exact ⟨leads_of_followWithin, followWithin_of_leads⟩

/-- Whether a path names a regular file at a place, and no link to one. -/
def IsRegular (tree : Tree) (path : Text) (place : Place) (file : File) : Prop :=
  tree.locate false path = .ok ⟨place, some (.file file)⟩

theorem IsRegular.get?_eq
    (regular : tree.IsRegular path place file) :
    tree.top.get? place = some (.file file) :=
  (locate_eq_ok_iff_leads.1 regular).2.2.node?_eq.symm

theorem IsRegular.locate
    (regular : tree.IsRegular path place file) (followLast : Bool) :
    tree.locate followLast path = .ok ⟨place, some (.file file)⟩ := by
  cases followLast with
  | false => exact regular
  | true =>
      obtain ⟨nonempty, noNul, leads⟩ := locate_eq_ok_iff_leads.1 regular
      exact locate_eq_ok_iff_leads.2 ⟨nonempty, noNul, leads.following rfl⟩

theorem IsRegular.file?_eq
    (regular : tree.IsRegular path place file) :
    tree.file? path = some file :=
  file?_eq_some_iff_locate.2 ⟨place, regular.locate true⟩

theorem IsRegular.setFile
    (regular : tree.IsRegular path place file) (new : File) :
    (tree.setFile place new).IsRegular path place new := by
  obtain ⟨nonempty, noNul, leads⟩ := locate_eq_ok_iff_leads.1 regular
  have putThere := leads.put regular.get?_eq new
  rw [Node.get?_put_self (Node.leafAt_of_file regular.get?_eq)] at putThere
  exact locate_eq_ok_iff_leads.2 ⟨nonempty, noNul, putThere⟩

/-- Whether a path names a file or a link at a place. -/
structure NamesLeaf (tree : Tree) (path : Text) (place : Place) : Prop where
  located : tree.locate false path = .ok ⟨place, tree.top.get? place⟩
  leaf : tree.top.LeafAt place

theorem IsRegular.namesLeaf
    (regular : tree.IsRegular path place file) :
    tree.NamesLeaf path place := by
  have there := regular.get?_eq
  refine ⟨?_, Node.leafAt_of_file there⟩
  rw [there]
  exact regular

/-- A path that names a file, through links or not, names the file that is put in its
place. -/
theorem exists_namesLeaf
    (named : tree.file? path = some file) :
    ∃ place, tree.NamesLeaf path place ∧
      ∀ new, (tree.setFile place new).IsRegular path place new := by
  obtain ⟨filePlace, located⟩ := file?_eq_some_iff_locate.1 named
  obtain ⟨nonempty, noNul, leads⟩ := locate_eq_ok_iff_leads.1 located
  rcases leads.unfollowed rfl with leads | ⟨folderPlace, name, text, _, link, leads, inner⟩
  · have regular : tree.IsRegular path filePlace file :=
      locate_eq_ok_iff_leads.2 ⟨nonempty, noNul, leads⟩
    exact ⟨filePlace, regular.namesLeaf, regular.setFile⟩
  · refine ⟨folderPlace ++ [name], ⟨?_, Node.leafAt_of_link link⟩, ?_⟩
    · rw [link]
      exact locate_eq_ok_iff_leads.2 ⟨nonempty, noNul, leads⟩
    · intro new
      exact locate_eq_ok_iff_leads.2 ⟨nonempty, noNul, Leads.put_link link inner leads rfl new⟩

/-- Without links, each file is regular where its path leads. -/
theorem NoLinks.isRegular
    (noLinks : tree.NoLinks)
    (named : tree.file? path = some file) :
    tree.IsRegular path (tree.placeOf path) file := by
  obtain ⟨nonempty, noNul, there, passable⟩ := (file?_eq_some_iff noLinks).1 named
  refine (locate_eq_ok_iff noLinks).2 ⟨nonempty, noNul, ?_, passable⟩
  rw [there]

end Tree

end Upkeep
