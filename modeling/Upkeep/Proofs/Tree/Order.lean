import Upkeep.Proofs.NameMap
import Upkeep.Proofs.Tree.Put

/-!
Putting a file back and taking it away.  Of two files put in one place the last one stays, and in a
tree whose folders list their entries in order a file that is put where it is changes nothing, and
neither does one that is put where nothing is and then taken away.
-/

namespace Upkeep

namespace Node

/-- Whether all folders list their entries in order. -/
def Ordered (top : Node) : Prop :=
  ∀ place mode entries, top.get? place = some (.folder mode entries) → NameMap.Ordered entries

variable {top : Node} {place : Place} {first second old : File}

theorem Ordered.entries
    {mode : FolderMode} {entries : NameMap Node}
    (ordered : (folder mode entries).Ordered) :
    NameMap.Ordered entries :=
  ordered [] mode entries (get?_nil _)

@[simp]
theorem ordered_file (content : File) : (file content).Ordered := by
  intro place mode entries found
  cases place <;> simp [get?] at found

@[simp]
theorem ordered_link (target : Text) : (link target).Ordered := by
  intro place mode entries found
  cases place <;> simp [get?] at found

theorem Ordered.of_entries
    {mode : FolderMode} {entries : NameMap Node}
    (entriesOrdered : NameMap.Ordered entries)
    (children : ∀ entry ∈ entries, entry.2.Ordered) :
    (folder mode entries).Ordered := by
  intro place mode' entries' found
  cases place with
  | nil =>
      rw [get?_nil, Option.some.injEq, folder.injEq] at found
      rw [← found.2]
      exact entriesOrdered
  | cons name rest =>
      rw [get?_folder_cons, Option.bind_eq_some_iff] at found
      obtain ⟨child, listed, below⟩ := found
      exact children _ (NameMap.mem_of_get? listed) rest mode' entries' below

theorem Ordered.below
    {node : Node}
    (ordered : top.Ordered)
    (there : top.get? place = some node) :
    node.Ordered := by
  intro inner mode entries found
  apply ordered (place ++ inner) mode entries
  rw [get?_append, there, Option.bind_some, found]

theorem Ordered.child
    {mode : FolderMode} {entries : NameMap Node} {name : Text} {child : Node}
    (ordered : (folder mode entries).Ordered)
    (named : NameMap.get? name entries = some child) :
    child.Ordered := by
  have there : (folder mode entries).get? [name] = some child := by
    rw [get?_folder_cons, named, Option.bind_some, get?_nil]
  exact ordered.below there

/-- Of two files put in one place the last one stays. -/
theorem put_put
    (leaf : top.LeafAt place) :
    (top.put place (.file first)).put place (.file second) = top.put place (.file second) := by
  induction place generalizing top with
  | nil => cases top <;> rfl
  | cons name rest inductionHypothesis =>
      obtain ⟨mode, entries, child, rfl, named, below⟩ := leaf.exists_below
      simp only [put, named, Option.getD_some, NameMap.get?_set_self, NameMap.set_set,
        inductionHypothesis below]

/-- A file that is put where it is changes nothing. -/
theorem put_of_get?
    (ordered : top.Ordered)
    (there : top.get? place = some (.file old)) :
    top.put place (.file old) = top := by
  induction place generalizing top with
  | nil =>
      rw [get?_nil, Option.some.injEq] at there
      rw [there, put]
  | cons name rest inductionHypothesis =>
      obtain ⟨mode, entries, child, rfl, named, _⟩ := (leafAt_of_file there).exists_below
      rw [get?_folder_cons, named, Option.bind_some] at there
      rw [put, named, Option.getD_some, inductionHypothesis (ordered.child named) there,
        NameMap.set_of_get? ordered.entries named]

/-- Of two files put under one name the last one stays. -/
theorem put_put_entry
    {name : Text}
    (folderAt : top.FolderAt place) :
    (top.put (place ++ [name]) (.file first)).put (place ++ [name]) (.file second) =
      top.put (place ++ [name]) (.file second) := by
  obtain ⟨mode, entries, there⟩ := folderAt
  induction place generalizing top with
  | nil =>
      rw [get?_nil, Option.some.injEq] at there
      subst there
      simp only [List.nil_append, put, NameMap.set_set]
  | cons outer rest inductionHypothesis =>
      cases top with
      | file file => simp [get?] at there
      | link target => simp [get?] at there
      | folder topMode topEntries =>
          rw [get?_folder_cons, Option.bind_eq_some_iff] at there
          obtain ⟨child, named, below⟩ := there
          simp only [List.cons_append, put, named, Option.getD_some, NameMap.get?_set_self,
            NameMap.set_set, inductionHypothesis below]

theorem erase_folder_cons_cons
    {mode : FolderMode} {entries : NameMap Node} {name : Text} {child : Node}
    (named : NameMap.get? name entries = some child) (next : Text) (rest : Place) :
    (folder mode entries).erase (name :: next :: rest) =
      .folder mode (NameMap.set name (child.erase (next :: rest)) entries) := by
  simp [erase, named]

/-- A file that is put where nothing is goes without a trace. -/
theorem erase_put_entry
    {name : Text}
    (ordered : top.Ordered)
    (folderAt : top.FolderAt place)
    (missing : top.get? (place ++ [name]) = none) (new : File) :
    (top.put (place ++ [name]) (.file new)).erase (place ++ [name]) = top := by
  obtain ⟨mode, entries, there⟩ := folderAt
  induction place generalizing top with
  | nil =>
      rw [get?_nil, Option.some.injEq] at there
      subst there
      rw [List.nil_append, get?_folder_singleton] at missing
      rw [List.nil_append, put, put, erase, NameMap.remove_set missing]
  | cons outer rest inductionHypothesis =>
      cases top with
      | file file => simp [get?] at there
      | link target => simp [get?] at there
      | folder topMode topEntries =>
          rw [get?_folder_cons, Option.bind_eq_some_iff] at there
          obtain ⟨child, named, below⟩ := there
          rw [List.cons_append, get?_folder_cons, named, Option.bind_some] at missing
          have restored := inductionHypothesis (ordered.child named) missing below
          cases split : rest ++ [name] with
          | nil => simp at split
          | cons next further =>
              rw [split] at restored
              rw [List.cons_append, split, put, named, Option.getD_some,
                erase_folder_cons_cons (NameMap.get?_set_self ..), restored, NameMap.set_set,
                NameMap.set_of_get? ordered.entries named]

end Node

namespace Tree

variable {tree : Tree} {place : Place} {first second old : File}

theorem setFile_setFile
    (leaf : tree.top.LeafAt place) :
    (tree.setFile place first).setFile place second = tree.setFile place second := by
  simp only [setFile, Node.put_put leaf]

theorem setFile_of_get?
    (ordered : tree.top.Ordered)
    (there : tree.top.get? place = some (.file old)) :
    tree.setFile place old = tree := by
  simp only [setFile, Node.put_of_get? ordered there]

end Tree

end Upkeep
