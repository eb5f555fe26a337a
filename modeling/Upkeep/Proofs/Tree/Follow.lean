import Upkeep.Proofs.Path.Normal
import Upkeep.Tree.Basic

/-!
Paths in a tree without links.  There a path leads where its parts say, and it can
be followed exactly if each part is taken from a folder.
-/

namespace Upkeep

/-- Where one part of a path leads. -/
def enter (place : Place) (part : Text) : Place :=
  if part = [] ∨ part = ['.'] then place
  else if part = ['.', '.'] then place.dropLast
  else place ++ [part]

namespace Node

/-- Whether a folder is at a place. -/
def FolderAt (top : Node) (place : Place) : Prop :=
  ∃ mode entries, top.get? place = some (.folder mode entries)

/-- Whether no place holds a link. -/
def NoLinks (top : Node) : Prop :=
  ∀ place target, top.get? place ≠ some (.link target)

@[simp]
theorem get?_nil (top : Node) : top.get? [] = some top := by
  cases top <;> rfl

@[simp]
theorem get?_folder_cons (mode : FolderMode) (entries : NameMap Node) (name : Text) (rest : Place) :
    (Node.folder mode entries).get? (name :: rest) =
      (NameMap.get? name entries).bind fun node => node.get? rest := by
  rw [get?]
  cases NameMap.get? name entries <;> rfl

@[simp]
theorem get?_folder_singleton (mode : FolderMode) (entries : NameMap Node) (name : Text) :
    (Node.folder mode entries).get? [name] = NameMap.get? name entries := by
  rw [get?_folder_cons]
  cases NameMap.get? name entries <;> simp

theorem get?_append (top : Node) (place rest : Place) :
    top.get? (place ++ rest) = (top.get? place).bind fun node => node.get? rest := by
  induction place generalizing top with
  | nil => simp
  | cons name place inductionHypothesis =>
      cases top with
      | file file => simp [get?]
      | link target => simp [get?]
      | folder mode entries =>
          rw [List.cons_append, get?_folder_cons, get?_folder_cons, Option.bind_assoc]
          congr 1
          funext node
          exact inductionHypothesis node

/-- What lies on the way to an entry is a folder. -/
theorem folderAt_of_get?_append
    {top node : Node} {place rest : Place}
    (there : top.get? (place ++ rest) = some node)
    (below : rest ≠ []) :
    top.FolderAt place := by
  rw [get?_append] at there
  cases found : top.get? place with
  | none => simp [found] at there
  | some middle =>
      cases rest with
      | nil => exact absurd rfl below
      | cons name rest =>
          cases middle with
          | file file => simp [found, get?] at there
          | link target => simp [found, get?] at there
          | folder mode entries => exact ⟨mode, entries, found⟩

theorem FolderAt.dropLast
    {top : Node} {place : Place}
    (folder : top.FolderAt place) :
    top.FolderAt place.dropLast := by
  obtain ⟨mode, entries, there⟩ := folder
  by_cases root : place = []
  · subst root
    exact ⟨mode, entries, there⟩
  · rw [← List.dropLast_concat_getLast root] at there
    exact folderAt_of_get?_append there (by simp)

end Node

namespace Tree

def NoLinks (tree : Tree) : Prop :=
  tree.top.NoLinks

/-- The folder in which a path starts. -/
def startOf (tree : Tree) (path : Text) : Place :=
  if Path.isAbsolute path then [] else tree.workingDir

/-- Where a path leads by its parts alone. -/
def placeOf (tree : Tree) (path : Text) : Place :=
  (path.splitOn '/').foldl enter (tree.startOf path)

theorem enter_of_isName
    {name : Text}
    (isName : IsName name) (place : Place) :
    enter place name = place ++ [name] := by
  obtain ⟨nonempty, notDot, notUp, _⟩ := isName
  simp [enter, nonempty, notDot, notUp]

theorem enter_up (place : Place) : enter place ['.', '.'] = place.dropLast := by
  simp [enter]

theorem foldl_enter_names
    {names : List Text}
    (areNames : ∀ name ∈ names, IsName name) (place : Place) :
    names.foldl enter place = place ++ names := by
  induction names generalizing place with
  | nil => exact (List.append_nil place).symm
  | cons name names inductionHypothesis =>
      rw [List.forall_mem_cons] at areNames
      rw [List.foldl_cons, enter_of_isName areNames.1, inductionHypothesis areNames.2,
        List.append_assoc, List.singleton_append]

theorem foldl_enter_route_parts (route : Route) (place : Place) :
    route.parts.foldl enter place = (route.steps.map Step.text).foldl enter place := by
  obtain ⟨absolute, steps⟩ := route
  cases absolute <;> cases steps <;> simp [Route.parts, enter]

/-- A route that does not go up leads to its names, one below the other. -/
theorem foldl_enter_parts
    {route : Route}
    (proper : route.Proper)
    (inside : .up ∉ route.steps) (place : Place) :
    route.parts.foldl enter place = place ++ route.steps.map Step.text := by
  rw [foldl_enter_route_parts]
  apply foldl_enter_names
  intro part member
  obtain ⟨step, isStep, rfl⟩ := List.mem_map.1 member
  cases step with
  | up => exact absurd isStep inside
  | name text => exact proper _ isStep

/-- Distinct normal forms that start alike and stay below their start lead to
distinct places. -/
theorem placeOf_normalize_ne
    {tree : Tree} {first second : Text}
    (sameStart : Path.isAbsolute first = Path.isAbsolute second)
    (firstInside : .up ∉ (Path.route first).fold.steps)
    (secondInside : .up ∉ (Path.route second).fold.steps)
    (different : Path.normalize first ≠ Path.normalize second) :
    tree.placeOf (Path.normalize first) ≠ tree.placeOf (Path.normalize second) := by
  intro samePlace
  apply different
  have firstProper := (Path.proper_route first).fold
  have secondProper := (Path.proper_route second).fold
  unfold placeOf startOf Path.normalize at samePlace
  rw [Route.isAbsolute_path firstProper, Route.isAbsolute_path secondProper,
    Route.splitOn_path firstProper, Route.splitOn_path secondProper,
    foldl_enter_parts firstProper firstInside,
    foldl_enter_parts secondProper secondInside] at samePlace
  have starts : (Path.route first).fold.absolute = (Path.route second).fold.absolute := sameStart
  rw [starts, List.append_cancel_left_eq] at samePlace
  have steps : (Path.route first).fold.steps = (Path.route second).fold.steps := by
    rw [← Route.filterMap_stepOf?_text firstProper, samePlace,
      Route.filterMap_stepOf?_text secondProper]
  unfold Path.normalize
  generalize (Path.route first).fold = firstRoute at starts steps
  generalize (Path.route second).fold = secondRoute at starts steps
  obtain ⟨_, _⟩ := firstRoute
  obtain ⟨_, _⟩ := secondRoute
  simp only at starts steps
  rw [starts, steps]

/-- Whether each of the parts is taken from a folder. -/
def Passable (top : Node) (place : Place) (parts : List Text) : Prop :=
  ∀ front part back, parts = front ++ part :: back → top.FolderAt (front.foldl enter place)

theorem passable_nil (top : Node) (place : Place) : Passable top place [] := by
  intro front part back split
  cases front <;> simp at split

theorem passable_cons_iff
    {top : Node} {place : Place} {part : Text} {rest : List Text} :
    Passable top place (part :: rest) ↔
      top.FolderAt place ∧ Passable top (enter place part) rest := by
  constructor
  · intro passable
    refine ⟨passable [] part rest rfl, ?_⟩
    intro front later back split
    exact passable (part :: front) later back (by simp [split])
  · rintro ⟨folder, passable⟩ front later back split
    cases front with
    | nil => exact folder
    | cons first front =>
        obtain ⟨rfl, later_⟩ := List.cons.inj split
        exact passable front later back later_

variable {top : Node} {followLast : Bool} {enterLink : Place → List Text → Except Fault Target}

/-- Without links, parts are followed exactly if each is taken from a folder, and
they lead where they say. -/
theorem follow_eq_ok_iff
    (noLinks : top.NoLinks)
    {place : Place} {parts : List Text} {target : Target} :
    follow top none followLast enterLink place parts = .ok target ↔
      target = ⟨parts.foldl enter place, top.get? (parts.foldl enter place)⟩ ∧
        Passable top place parts := by
  induction parts generalizing place with
  | nil => simp [follow, passable_nil, eq_comm]
  | cons part rest inductionHypothesis =>
      rw [passable_cons_iff, List.foldl_cons, follow]
      cases found : top.get? place with
      | none => simp [Node.FolderAt, found]
      | some node =>
          cases node with
          | file file => simp [Node.FolderAt, found]
          | link target => simp [Node.FolderAt, found]
          | folder mode entries =>
              have folder : top.FolderAt place := ⟨mode, entries, found⟩
              by_cases stays : part = [] ∨ part = ['.']
              · simp only [if_pos stays, inductionHypothesis, enter, folder, true_and]
              by_cases climbs : part = ['.', '.']
              · simp only [if_neg stays, if_pos climbs, reduceCtorEq, if_false,
                  inductionHypothesis, enter, folder, true_and]
              have next : enter place part = place ++ [part] := by simp [enter, stays, climbs]
              have entry : top.get? (place ++ [part]) = NameMap.get? part entries := by
                rw [Node.get?_append, found]
                cases named : NameMap.get? part entries <;> simp [named]
              simp only [if_neg stays, if_neg climbs, next, folder, true_and]
              cases named : NameMap.get? part entries with
              | none =>
                  rw [named] at entry
                  cases rest with
                  | nil => simp [passable_nil, entry, eq_comm]
                  | cons later rest => simp [passable_cons_iff, Node.FolderAt, entry]
              | some node =>
                  rw [named] at entry
                  cases node with
                  | link target => exact absurd entry (noLinks _ _)
                  | file file => exact inductionHypothesis
                  | folder mode entries => exact inductionHypothesis

variable {tree : Tree} {path : Text} {target : Target}

theorem locate_eq_ok_iff
    (noLinks : tree.NoLinks) :
    tree.locate followLast path = .ok target ↔
      path ≠ [] ∧ '\x00' ∉ path ∧
        target = ⟨tree.placeOf path, tree.top.get? (tree.placeOf path)⟩ ∧
        Passable tree.top (tree.startOf path) (path.splitOn '/') := by
  unfold locate
  split
  next empty => simp [empty]
  next nonempty =>
    split
    next nul => simp [nul]
    next noNul =>
      simp only [ne_eq, nonempty, not_false_eq_true, noNul, true_and]
      exact follow_eq_ok_iff noLinks

/-- The file that a path names. -/
def file? (tree : Tree) (path : Text) : Option File :=
  match tree.node? path with
  | some (.file file) => some file
  | _ => none

theorem file?_eq_some_iff_locate
    {file : File} :
    tree.file? path = some file ↔
      ∃ place, tree.locate true path = .ok ⟨place, some (.file file)⟩ := by
  unfold file? node?
  cases found : tree.locate true path with
  | error fault => simp
  | ok target =>
      obtain ⟨place, node?⟩ := target
      cases node? with
      | none => simp
      | some node => cases node <;> simp

theorem file?_eq_some_iff
    (noLinks : tree.NoLinks)
    {file : File} :
    tree.file? path = some file ↔
      path ≠ [] ∧ '\x00' ∉ path ∧ tree.top.get? (tree.placeOf path) = some (.file file) ∧
        Passable tree.top (tree.startOf path) (path.splitOn '/') := by
  rw [file?_eq_some_iff_locate]
  constructor
  · rintro ⟨place, found⟩
    obtain ⟨nonempty, noNul, same, passable⟩ := (locate_eq_ok_iff noLinks).1 found
    obtain ⟨rfl, node⟩ := Target.mk.inj same
    exact ⟨nonempty, noNul, node.symm, passable⟩
  · rintro ⟨nonempty, noNul, node, passable⟩
    refine ⟨tree.placeOf path, (locate_eq_ok_iff noLinks).2 ⟨nonempty, noNul, ?_, passable⟩⟩
    rw [node]

theorem read_eq_ok_iff
    {bytes : ByteArray} :
    tree.read path = .ok bytes ↔ ∃ mode, tree.file? path = some ⟨bytes, mode⟩ := by
  unfold read file? node?
  cases found : tree.locate true path with
  | error fault => simp
  | ok target =>
      obtain ⟨place, node?⟩ := target
      cases node? with
      | none => simp
      | some node =>
          cases node with
          | link target => simp
          | folder mode entries => simp
          | file file =>
              obtain ⟨fileBytes, fileMode⟩ := file
              simp

end Tree

end Upkeep
