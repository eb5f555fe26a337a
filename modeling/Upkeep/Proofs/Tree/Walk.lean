import Mathlib.Data.List.Forall2
import Mathlib.Data.List.Nodup
import Upkeep.Proofs.Path.Join
import Upkeep.Proofs.Tree.Leads
import Upkeep.Proofs.Tree.Order
import Upkeep.Tree.Walk

/-!
What a walk through projects lists: all files with an accepted extension that it gets to and all
folders that cannot be listed, each once, in the order of the names that lead to them.
-/

namespace Upkeep

namespace Node

/-- Whether a walk gets from the top to an entry: it is there, and each folder on the way can be
listed. -/
def Reaches (top : Node) (place : Place) (node : Node) : Prop :=
  top.get? place = some node ∧
    ∀ front back mode entries, place = front ++ back → back ≠ [] →
      top.get? front = some (.folder mode entries) → mode.refusal? = none

theorem reaches_nil_iff {top node : Node} : top.Reaches [] node ↔ node = top := by
  constructor
  · rintro ⟨there, _⟩
    rw [get?_nil, Option.some.injEq] at there
    exact there.symm
  · rintro rfl
    refine ⟨get?_nil node, ?_⟩
    intro front back mode entries split further
    exact absurd (List.append_eq_nil_iff.1 split.symm).2 further

theorem reaches_folder_cons_iff
    {mode : FolderMode} {entries : NameMap Node} {name : Text} {rest : Place} {node : Node} :
    (Node.folder mode entries).Reaches (name :: rest) node ↔
      mode.refusal? = none ∧
        ∃ child, NameMap.get? name entries = some child ∧ child.Reaches rest node := by
  constructor
  · rintro ⟨there, listable⟩
    rw [get?_folder_cons, Option.bind_eq_some_iff] at there
    obtain ⟨child, listed, below⟩ := there
    refine ⟨listable [] _ mode entries rfl (by simp) (get?_nil _), child, listed, below, ?_⟩
    intro front back inner innerEntries split further found
    apply listable (name :: front) back inner innerEntries (by rw [split]; rfl) further
    rw [get?_folder_cons, listed, Option.bind_some, found]
  · rintro ⟨opens, child, listed, below, listable⟩
    refine ⟨by rw [get?_folder_cons, listed, Option.bind_some, below], ?_⟩
    intro front back inner innerEntries split further found
    cases front with
    | nil =>
        rw [get?_nil, Option.some.injEq, folder.injEq] at found
        rw [← found.1]
        exact opens
    | cons first front =>
        rw [List.cons_append, List.cons.injEq] at split
        obtain ⟨rfl, split⟩ := split
        rw [get?_folder_cons, listed, Option.bind_some] at found
        exact listable front back inner innerEntries split further found

theorem not_reaches_file_cons (content : File) (name : Text) (rest : Place) (node : Node) :
    ¬ (file content).Reaches (name :: rest) node := by
  rintro ⟨there, _⟩
  simp [get?] at there

theorem not_reaches_link_cons (target name : Text) (rest : Place) (node : Node) :
    ¬ (link target).Reaches (name :: rest) node := by
  rintro ⟨there, _⟩
  simp [get?] at there

/-- What a walk makes of an entry that it gets to, apart from what is below it. -/
def met? : Node → Option (Except Fault Node)
  | .folder mode _ => mode.refusal?.map .error
  | leaf => some (.ok leaf)

theorem met?_eq_file_iff {node : Node} {content : File} :
    node.met? = some (.ok (.file content)) ↔ node = .file content := by
  cases node <;> simp [met?]

theorem met?_eq_error_iff {node : Node} {fault : Fault} :
    node.met? = some (.error fault) ↔
      ∃ mode entries, node = .folder mode entries ∧ mode.refusal? = some fault := by
  cases node <;> simp [met?]

theorem mem_visitedBelow_iff {entries : NameMap Node} {place : Place} {met : Except Fault Node} :
    (place, met) ∈ visitedBelow entries ↔
      ∃ name rest node, place = name :: rest ∧ (name, node) ∈ entries ∧
        (rest, met) ∈ node.visited := by
  induction entries with
  | nil => simp [visitedBelow]
  | cons entry entries inductionHypothesis =>
      obtain ⟨first, node⟩ := entry
      rw [visitedBelow, List.mem_append, List.mem_map, inductionHypothesis]
      constructor
      · rintro (⟨⟨inner, other⟩, member, same⟩ | ⟨name, rest, child, rfl, listed, below⟩)
        · obtain ⟨rfl, rfl⟩ := Prod.mk.inj same
          exact ⟨first, inner, node, rfl, List.mem_cons_self, member⟩
        · exact ⟨name, rest, child, rfl, List.mem_cons_of_mem _ listed, below⟩
      · rintro ⟨name, rest, child, rfl, listed, below⟩
        rcases List.mem_cons.1 listed with same | later
        · obtain ⟨rfl, rfl⟩ := Prod.mk.inj same
          exact .inl ⟨(rest, met), below, rfl⟩
        · exact .inr ⟨name, rest, child, rfl, later, below⟩

theorem mem_visited_of_reaches
    {node found : Node} {place : Place} {met : Except Fault Node}
    (reached : node.Reaches place found)
    (isMet : found.met? = some met) :
    (place, met) ∈ node.visited := by
  induction place generalizing node with
  | nil =>
      obtain rfl := reaches_nil_iff.1 reached
      cases found with
      | file content => simpa [visited, met?, eq_comm] using isMet
      | link target => simpa [visited, met?, eq_comm] using isMet
      | folder mode entries =>
          obtain ⟨fault, refusal, rfl⟩ := Option.map_eq_some_iff.1 isMet
          simp [visited, refusal]
  | cons name rest inductionHypothesis =>
      cases node with
      | file content => exact absurd reached (not_reaches_file_cons _ _ _ _)
      | link target => exact absurd reached (not_reaches_link_cons _ _ _ _)
      | folder mode entries =>
          obtain ⟨opens, child, listed, below⟩ := reaches_folder_cons_iff.1 reached
          rw [visited, opens]
          exact mem_visitedBelow_iff.2
            ⟨name, rest, child, rfl, NameMap.mem_of_get? listed, inductionHypothesis below⟩

/-- A walk comes to what it gets to, and to nothing else. -/
theorem mem_visited_iff
    {node : Node} {place : Place} {met : Except Fault Node}
    (ordered : node.Ordered) :
    (place, met) ∈ node.visited ↔
      ∃ found, node.Reaches place found ∧ found.met? = some met := by
  refine ⟨fun member => ?_, fun ⟨found, reached, isMet⟩ => mem_visited_of_reaches reached isMet⟩
  induction place generalizing node with
  | nil =>
      refine ⟨node, reaches_nil_iff.2 rfl, ?_⟩
      cases node with
      | file content => simpa [visited, met?, eq_comm] using member
      | link target => simpa [visited, met?, eq_comm] using member
      | folder mode entries =>
          rw [visited] at member
          cases refusal : mode.refusal? with
          | some fault => simpa [refusal, met?, eq_comm] using member
          | none => simp [refusal, mem_visitedBelow_iff] at member
  | cons name rest inductionHypothesis =>
      cases node with
      | file content => simp [visited] at member
      | link target => simp [visited] at member
      | folder mode entries =>
          rw [visited] at member
          cases refusal : mode.refusal? with
          | some fault => simp [refusal] at member
          | none =>
              simp only [refusal] at member
              obtain ⟨_, _, child, same, inside, below⟩ := mem_visitedBelow_iff.1 member
              obtain ⟨rfl, rfl⟩ := List.cons.inj same
              have listed := NameMap.get?_of_mem ordered.entries inside
              obtain ⟨found, reached, isMet⟩ := inductionHypothesis (ordered.child listed) below
              exact ⟨found, reaches_folder_cons_iff.2 ⟨refusal, child, listed, reached⟩, isMet⟩

mutual

theorem pairwise_visited : ∀ node : Node, node.Ordered →
    node.visited.Pairwise fun first second => first.1 < second.1
  | .file content, _ => List.pairwise_singleton _ _
  | .link target, _ => List.pairwise_singleton _ _
  | .folder mode entries, ordered => by
      rw [visited]
      cases mode.refusal? with
      | some fault => exact List.pairwise_singleton _ _
      | none =>
          exact pairwise_visitedBelow entries ordered.entries fun entry member =>
            ordered.child (NameMap.get?_of_mem ordered.entries member)

/-- A walk comes to entries in the order of their places. -/
theorem pairwise_visitedBelow : ∀ entries : NameMap Node,
    NameMap.Ordered entries → (∀ entry ∈ entries, entry.2.Ordered) →
    (visitedBelow entries).Pairwise fun first second => first.1 < second.1
  | [], _, _ => .nil
  | (name, node) :: rest, ordered, children => by
      obtain ⟨before, restOrdered⟩ := List.pairwise_cons.1 ordered
      rw [List.forall_mem_cons] at children
      rw [visitedBelow, List.pairwise_append, List.pairwise_map]
      refine ⟨?_, pairwise_visitedBelow rest restOrdered children.2, ?_⟩
      · apply (pairwise_visited node children.1).imp
        intro first second less
        exact List.cons_lt_cons_iff.2 (.inr ⟨rfl, less⟩)
      · rintro ⟨place, met⟩ member ⟨later, other⟩ memberLater
        obtain ⟨⟨inner, _⟩, _, same⟩ := List.mem_map.1 member
        obtain ⟨rfl, rfl⟩ := Prod.mk.inj same
        obtain ⟨next, tail, child, rfl, inside, _⟩ := mem_visitedBelow_iff.1 memberLater
        exact List.cons_lt_cons_iff.2 (.inl (before (next, child) inside))

end

/-- Whether all folders list names that a path can lead to. -/
def Named (top : Node) : Prop :=
  ∀ place mode entries, top.get? place = some (.folder mode entries) →
    ∀ entry ∈ entries, IsName entry.1

@[simp]
theorem named_file (content : File) : (file content).Named := by
  intro place mode entries found
  cases place <;> simp [get?] at found

@[simp]
theorem named_link (target : Text) : (link target).Named := by
  intro place mode entries found
  cases place <;> simp [get?] at found

theorem Named.of_entries
    {mode : FolderMode} {entries : NameMap Node}
    (names : ∀ entry ∈ entries, IsName entry.1)
    (children : ∀ entry ∈ entries, entry.2.Named) :
    (folder mode entries).Named := by
  intro place mode' entries' found
  cases place with
  | nil =>
      rw [get?_nil, Option.some.injEq, folder.injEq] at found
      rw [← found.2]
      exact names
  | cons name rest =>
      rw [get?_folder_cons, Option.bind_eq_some_iff] at found
      obtain ⟨child, listed, below⟩ := found
      exact children _ (NameMap.mem_of_get? listed) rest mode' entries' below

theorem Named.below
    {top node : Node} {place : Place}
    (named : top.Named)
    (there : top.get? place = some node) :
    node.Named := by
  intro inner mode entries found
  apply named (place ++ inner) mode entries
  rw [get?_append, there, Option.bind_some, found]

/-- Only names lead anywhere. -/
theorem Named.isName_of_get?
    {top node : Node} {place : Place}
    (named : top.Named)
    (there : top.get? place = some node) :
    ∀ name ∈ place, IsName name := by
  intro name member
  obtain ⟨front, back, rfl⟩ := List.append_of_mem member
  rw [get?_append, Option.bind_eq_some_iff] at there
  obtain ⟨inner, found, below⟩ := there
  cases inner with
  | file content => simp [get?] at below
  | link target => simp [get?] at below
  | folder mode entries =>
      rw [get?_folder_cons, Option.bind_eq_some_iff] at below
      obtain ⟨child, listed, _⟩ := below
      exact named front mode entries found _ (NameMap.mem_of_get? listed)

end Node

/-- Whether a file name has one of the given extensions after its last dot, in any ASCII case
and whatever dots the extension is given with. -/
def HasExtension (extensions : List Text) (name : Text) : Prop :=
  ∃ accepted ∈ extensions, ∃ stem extension, stem ≠ [] ∧ '.' ∉ extension ∧
    name = stem ++ '.' :: extension ∧
    extension.map Char.toLower = (accepted.dropWhile (· == '.')).map Char.toLower

theorem acceptsPath_iff
    {extensions : List Text} {path name : Text}
    (named : Path.fileName? path = some name) :
    acceptsPath extensions path = true ↔ HasExtension extensions name := by
  have read : Path.extension? path = (Path.splitName name).2 := by
    rw [Path.extension?, named, Option.bind_some]
  rw [acceptsPath, read]
  constructor
  · intro accepts
    split at accepts
    next none_ => simp at accepts
    next extension found =>
      obtain ⟨accepted, member, same⟩ := List.any_eq_true.1 accepts
      obtain ⟨stem, some_, noDot, whole⟩ := Path.splitName_snd_eq_some_iff.1 found
      exact ⟨accepted, member, stem, extension, some_, noDot, whole, (beq_iff_eq.1 same).symm⟩
  · rintro ⟨accepted, member, stem, extension, some_, noDot, whole, same⟩
    rw [Path.splitName_snd_eq_some_iff.2 ⟨stem, some_, noDot, whole⟩]
    exact List.any_eq_true.2 ⟨accepted, member, beq_iff_eq.2 same.symm⟩

/-- What a path names has a place in the tree, unless the path leads nowhere. -/
theorem Tree.exists_located_of_node?
    {tree : Tree} {path : Text} {node : Node}
    (found : tree.node? path = some node) :
    ∃ place, tree.locate true path = .ok ⟨place, some node⟩ ∧ tree.top.get? place = some node := by
  unfold node? at found
  cases located : tree.locate true path with
  | error fault => simp [located] at found
  | ok target =>
      rw [located] at found
      obtain ⟨place, node?⟩ := target
      obtain rfl : node? = some node := found
      exact ⟨place, rfl, (locate_eq_ok_iff_leads.1 located).2.2.node?_eq.symm⟩

/-- Whether a walk through a folder gets to one that cannot be listed. -/
def Tree.Refuses (tree : Tree) (folder : Text) (place : Place) (fault : Fault) : Prop :=
  ∃ mode entries inner innerEntries,
    tree.node? folder = some (.folder mode entries) ∧
    (Node.folder mode entries).Reaches place (.folder inner innerEntries) ∧
    inner.refusal? = some fault

namespace Listing

/-- What a walk through a project tells of an entry below its folder: the path of a file with an
accepted extension, or why a folder cannot be listed. -/
inductive Tells (listing : Listing) (project : Text) (top : Node) : Place → Listed → Prop where
  | file {place content name} :
      top.Reaches place (.file content) →
      place.getLast? = some name →
      HasExtension listing.extensions name →
      Tells listing project top place
        (.ok ⟨project, Path.join (Path.join listing.base project) (['/'].intercalate place)⟩)
  | refused {place mode entries fault} :
      top.Reaches place (.folder mode entries) →
      mode.refusal? = some fault →
      Tells listing project top place
        (.error (.walk (Path.join listing.base project)
          (.listing (place.foldl Path.join (Path.join listing.base project)) fault)))

/-- The items that a walk through one project consists of: that it is missing, or what there is to
tell of the entries below it, each item once and in the order of the names that lead there. -/
def Lists (listing : Listing) (tree : Tree) (project : Text) (items : List Listed) : Prop :=
  let folder := Path.join listing.base project
  match tree.node? folder with
  | some (.folder mode entries) =>
      ∃ found : List (Place × Listed),
        items = found.map Prod.snd ∧
        items.Nodup ∧
        found.Pairwise (fun first second => first.1 < second.1) ∧
        ∀ place item,
          (place, item) ∈ found ↔ listing.Tells project (.folder mode entries) place item
  | _ => items = [.error (.missingRoot folder)]

variable {listing : Listing} {tree : Tree} {project : Text} {mode : FolderMode}
  {entries : NameMap Node} {place other : Place} {item : Listed} {top : Node}

/-- The path of what an item of a walk tells of, if it is below a project. -/
def toldPath : Listed → Text
  | .ok entry => entry.path
  | .error (.walk _ (.listing path _)) => path
  | .error _ => []

theorem Tells.toldPath_eq
    (named : top.Named)
    (tells : listing.Tells project top place item) :
    (∀ name ∈ place, IsName name) ∧
      toldPath item = place.foldl Path.join (Path.join listing.base project) := by
  cases tells with
  | file reached last accepted =>
      have names := named.isName_of_get? reached.1
      have nonempty : place ≠ [] := by
        rintro rfl
        simp at last
      exact ⟨names, (Path.foldl_join names nonempty _).symm⟩
  | refused reached refusal => exact ⟨named.isName_of_get? reached.1, rfl⟩

theorem Tells.place_inj
    (named : top.Named)
    (tells : listing.Tells project top place item)
    (tellsToo : listing.Tells project top other item) :
    place = other := by
  obtain ⟨names, path⟩ := tells.toldPath_eq named
  obtain ⟨namesToo, pathToo⟩ := tellsToo.toldPath_eq named
  exact Path.foldl_join_inj names namesToo (path.symm.trans pathToo)

theorem item?_file_eq_some_iff
    {content : File} {name : Text}
    (names : ∀ name ∈ place, IsName name)
    (last : place.getLast? = some name) :
    listing.item? project (place, .ok (.file content)) = some item ↔
      HasExtension listing.extensions name ∧
        item = .ok ⟨project,
          Path.join (Path.join listing.base project) (['/'].intercalate place)⟩ := by
  have nonempty : place ≠ [] := by
    rintro rfl
    simp at last
  have read := Path.fileName?_foldl_join names last (Path.join listing.base project)
  rw [item?, ← acceptsPath_iff read, Path.foldl_join names nonempty]
  split
  next accepts => simp [accepts, eq_comm]
  next refuses => simp [refuses]

/-- What a walk makes of what it comes to is what there is to tell. -/
theorem mem_visited_item_iff
    (ordered : (Node.folder mode entries).Ordered)
    (named : (Node.folder mode entries).Named) :
    (∃ met, (place, met) ∈ (Node.folder mode entries).visited ∧
        listing.item? project (place, met) = some item) ↔
      listing.Tells project (.folder mode entries) place item := by
  constructor
  · rintro ⟨met, member, told⟩
    obtain ⟨found, reached, isMet⟩ := (Node.mem_visited_iff ordered).1 member
    cases met with
    | error fault =>
        obtain ⟨inner, innerEntries, rfl, refusal⟩ := Node.met?_eq_error_iff.1 isMet
        rw [item?, Option.some.injEq] at told
        exact told ▸ .refused reached refusal
    | ok node =>
        cases node with
        | link target => simp [item?] at told
        | folder inner innerEntries => simp [item?] at told
        | file content =>
            obtain rfl := Node.met?_eq_file_iff.1 isMet
            have nonempty : place ≠ [] := by
              rintro rfl
              simp [Node.reaches_nil_iff] at reached
            have last := List.getLast?_eq_some_getLast nonempty
            obtain ⟨accepted, rfl⟩ :=
              (item?_file_eq_some_iff (named.isName_of_get? reached.1) last).1 told
            exact .file reached last accepted
  · rintro (⟨reached, last, accepted⟩ | ⟨reached, refusal⟩)
    · exact ⟨_, Node.mem_visited_of_reaches reached (Node.met?_eq_file_iff.2 rfl),
        (item?_file_eq_some_iff (named.isName_of_get? reached.1) last).2 ⟨accepted, rfl⟩⟩
    · exact ⟨_, Node.mem_visited_of_reaches reached
        (Node.met?_eq_error_iff.2 ⟨_, _, rfl, refusal⟩), rfl⟩

theorem walkProject_eq
    (found : tree.node? (Path.join listing.base project) = some (.folder mode entries)) :
    listing.walkProject tree project =
      (Node.folder mode entries).visited.filterMap (listing.item? project) := by
  rw [walkProject]
  simp only [found]

theorem lists_walkProject
    (ordered : tree.top.Ordered)
    (named : tree.top.Named) (project : Text) :
    listing.Lists tree project (listing.walkProject tree project) := by
  unfold Lists
  dsimp only
  split
  next mode entries found =>
    obtain ⟨root, _, there⟩ := tree.exists_located_of_node? found
    have below := ordered.below there
    have namedBelow := named.below there
    -- The place of what is met is kept beside its item, as items alone do not show their order.
    let told := (Node.folder mode entries).visited.filterMap fun visit =>
      (listing.item? project visit).map (visit.1, ·)
    have mem_told_iff : ∀ place item, (place, item) ∈ told ↔
        listing.Tells project (.folder mode entries) place item := by
      intro place item
      rw [← mem_visited_item_iff below namedBelow, List.mem_filterMap]
      simp only [Option.map_eq_some_iff, Prod.exists, Prod.mk.injEq]
      constructor
      · rintro ⟨_, met, member, _, picked, rfl, rfl⟩
        exact ⟨met, member, picked⟩
      · rintro ⟨met, member, picked⟩
        exact ⟨place, met, member, item, picked, rfl, rfl⟩
    have sorted : told.Pairwise fun first second => first.1 < second.1 := by
      rw [List.pairwise_filterMap]
      apply (Node.pairwise_visited _ below).imp
      rintro first second less _ picked _ pickedLater
      obtain ⟨_, _, rfl⟩ := Option.map_eq_some_iff.1 picked
      obtain ⟨_, _, rfl⟩ := Option.map_eq_some_iff.1 pickedLater
      exact less
    have items : listing.walkProject tree project = told.map Prod.snd := by
      rw [walkProject_eq found, List.map_filterMap]
      congr 1
      funext visit
      cases listing.item? project visit <;> rfl
    refine ⟨told, items, ?_, sorted, mem_told_iff⟩
    rw [items]
    have distinct : told.Nodup := sorted.imp fun less same => less.ne (by rw [same])
    apply distinct.map_on
    rintro ⟨place, item⟩ member ⟨other, _⟩ memberToo rfl
    have tells := (mem_told_iff place item).1 member
    rw [tells.place_inj namedBelow ((mem_told_iff other item).1 memberToo)]
  next missing =>
    rw [walkProject]
    split
    next mode entries found => exact absurd found (missing mode entries)
    · rfl

/-- A folder below a project that cannot be listed is told of. -/
theorem refusal_mem_walk
    {fault : Fault}
    (isProject : project ∈ listing.projects)
    (refuses : tree.Refuses (Path.join listing.base project) place fault) :
    .error (.walk (Path.join listing.base project)
      (.listing (place.foldl Path.join (Path.join listing.base project)) fault)) ∈
        listing.walk tree := by
  obtain ⟨mode, entries, inner, innerEntries, found, reached, refusal⟩ := refuses
  apply List.mem_flatMap.2 ⟨project, isProject, _⟩
  rw [walkProject_eq found, List.mem_filterMap]
  exact ⟨(place, .error fault), Node.mem_visited_of_reaches reached
    (Node.met?_eq_error_iff.2 ⟨inner, innerEntries, rfl, refusal⟩), rfl⟩

/-- The walk goes through the projects in turn and lists of each one what it has to. -/
theorem walk_lists_projects
    (ordered : tree.top.Ordered)
    (named : tree.top.Named) (listing : Listing) :
    ∃ parts, listing.walk tree = parts.flatten ∧
      List.Forall₂ (listing.Lists tree) listing.projects parts := by
  refine ⟨listing.projects.map (listing.walkProject tree), ?_, ?_⟩
  · rw [walk, List.flatMap_def]
  · rw [List.forall₂_map_right_iff, List.forall₂_same]
    exact fun project _ => lists_walkProject ordered named project

/-- A file that includes a header. -/
def includingFile : File :=
  ⟨encode "#include <x>\nint a;\n".toList, 0o644⟩

/-- A project with a folder of its own name before the dot, a link and a file of another kind. -/
def nestedEntries : NameMap Node :=
  [("a".toList, .folder Node.folderMode [("x.H".toList, .file ⟨.empty, 0o644⟩)]),
    ("a.h".toList, .file includingFile),
    ("b.h".toList, .link "a.h".toList),
    ("c.txt".toList, .file includingFile)]

/-- A project with a folder that cannot be listed. -/
def closedEntries : NameMap Node :=
  [("d".toList, .folder ⟨0o300, some .permissionDenied⟩ [("y.h".toList, .file ⟨.empty, 0o644⟩)]),
    ("e.h".toList, .file ⟨.empty, 0o644⟩)]

def nestedTree : Tree :=
  ⟨.folder Node.folderMode
    [("p".toList, .folder Node.folderMode nestedEntries),
      ("r".toList, .folder Node.folderMode closedEntries)], []⟩

def nestedListing : Listing :=
  ⟨".".toList, ["p".toList, "q".toList, "r".toList], ["..h".toList]⟩

theorem ordered_nestedTree : nestedTree.top.Ordered := by
  have names : NameMap.Ordered nestedEntries := by
    unfold NameMap.Ordered
    decide
  have inner : ∀ entry ∈ nestedEntries, entry.2.Ordered := by
    simp only [nestedEntries, List.forall_mem_cons, Node.ordered_file, Node.ordered_link]
    refine ⟨.of_entries (List.pairwise_singleton _ _) ?_, trivial, trivial, trivial, by simp⟩
    simp
  have closedNames : NameMap.Ordered closedEntries := List.pairwise_pair.2 (by decide)
  have closed : ∀ entry ∈ closedEntries, entry.2.Ordered := by
    simp only [closedEntries, List.forall_mem_cons, Node.ordered_file]
    refine ⟨.of_entries (List.pairwise_singleton _ _) ?_, trivial, by simp⟩
    simp
  apply Node.Ordered.of_entries (List.pairwise_pair.2 (by decide))
  rw [List.forall_mem_cons, List.forall_mem_singleton]
  exact ⟨.of_entries names inner, .of_entries closedNames closed⟩

theorem named_nestedTree : nestedTree.top.Named := by
  have names : ∀ entry ∈ nestedEntries, IsName entry.1 := by decide
  have inner : ∀ entry ∈ nestedEntries, entry.2.Named := by
    simp only [nestedEntries, List.forall_mem_cons, Node.named_file, Node.named_link]
    refine ⟨.of_entries (by decide) ?_, trivial, trivial, trivial, by simp⟩
    simp
  have closedNames : ∀ entry ∈ closedEntries, IsName entry.1 := by decide
  have closed : ∀ entry ∈ closedEntries, entry.2.Named := by
    simp only [closedEntries, List.forall_mem_cons, Node.named_file]
    refine ⟨.of_entries (by decide) ?_, trivial, by simp⟩
    simp
  apply Node.Named.of_entries (by decide)
  rw [List.forall_mem_cons, List.forall_mem_singleton]
  exact ⟨.of_entries names inner, .of_entries closedNames closed⟩

theorem walk_lists_projects_of_nestedTree :
    (∃ parts, nestedListing.walk nestedTree = parts.flatten ∧
      List.Forall₂ (nestedListing.Lists nestedTree) nestedListing.projects parts) ∧
    nestedListing.walk nestedTree =
      [.ok ⟨"p".toList, "./p/a/x.H".toList⟩, .ok ⟨"p".toList, "./p/a.h".toList⟩,
        .error (.missingRoot "./q".toList),
        .error (.walk "./r".toList (.listing "./r/d".toList .permissionDenied)),
        .ok ⟨"r".toList, "./r/e.h".toList⟩] :=
  ⟨walk_lists_projects ordered_nestedTree named_nestedTree nestedListing, by decide +kernel⟩

end Listing

end Upkeep
