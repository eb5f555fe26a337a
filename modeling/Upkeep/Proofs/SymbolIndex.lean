import Mathlib.Data.List.Dedup
import Mathlib.Data.List.Perm.Basic
import Upkeep.Proofs.Tree.Flat
import Upkeep.SymbolIndex

/-!
What the index of listed files says.  The first fault in the list ends it; without one, a type
belongs to the project of the last file that declares it.
-/

namespace Upkeep

namespace SymbolIndex

/-- Why nothing is read at an entry of the list. -/
def fault? (tree : Tree) : Listed → Option SourceError
  | .error error => some error
  | .ok entry =>
      match SourceFile.read tree entry.path with
      | .error error => some error
      | .ok _ => none

/-- The declarations of the file at an entry of the list. -/
def declarationsOf (tree : Tree) : Listed → List Declaration
  | .error _ => []
  | .ok entry =>
      match SourceFile.read tree entry.path with
      | .error _ => []
      | .ok file => scan file.content

def typesOf (tree : Tree) (item : Listed) : List Text :=
  ((declarationsOf tree item).filter fun declaration => declaration.kind.isType).map
    Declaration.name

def scopesOf (tree : Tree) (item : Listed) : List Text :=
  ((declarationsOf tree item).filter fun declaration => !declaration.kind.isType).map
    Declaration.name

/-- The project of an entry whose file declares a type. -/
def origin? (tree : Tree) (name : Text) : Listed → Option Text
  | .error _ => none
  | .ok entry => if (typesOf tree (.ok entry)).contains name then some entry.project else none

/-- Record the declarations of the file at an entry of the list. -/
def recordListed (tree : Tree) (index : SymbolIndex) : Listed → SymbolIndex
  | .error _ => index
  | .ok entry => (declarationsOf tree (.ok entry)).foldl (record entry.project) index

variable {tree : Tree} {index : SymbolIndex} {listed : List Listed} {name project : Text}

theorem extend_eq (tree : Tree) (index : SymbolIndex) (listed : List Listed) :
    extend tree index listed =
      match listed.findSome? (fault? tree) with
      | some error => .error error
      | none => .ok (listed.foldl (recordListed tree) index) := by
  induction listed generalizing index with
  | nil => rfl
  | cons item rest inductionHypothesis =>
      cases item with
      | error error => rfl
      | ok entry =>
          rw [extend, List.findSome?_cons, List.foldl_cons, recordListed, declarationsOf, fault?]
          cases SourceFile.read tree entry.path with
          | error error => rfl
          | ok file => exact inductionHypothesis _

theorem provenance?_record (declaration : Declaration) :
    (record project index declaration).provenance? name =
      if declaration.kind.isType = true ∧ declaration.name = name then some project
      else index.provenance? name := by
  unfold record
  by_cases isType : declaration.kind.isType = true
  · by_cases same : declaration.name = name
    · subst same
      simp [isType, insert, provenance?]
    · simp [isType, same, insert, provenance?, NameMap.get?_set_of_ne (Ne.symm same)]
  · simp [isType, insertScope, provenance?]

theorem isScope_record (declaration : Declaration) :
    (record project index declaration).isScope name =
      (decide (declaration.kind.isType = false ∧ declaration.name = name) || index.isScope name) := by
  unfold record
  by_cases isType : declaration.kind.isType = true
  · simp [isType, insert, isScope]
  · by_cases same : declaration.name = name
    · subst same
      simp [isType, insertScope, isScope]
    · simp [isType, same, insertScope, isScope, NameMap.get?_set_of_ne (Ne.symm same)]

/-- Both maps of an index list their names in order. -/
def Ordered (index : SymbolIndex) : Prop :=
  NameMap.Ordered index.projects ∧ NameMap.Ordered index.scopes

theorem Ordered.record
    (ordered : index.Ordered) (project : Text) (declaration : Declaration) :
    (SymbolIndex.record project index declaration).Ordered := by
  unfold SymbolIndex.record
  split
  · exact ⟨NameMap.ordered_set ordered.1 _ _, ordered.2⟩
  · exact ⟨ordered.1, NameMap.ordered_set ordered.2 _ _⟩

/-- An index is known once the origin of each type and the names of the scopes are. -/
theorem eq_of_lookups
    {other : SymbolIndex}
    (ordered : index.Ordered)
    (orderedOther : other.Ordered)
    (types : ∀ name, index.provenance? name = other.provenance? name)
    (scopes : ∀ name, index.isScope name = other.isScope name) :
    index = other := by
  have sameScopes : ∀ name, NameMap.get? name index.scopes = NameMap.get? name other.scopes := by
    intro name
    have same := scopes name
    rw [isScope, isScope] at same
    cases first : NameMap.get? name index.scopes <;>
      cases second : NameMap.get? name other.scopes <;> simp [first, second] at same ⊢
  obtain ⟨projects, scopes⟩ := index
  obtain ⟨projectsOther, scopesOther⟩ := other
  rw [mk.injEq]
  exact ⟨NameMap.eq_of_get? ordered.1 orderedOther.1 types,
    NameMap.eq_of_get? ordered.2 orderedOther.2 sameScopes⟩

theorem provenance?_foldl_record (declarations : List Declaration) :
    (declarations.foldl (record project) index).provenance? name =
      if name ∈ (declarations.filter fun declaration => declaration.kind.isType).map Declaration.name
      then some project else index.provenance? name := by
  induction declarations generalizing index with
  | nil => simp
  | cons declaration rest inductionHypothesis =>
      have members : name ∈ ((declaration :: rest).filter fun other => other.kind.isType).map
            Declaration.name ↔
          (declaration.kind.isType = true ∧ declaration.name = name) ∨
            name ∈ (rest.filter fun other => other.kind.isType).map Declaration.name := by
        rw [List.filter_cons]
        split
        next isType => simp [isType, eq_comm (a := name)]
        next isScope => simp [isScope]
      rw [List.foldl_cons, inductionHypothesis, provenance?_record]
      by_cases later : name ∈ (rest.filter fun other => other.kind.isType).map Declaration.name
      · rw [if_pos later, if_pos (members.2 (.inr later))]
      · by_cases here : declaration.kind.isType = true ∧ declaration.name = name
        · rw [if_neg later, if_pos here, if_pos (members.2 (.inl here))]
        · have absent := members.not.2 (not_or.2 ⟨here, later⟩)
          rw [if_neg later, if_neg here, if_neg absent]

theorem isScope_foldl_record (declarations : List Declaration) :
    (declarations.foldl (record project) index).isScope name = true ↔
      name ∈ (declarations.filter fun declaration => !declaration.kind.isType).map
        Declaration.name ∨ index.isScope name = true := by
  induction declarations generalizing index with
  | nil => simp
  | cons declaration rest inductionHypothesis =>
      rw [List.foldl_cons, inductionHypothesis, isScope_record, List.filter_cons]
      by_cases isType : declaration.kind.isType = true
      · simp [isType]
      · by_cases same : declaration.name = name
        · simp [isType, same]
        · simp [isType, same, Ne.symm same]

theorem Ordered.foldl_record
    (ordered : index.Ordered) (project : Text) (declarations : List Declaration) :
    (declarations.foldl (SymbolIndex.record project) index).Ordered := by
  induction declarations generalizing index with
  | nil => exact ordered
  | cons declaration rest inductionHypothesis =>
      exact inductionHypothesis (ordered.record project declaration)

theorem provenance?_recordListed (item : Listed) :
    (recordListed tree index item).provenance? name =
      (origin? tree name item).or (index.provenance? name) := by
  cases item with
  | error error => rfl
  | ok entry =>
      rw [recordListed, provenance?_foldl_record, origin?, typesOf]
      simp only [List.contains_iff_mem]
      split <;> rfl

theorem isScope_recordListed (item : Listed) :
    (recordListed tree index item).isScope name = true ↔
      name ∈ scopesOf tree item ∨ index.isScope name = true := by
  cases item with
  | error error => simp [recordListed, scopesOf, declarationsOf]
  | ok entry => exact isScope_foldl_record _

theorem Ordered.recordListed
    (ordered : index.Ordered) (tree : Tree) (item : Listed) :
    (SymbolIndex.recordListed tree index item).Ordered := by
  cases item with
  | error error => exact ordered
  | ok entry => exact ordered.foldl_record _ _

/-- The last entry that declares a type is its origin. -/
theorem provenance?_foldl_recordListed (listed : List Listed) :
    (listed.foldl (recordListed tree) index).provenance? name =
      (listed.filterMap (origin? tree name)).getLast?.or (index.provenance? name) := by
  induction listed generalizing index with
  | nil => rfl
  | cons item rest inductionHypothesis =>
      rw [List.foldl_cons, inductionHypothesis, provenance?_recordListed, ← Option.or_assoc]
      cases declares : origin? tree name item with
      | none => rw [List.filterMap_cons_none declares, Option.or_none]
      | some project =>
          rw [List.filterMap_cons_some declares, List.getLast?_cons]
          cases (rest.filterMap (origin? tree name)).getLast? <;> rfl

theorem isScope_foldl_recordListed (listed : List Listed) :
    (listed.foldl (recordListed tree) index).isScope name = true ↔
      (∃ item ∈ listed, name ∈ scopesOf tree item) ∨ index.isScope name = true := by
  induction listed generalizing index with
  | nil => simp
  | cons item rest inductionHypothesis =>
      rw [List.foldl_cons, inductionHypothesis, isScope_recordListed, List.exists_mem_cons_iff,
        or_left_comm, or_assoc]

theorem Ordered.foldl_recordListed
    (ordered : index.Ordered) (tree : Tree) (listed : List Listed) :
    (listed.foldl (SymbolIndex.recordListed tree) index).Ordered := by
  induction listed generalizing index with
  | nil => exact ordered
  | cons item rest inductionHypothesis => exact inductionHypothesis (ordered.recordListed tree item)

theorem ordered_empty : empty.Ordered :=
  ⟨.nil, .nil⟩

/-- The index of listed files, faults aside. -/
def ofListed (tree : Tree) (listed : List Listed) : SymbolIndex :=
  listed.foldl (recordListed tree) empty

theorem build_eq (tree : Tree) (listed : List Listed) :
    build tree listed =
      match listed.findSome? (fault? tree) with
      | some error => .error error
      | none => .ok (ofListed tree listed) :=
  extend_eq tree empty listed

theorem provenance?_ofListed (tree : Tree) (listed : List Listed) (name : Text) :
    (ofListed tree listed).provenance? name =
      (listed.filterMap (origin? tree name)).getLast? := by
  rw [ofListed, provenance?_foldl_recordListed]
  exact Option.or_none

theorem isScope_ofListed (tree : Tree) (listed : List Listed) (name : Text) :
    (ofListed tree listed).isScope name = true ↔ ∃ item ∈ listed, name ∈ scopesOf tree item := by
  rw [ofListed, isScope_foldl_recordListed]
  exact or_iff_left Bool.false_ne_true

theorem origin?_eq_some_iff {item : Listed} :
    origin? tree name item = some project ↔
      name ∈ typesOf tree item ∧ ∃ entry, item = .ok entry ∧ entry.project = project := by
  cases item with
  | error error => simp [origin?]
  | ok entry =>
      rw [origin?]
      simp only [List.contains_iff_mem]
      split
      next declared => simp [declared]
      next absent => simp [absent]

theorem isKnownType_ofListed (tree : Tree) (listed : List Listed) (name : Text) :
    (ofListed tree listed).isKnownType name = true ↔ ∃ item ∈ listed, name ∈ typesOf tree item := by
  rw [isKnownType, provenance?_ofListed, List.getLast?_isSome]
  constructor
  · intro nonempty
    obtain ⟨project, member⟩ := List.exists_mem_of_ne_nil _ nonempty
    obtain ⟨item, listedItem, declares⟩ := List.mem_filterMap.1 member
    exact ⟨item, listedItem, (origin?_eq_some_iff.1 declares).1⟩
  · rintro ⟨item, listedItem, declared⟩
    cases item with
    | error error => simp [typesOf, declarationsOf] at declared
    | ok entry =>
        have declares := origin?_eq_some_iff.2 ⟨declared, entry, rfl, rfl⟩
        exact List.ne_nil_of_mem (List.mem_filterMap.2 ⟨.ok entry, listedItem, declares⟩)

theorem size_ofListed (tree : Tree) (listed : List Listed) :
    (ofListed tree listed).size = (listed.flatMap (typesOf tree)).dedup.length := by
  have ordered : (ofListed tree listed).Ordered := ordered_empty.foldl_recordListed tree listed
  have names : ((ofListed tree listed).projects.map Prod.fst).Perm
      (listed.flatMap (typesOf tree)).dedup := by
    rw [List.perm_ext_iff_of_nodup (NameMap.nodup_names ordered.1) (List.nodup_dedup _)]
    intro name
    rw [NameMap.mem_names_iff, List.mem_dedup, List.mem_flatMap]
    exact isKnownType_ofListed tree listed name
  rw [size, ← names.length_eq, List.length_map]

/-- Among entries of one project the order does not matter. -/
theorem ofListed_of_perm
    {block other : List Listed}
    (perm : block.Perm other)
    (sameProject : ∀ entry, .ok entry ∈ block → entry.project = project)
    (front back : List Listed) :
    ofListed tree (front ++ other ++ back) = ofListed tree (front ++ block ++ back) := by
  have all : (front ++ other ++ back).Perm (front ++ block ++ back) :=
    (perm.symm.append_left front).append_right back
  have origins : ∀ name,
      other.filterMap (origin? tree name) = block.filterMap (origin? tree name) := by
    intro name
    have one : ∀ found ∈ block.filterMap (origin? tree name), found = project := by
      intro found member
      obtain ⟨item, inBlock, declares⟩ := List.mem_filterMap.1 member
      obtain ⟨_, entry, rfl, rfl⟩ := origin?_eq_some_iff.1 declares
      exact sameProject entry inBlock
    have permOrigins := perm.filterMap (origin? tree name)
    rw [List.eq_replicate_of_mem one, List.eq_replicate_of_mem fun found member =>
      one found (permOrigins.mem_iff.2 member), permOrigins.length_eq]
  apply eq_of_lookups (ordered_empty.foldl_recordListed tree _)
    (ordered_empty.foldl_recordListed tree _)
  · intro name
    rw [← ofListed, ← ofListed, provenance?_ofListed, provenance?_ofListed]
    simp only [List.filterMap_append, origins]
  · intro name
    rw [← ofListed, ← ofListed, Bool.eq_iff_iff, isScope_ofListed, isScope_ofListed]
    exact exists_congr fun item => and_congr_left' all.mem_iff

theorem findSome?_fault?_eq_none_iff_of_perm
    {first second : List Listed}
    (perm : first.Perm second) (tree : Tree) :
    first.findSome? (fault? tree) = none ↔ second.findSome? (fault? tree) = none := by
  rw [List.findSome?_eq_none_iff, List.findSome?_eq_none_iff]
  exact forall_congr' fun item => imp_congr_left perm.mem_iff

/-- The first fault in the list ends the index.  Without one the last declaration of a type wins,
scopes are kept apart from types, and entries of one project may stand in any order. -/
theorem build_keeps_last_declaration (tree : Tree) (listed : List Listed) :
    (∀ error, listed.findSome? (fault? tree) = some error → build tree listed = .error error) ∧
    (listed.findSome? (fault? tree) = none → ∃ index, build tree listed = .ok index ∧
      (∀ name, index.provenance? name = (listed.filterMap (origin? tree name)).getLast?) ∧
      (∀ name, index.isKnownType name = true ↔ ∃ item ∈ listed, name ∈ typesOf tree item) ∧
      (∀ name, index.isScope name = true ↔ ∃ item ∈ listed, name ∈ scopesOf tree item) ∧
      index.size = (listed.flatMap (typesOf tree)).dedup.length) ∧
    (∀ front block other back project, listed = front ++ block ++ back → block.Perm other →
      (∀ entry, .ok entry ∈ block → entry.project = project) →
        (build tree (front ++ other ++ back)).toOption = (build tree listed).toOption) := by
  refine ⟨?_, ?_, ?_⟩
  · intro error first
    rw [build_eq, first]
  · intro faultless
    refine ⟨ofListed tree listed, ?_, provenance?_ofListed tree listed,
      isKnownType_ofListed tree listed, isScope_ofListed tree listed, size_ofListed tree listed⟩
    rw [build_eq, faultless]
  · rintro front block other back project rfl perm sameProject
    have all : (front ++ other ++ back).Perm (front ++ block ++ back) :=
      (perm.symm.append_left front).append_right back
    have faults := findSome?_fault?_eq_none_iff_of_perm all tree
    rw [build_eq, build_eq, ofListed_of_perm perm sameProject]
    cases first : (front ++ block ++ back).findSome? (fault? tree) with
    | none => rw [faults.2 first]
    | some error =>
        cases second : (front ++ other ++ back).findSome? (fault? tree) with
        | none =>
            rw [faults.1 second] at first
            cases first
        | some error => rfl

/-- Two projects declare one type, which the second one also opens as a scope. -/
def sharedTypeTree : Tree :=
  .ofTexts [("a.h".toList, "class A;\n".toList),
    ("b.h".toList, "class A;\nnamespace A \x7b\n".toList)]

def sharedTypeFiles : List Listed :=
  [.ok ⟨"x".toList, "a.h".toList⟩, .ok ⟨"y".toList, "b.h".toList⟩]

theorem build_keeps_last_declaration_of_sharedTypeTree :
    sharedTypeFiles.findSome? (fault? sharedTypeTree) = none ∧
    ∃ index, build sharedTypeTree sharedTypeFiles = .ok index ∧
      index.provenance? "A".toList = some "y".toList ∧ index.isScope "A".toList = true := by
  have first : SourceFile.read sharedTypeTree "a.h".toList =
      .ok ⟨"a.h".toList, "class A;\n".toList⟩ :=
    Tree.read_ofTexts (by decide) (by decide) (by decide) (by decide)
  have second : SourceFile.read sharedTypeTree "b.h".toList =
      .ok ⟨"b.h".toList, "class A;\nnamespace A \x7b\n".toList⟩ :=
    Tree.read_ofTexts (by decide) (by decide) (by decide) (by decide)
  have faultless : sharedTypeFiles.findSome? (fault? sharedTypeTree) = none := by
    simp only [sharedTypeFiles, List.findSome?_cons, fault?, first, second, List.findSome?_nil]
  have scanned : scan "class A;\n".toList = [⟨"A".toList, .classType, 0⟩] ∧
      scan "class A;\nnamespace A \x7b\n".toList =
        [⟨"A".toList, .classType, 0⟩, ⟨"A".toList, .scope, 1⟩] := by
    decide +kernel
  refine ⟨faultless, ?_⟩
  obtain ⟨index, built, origins, _, scopes, _⟩ :=
    (build_keeps_last_declaration sharedTypeTree sharedTypeFiles).2.1 faultless
  refine ⟨index, built, ?_, ?_⟩
  · rw [origins]
    simp only [sharedTypeFiles, List.filterMap_cons, origin?, typesOf, declarationsOf, first,
      second, scanned]
    decide
  · rw [scopes]
    refine ⟨.ok ⟨"y".toList, "b.h".toList⟩, by simp [sharedTypeFiles], ?_⟩
    simp only [scopesOf, declarationsOf, second, scanned]
    decide

end SymbolIndex

end Upkeep
