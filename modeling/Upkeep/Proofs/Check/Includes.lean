import Upkeep.Check.Includes
import Upkeep.Proofs.Rule.Candidates
import Upkeep.Proofs.Source.DirectiveForm
import Upkeep.Proofs.Source.Template
import Upkeep.Proofs.Tree.Flat
import Upkeep.Proofs.Tree.Change

/-!
The includes that the check warns about.  There is one warning for each include that leads nowhere,
in the order of the lines, and more projects and more files can only make warnings go away.
-/

namespace Upkeep

variable {tree bigger : Tree} {projects larger : List Text} {path target line : Text}
  {kind : LineKind} {number : Nat} {warning : Warning}

theorem Tree.isFile_eq_isSome_file? (tree : Tree) (path : Text) :
    tree.isFile path = (tree.file? path).isSome := by
  unfold isFile file?
  cases tree.node? path with
  | none => rfl
  | some node => cases node <;> rfl

/-- A path names a file still where everything is still there. -/
theorem Tree.file?_eq_none_of_keeps
    (keeps : tree.top.Keeps bigger.top)
    (sameStart : bigger.workingDir = tree.workingDir)
    (missing : bigger.file? path = none) :
    tree.file? path = none := by
  have changed : tree.ChangedWithin (fun _ => True) bigger :=
    ⟨⟨keeps, fun _ untouched => absurd trivial untouched⟩, sameStart⟩
  cases named : tree.file? path with
  | none => rfl
  | some file =>
      obtain ⟨place, located⟩ := Tree.file?_eq_some_iff_locate.1 named
      obtain ⟨bytes, locatedToo⟩ := changed.locate_file located
      rw [Tree.file?_eq_some_iff_locate.2 ⟨place, locatedToo⟩] at missing
      cases missing

theorem exists_first_part_iff :
    (∃ first rest, target = first ++ '/' :: rest ∧ '/' ∉ first ∧ first ∉ projects) ↔
      '/' ∈ target ∧ firstPart target ∉ projects := by
  have part : ∀ first rest : Text, '/' ∉ first → firstPart (first ++ '/' :: rest) = first := by
    intro first rest noSlash
    rw [firstPart, List.takeWhile_append_of_pos, List.takeWhile_cons_of_neg, List.append_nil]
    · simp
    · intro c member
      rw [bne_iff_ne]
      rintro rfl
      exact noSlash member
  constructor
  · rintro ⟨first, rest, rfl, noSlash, unknown⟩
    rw [part first rest noSlash]
    exact ⟨by simp, unknown⟩
  · rintro ⟨slash, unknown⟩
    obtain ⟨first, rest, rfl, noSlash⟩ := List.eq_append_cons_of_mem slash
    rw [part first rest noSlash] at unknown
    exact ⟨first, rest, rfl, noSlash, unknown⟩

/-- Whether a target leads nowhere: it has a slash, what stands before the first one is no project,
and seen from the folder of the including file there is no such file. -/
structure LeadsNowhere (projects : List Text) (tree : Tree) (path target : Text) : Prop where
  noProject : ∃ first rest, target = first ++ '/' :: rest ∧ '/' ∉ first ∧ first ∉ projects
  noFile : ∀ folder, Path.parent? path = some folder → tree.file? (Path.join folder target) = none

theorem existsBeside_eq_false_iff :
    existsBeside tree path target = false ↔
      ∀ folder, Path.parent? path = some folder →
        tree.file? (Path.join folder target) = none := by
  unfold existsBeside
  cases Path.parent? path with
  | none => simp
  | some folder => simp [Tree.isFile_eq_isSome_file?]

theorem resolves_eq_false_iff :
    resolves projects tree path target = false ↔ LeadsNowhere projects tree path target := by
  rw [resolves, Bool.or_eq_false_iff, Bool.or_eq_false_iff, existsBeside_eq_false_iff]
  constructor
  · rintro ⟨⟨slash, unknown⟩, noFile⟩
    refine ⟨exists_first_part_iff.2 ⟨?_, ?_⟩, noFile⟩
    · simpa using slash
    · simpa using unknown
  · rintro ⟨noProject, noFile⟩
    obtain ⟨slash, unknown⟩ := exists_first_part_iff.1 noProject
    refine ⟨⟨?_, ?_⟩, noFile⟩
    · simpa using slash
    · simpa using unknown

/-- More projects and more files let no fewer targets lead somewhere. -/
theorem LeadsNowhere.anti
    (more : projects ⊆ larger)
    (keeps : tree.top.Keeps bigger.top)
    (sameStart : bigger.workingDir = tree.workingDir)
    (nowhere : LeadsNowhere larger bigger path target) :
    LeadsNowhere projects tree path target where
  noProject := by
    obtain ⟨first, rest, split, noSlash, unknown⟩ := nowhere.noProject
    exact ⟨first, rest, split, noSlash, fun known => unknown (more known)⟩
  noFile := by
    intro folder isParent
    exact Tree.file?_eq_none_of_keeps keeps sameStart (nowhere.noFile folder isParent)

theorem includeWarning?_eq_some_iff :
    includeWarning? projects tree path ((line, kind), number) = some warning ↔
      kind = .preprocessor ∧ ∃ target,
        IncludesFile target line ∧ LeadsNowhere projects tree path target ∧
        warning = ⟨path, some number, .unresolvedReference,
          "unresolved include \"".toList ++ target ++ ['"']⟩ := by
  simp only [← includeTarget?_eq_some_iff, ← resolves_eq_false_iff, includeWarning?]
  by_cases isDirective : kind = .preprocessor
  · simp only [isDirective, if_true, true_and]
    cases includeTarget? line with
    | none => simp
    | some target =>
        simp only [Option.some.injEq, exists_eq_left']
        cases resolves projects tree path target with
        | true => simp
        | false => simp only [Bool.false_eq_true, if_false, Option.some.injEq, true_and, eq_comm]
  · simp [isDirective]

theorem filterMap_sublist_filterMap
    {Item Seen : Type} {few many : Item → Option Seen}
    (kept : ∀ item seen, few item = some seen → many item = some seen) (items : List Item) :
    (items.filterMap few).Sublist (items.filterMap many) := by
  induction items with
  | nil => exact .slnil
  | cons item items inductionHypothesis =>
      cases found : few item with
      | none =>
          rw [List.filterMap_cons_none found]
          cases foundToo : many item with
          | none => rwa [List.filterMap_cons_none foundToo]
          | some seen =>
              rw [List.filterMap_cons_some foundToo]
              exact inductionHypothesis.cons seen
      | some seen =>
          rw [List.filterMap_cons_some found, List.filterMap_cons_some (kept item seen found)]
          exact inductionHypothesis.cons_cons seen

section

variable (projects : List Text) (tree : Tree) (file : SourceFile)

theorem warnings_checkIncludes :
    (checkIncludes projects).warnings tree file =
      ((classifiedLines file.content).zipIdx).filterMap
        (includeWarning? projects tree file.path) :=
  rfl

theorem exists_numbers_warnings_checkIncludes :
    ∃ numbers : List Nat,
      ((checkIncludes projects).warnings tree file).map Warning.line = numbers.map some ∧
      numbers.Pairwise (· < ·) := by
  refine ⟨((classifiedLines file.content).zipIdx).filterMap
    fun entry => (includeWarning? projects tree file.path entry).map fun _ => entry.2, ?_, ?_⟩
  · rw [warnings_checkIncludes, List.map_filterMap, List.map_filterMap]
    apply List.filterMap_congr
    rintro ⟨⟨line, kind⟩, number⟩ _
    cases found : includeWarning? projects tree file.path ((line, kind), number) with
    | none => rfl
    | some warning =>
        obtain ⟨_, target, _, _, rfl⟩ := includeWarning?_eq_some_iff.1 found
        rfl
  · rw [List.pairwise_filterMap]
    apply (pairwise_zipIdx (classifiedLines file.content) 0).imp
    intro first second before firstNumber isFirst secondNumber isSecond
    obtain ⟨_, _, rfl⟩ := Option.map_eq_some_iff.1 isFirst
    obtain ⟨_, _, rfl⟩ := Option.map_eq_some_iff.1 isSecond
    exact before

theorem mem_warnings_checkIncludes_iff (warning : Warning) :
    warning ∈ (checkIncludes projects).warnings tree file ↔
      ∃ number line target,
        (classifiedLines file.content)[number]? = some (line, .preprocessor) ∧
        IncludesFile target line ∧ LeadsNowhere projects tree file.path target ∧
        warning = ⟨file.path, some number, .unresolvedReference,
          "unresolved include \"".toList ++ target ++ ['"']⟩ := by
  rw [warnings_checkIncludes, List.mem_filterMap]
  constructor
  · rintro ⟨⟨⟨line, kind⟩, number⟩, member, found⟩
    obtain ⟨rfl, target, includes, nowhere, same⟩ := includeWarning?_eq_some_iff.1 found
    exact ⟨number, line, target, List.mem_zipIdx_iff_getElem?.1 member, includes, nowhere, same⟩
  · rintro ⟨number, line, target, at_, includes, nowhere, same⟩
    refine ⟨((line, .preprocessor), number), List.mem_zipIdx_iff_getElem?.2 at_, ?_⟩
    exact includeWarning?_eq_some_iff.2 ⟨rfl, target, includes, nowhere, same⟩

theorem warnings_checkIncludes_sublist
    {projects larger : List Text} {tree bigger : Tree}
    (more : projects ⊆ larger)
    (keeps : tree.top.Keeps bigger.top)
    (sameStart : bigger.workingDir = tree.workingDir) :
    ((checkIncludes larger).warnings bigger file).Sublist
      ((checkIncludes projects).warnings tree file) := by
  apply filterMap_sublist_filterMap
  rintro ⟨⟨line, kind⟩, number⟩ warning found
  obtain ⟨isDirective, target, includes, nowhere, same⟩ := includeWarning?_eq_some_iff.1 found
  exact includeWarning?_eq_some_iff.2
    ⟨isDirective, target, includes, nowhere.anti more keeps sameStart, same⟩

end

/-- The warnings about includes are those about includes that lead nowhere, one for each of them
in the order of their lines, and more projects and more files leave some of them at most. -/
theorem checkIncludes_warnings (projects : List Text) (tree : Tree) (file : SourceFile) :
    (∃ numbers : List Nat,
      ((checkIncludes projects).warnings tree file).map Warning.line = numbers.map some ∧
      numbers.Pairwise (· < ·)) ∧
    (∀ warning, warning ∈ (checkIncludes projects).warnings tree file ↔
      ∃ number line target,
        (classifiedLines file.content)[number]? = some (line, .preprocessor) ∧
        IncludesFile target line ∧ LeadsNowhere projects tree file.path target ∧
        warning = ⟨file.path, some number, .unresolvedReference,
          "unresolved include \"".toList ++ target ++ ['"']⟩) ∧
    ∀ larger bigger,
      projects ⊆ larger →
      tree.top.Keeps bigger.top →
      bigger.workingDir = tree.workingDir →
        ((checkIncludes larger).warnings bigger file).Sublist
          ((checkIncludes projects).warnings tree file) := by
  refine ⟨exists_numbers_warnings_checkIncludes projects tree file,
    mem_warnings_checkIncludes_iff projects tree file, ?_⟩
  intro larger bigger more keeps sameStart
  exact warnings_checkIncludes_sublist file more keeps sameStart

/-- A file with an include of a header beside it, one in a comment, and one of another project. -/
def strayIncludes : SourceFile :=
  ⟨"a.cpp".toList,
    "#include \"./b.h\"\n/*\n#include <gone/z.h>\n*/\n#include <util/y.h>\n".toList⟩

/-- A tree with nothing but this file. -/
def strayTree : Tree :=
  .ofTexts [(strayIncludes.path, strayIncludes.content)]

theorem checkIncludes_warnings_of_strayIncludes :
    ⟨"a.cpp".toList, some 4, .unresolvedReference, "unresolved include \"util/y.h\"".toList⟩ ∈
        (checkIncludes ["core".toList]).warnings strayTree strayIncludes ∧
      ((checkIncludes ["util".toList, "core".toList]).warnings
          (strayTree.setFile ["b.h".toList] ⟨.empty, Tree.publicMode⟩) strayIncludes).Sublist
        ((checkIncludes ["core".toList]).warnings strayTree strayIncludes) := by
  obtain ⟨_, exact_, monotone⟩ :=
    checkIncludes_warnings ["core".toList] strayTree strayIncludes
  constructor
  · rw [exact_]
    refine ⟨4, "#include <util/y.h>".toList, "util/y.h".toList, ?_, ?_, ⟨?_, ?_⟩, ?_⟩
    · decide +kernel
    · rw [← includeTarget?_eq_some_iff]
      decide +kernel
    · exact ⟨"util".toList, "y.h".toList, by decide, by decide, by decide⟩
    · intro folder isParent
      have current : Path.parent? strayIncludes.path = some [] := by decide +kernel
      obtain rfl : [] = folder := Option.some.inj (current.symm.trans isParent)
      rw [← Option.not_isSome_iff_eq_none, ← Tree.isFile_eq_isSome_file?]
      decide +kernel
    · decide
  · apply monotone
    · simp
    · have folder : strayTree.top.FolderAt [] := ⟨_, _, Node.get?_nil _⟩
      have missing : strayTree.top.get? ([] ++ ["b.h".toList]) = none := by
        rw [List.nil_append, strayTree, Tree.get?_ofTexts_cons]
        decide +kernel
      exact (Node.changedWithin_put_of_none _ folder missing).keeps
    · rfl

end Upkeep
