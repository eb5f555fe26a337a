import Upkeep.Proofs.Tree.Apart
import Upkeep.Proofs.Tree.Change
import Upkeep.Proofs.Tree.Listed
import Upkeep.Whitespace.Files

/-!
Bringing listed files into normal form writes the files that are not in it and no other ones.
What is done about a file depends on what it held in the beginning, as no two entries of the
list lead to one file.
-/

namespace Upkeep

/-- Whether a path names a text that is not in normal form. -/
def needsTidying (tree : Tree) (path : Text) : Bool :=
  match SourceFile.read tree path with
  | .error _ => false
  | .ok file => normalizeText file.content != file.content

/-- Whether the files of some paths are in normal form now, with the permissions that they had,
and nothing else differs: not even those of them that were in normal form before. -/
structure Tidies (paths : List Text) (tree left : Tree) : Prop where
  changed : tree.ChangedWithin
    (fun place => ∃ path ∈ paths, needsTidying tree path = true ∧
      place = tree.placeOf (Path.normalize path)) left
  files : ∀ path ∈ paths, ∃ content mode,
    tree.file? (Path.normalize path) = some ⟨encode content, mode⟩ ∧
    left.file? (Path.normalize path) = some ⟨encode (normalizeText content), mode⟩

section

variable {tree middle left base : Tree} {path : Text} {paths : List Text} {file : SourceFile}

theorem exists_file_of_needsTidying
    (noLinks : tree.NoLinks)
    (needs : needsTidying tree path = true) :
    ∃ file, tree.top.get? (tree.placeOf (Path.normalize path)) = some (.file file) := by
  unfold needsTidying at needs
  cases read : SourceFile.read tree path with
  | error error => simp [read] at needs
  | ok file =>
      obtain ⟨_, readText⟩ := SourceFile.read_eq_ok_iff.1 read
      obtain ⟨mode, named⟩ := Tree.readText_eq_ok_iff.1 readText
      exact ⟨_, (noLinks.isRegular named).get?_eq⟩

theorem Tidies.nil (tree : Tree) : Tidies [] tree tree :=
  ⟨.refl _ tree, by simp⟩

theorem Tidies.noLinks
    (tidies : Tidies paths tree left)
    (noLinks : tree.NoLinks) :
    left.NoLinks := by
  apply tidies.changed.noLinks noLinks
  rintro place ⟨path, _, needs, rfl⟩
  exact exists_file_of_needsTidying noLinks needs

/-- The files of other paths are read as before. -/
theorem Tidies.apart
    {other : Text}
    (tidies : Tidies paths tree left)
    (noLinks : tree.NoLinks)
    (apart : ∀ path ∈ paths,
      tree.placeOf (Path.normalize path) ≠ tree.placeOf (Path.normalize other)) :
    SourceFile.read left other = SourceFile.read tree other ∧
      left.file? (Path.normalize other) = tree.file? (Path.normalize other) := by
  have present : ∀ place, (∃ path ∈ paths, needsTidying tree path = true ∧
      place = tree.placeOf (Path.normalize path)) → tree.top.get? place ≠ none := by
    rintro place ⟨path, _, needs, rfl⟩ missing
    obtain ⟨file, there⟩ := exists_file_of_needsTidying noLinks needs
    simp [missing] at there
  have untouched : ∀ target, tree.locate true (Path.normalize other) = .ok target →
      ¬ ∃ path ∈ paths, needsTidying tree path = true ∧
        target.place = tree.placeOf (Path.normalize path) := by
    rintro target located ⟨path, member, _, same⟩
    rw [((Tree.locate_eq_ok_iff noLinks).1 located).2.2.1] at same
    exact apart path member same.symm
  exact ⟨tidies.changed.sourceFile_read_eq present untouched rfl,
    tidies.changed.file?_eq present untouched⟩

theorem needsTidying_eq_of_read
    (same : SourceFile.read left path = SourceFile.read tree path) :
    needsTidying left path = needsTidying tree path := by
  rw [needsTidying, needsTidying, same]

theorem Tidies.cons
    (noLinks : tree.NoLinks)
    (first : Tidies [path] tree middle)
    (rest : Tidies paths middle left)
    (apart : ∀ other ∈ paths,
      tree.placeOf (Path.normalize path) ≠ tree.placeOf (Path.normalize other)) :
    Tidies (path :: paths) tree left := by
  have same : ∀ other ∈ paths, SourceFile.read middle other = SourceFile.read tree other ∧
      middle.file? (Path.normalize other) = tree.file? (Path.normalize other) := by
    intro other member
    exact first.apart noLinks (by simpa using apart other member)
  have firstApart : left.file? (Path.normalize path) = middle.file? (Path.normalize path) := by
    apply (rest.apart (first.noLinks noLinks) _).2
    intro other member
    rw [first.changed.placeOf, first.changed.placeOf]
    exact (apart other member).symm
  constructor
  · apply (first.changed.mono _).trans (rest.changed.mono _)
    · rintro place ⟨other, member, needs, rfl⟩
      obtain rfl := List.mem_singleton.1 member
      exact ⟨other, List.mem_cons_self, needs, rfl⟩
    · rintro place ⟨other, member, needs, rfl⟩
      rw [needsTidying_eq_of_read (same other member).1] at needs
      exact ⟨other, List.mem_cons_of_mem _ member, needs, first.changed.placeOf _⟩
  · intro other member
    rcases List.mem_cons.1 member with rfl | later
    · obtain ⟨content, mode, before, after⟩ := first.files other (List.mem_singleton_self _)
      exact ⟨content, mode, before, firstApart.trans after⟩
    · obtain ⟨content, mode, before, after⟩ := rest.files other later
      exact ⟨content, mode, (same other later).2.symm.trans before, after⟩

/-- A file that can be read is brought into normal form. -/
theorem tidyFile_tidies
    (noLinks : tree.NoLinks)
    (read : SourceFile.read tree path = .ok file) :
    ∃ left, tidyFile tree path = .ok (needsTidying tree path, left) ∧ Tidies [path] tree left := by
  obtain ⟨filePath, readText⟩ := SourceFile.read_eq_ok_iff.1 read
  obtain ⟨mode, named⟩ := Tree.readText_eq_ok_iff.1 readText
  have regular := noLinks.isRegular named
  obtain ⟨_, content⟩ := file
  subst filePath
  by_cases same : normalizeText content = content
  · refine ⟨tree, ?_, ⟨.refl _ tree, ?_⟩⟩
    · simp [tidyFile, needsTidying, read, same]
    · intro other member
      obtain rfl := List.mem_singleton.1 member
      exact ⟨content, mode, named, by rw [same]; exact named⟩
  · have needs : needsTidying tree path = true := by simp [needsTidying, read, same]
    have written := regular.writeText (normalizeText content)
    refine ⟨_, ?_, ⟨(regular.changedWithin written).mono ?_, ?_⟩⟩
    · rw [tidyFile, read, needs]
      simp only [if_neg same, SourceFile.replaceContent, SourceFile.write, SourceFile.writeContent]
      rw [written]
    · rintro place rfl
      exact ⟨path, List.mem_singleton_self _, needs, rfl⟩
    · intro other member
      obtain rfl := List.mem_singleton.1 member
      exact ⟨content, mode, named, (regular.setFile _).file?_eq⟩

end

/-- The entries of a list up to the one at which the work ends. -/
def worked (tree : Tree) (listed : List Listed) : List Listed :=
  listed.takeWhile fun item => (blockage? tree item).isNone

theorem worked_append
    {tree : Tree} {front : List Listed}
    (goesOn : ∀ before ∈ front, blockage? tree before = none) (rest : List Listed) :
    worked tree (front ++ rest) = front ++ worked tree rest := by
  apply List.takeWhile_append_of_pos
  intro before member
  rw [goesOn before member]
  rfl

theorem worked_of_blockage?
    {tree : Tree} {item : Listed} {error : SourceError}
    (blocked : blockage? tree item = some error) (rest : List Listed) :
    worked tree (item :: rest) = [] := by
  simp [worked, blocked]

@[simp]
theorem TidyReport.ofSteps_skippedRoot (path : Text) (steps : List Tidied) :
    ofSteps (.skippedRoot path :: steps) = ofSteps steps :=
  rfl

theorem TidyReport.ofSteps_file (isChanged : Bool) (path : Text) (steps : List Tidied) :
    ofSteps ((if isChanged then .changed path else .unchanged path) :: steps) =
      ⟨if isChanged then path :: (ofSteps steps).changed else (ofSteps steps).changed,
        (ofSteps steps).filesSeen + 1⟩ := by
  cases isChanged <;>
    simp [ofSteps, List.filterMap_cons, List.countP_cons, Tidied.changedPath?, Tidied.isFile]

/-- What is done about a list, told by what its files held in the beginning. -/
structure TidyCourse (base tree : Tree) (listed : List Listed) (tidying : Tidying) : Prop where
  error? : tidying.error? = listed.findSome? (blockage? base)
  report : TidyReport.ofSteps tidying.steps =
    ⟨(pathsOf (worked base listed)).filter (needsTidying base),
      (pathsOf (worked base listed)).length⟩
  tidies : Tidies (pathsOf (worked base listed)) tree tidying.tree

theorem mem_pathsOf_worked
    {tree : Tree} {listed : List Listed} {path : Text}
    (member : path ∈ pathsOf (worked tree listed)) :
    path ∈ pathsOf listed := by
  rw [mem_pathsOf_iff] at member ⊢
  obtain ⟨entry, inWorked, same⟩ := member
  exact ⟨entry, (List.takeWhile_sublist _).mem inWorked, same⟩

theorem TidyCourse.stop
    {base tree : Tree} {item : Listed} {error : SourceError} (rest : List Listed)
    (blocked : blockage? base item = some error) :
    TidyCourse base tree (item :: rest) ⟨[], tree, some error⟩ := by
  refine ⟨?_, ?_, ?_⟩
  · rw [List.findSome?_cons, blocked]
  · rw [worked_of_blockage? blocked]
    rfl
  · rw [worked_of_blockage? blocked]
    exact .nil tree

/-- What is done about a list is what is done about its first entry and then about the rest. -/
theorem tidyFiles_course
    {base tree : Tree} {listed : List Listed}
    (noLinks : tree.NoLinks)
    (apart : tree.TellsApart (pathsOf listed))
    (reads : ∀ path ∈ pathsOf listed, SourceFile.read tree path = SourceFile.read base path) :
    TidyCourse base tree listed (tidyFiles tree listed) := by
  -- `base` is the tree before all of the list, and `tree` the one before what is left of it.
  induction listed generalizing tree with
  | nil => exact ⟨rfl, rfl, .nil tree⟩
  | cons item rest inductionHypothesis =>
      cases item with
      | error error =>
          cases error with
          | missingRoot path =>
              obtain ⟨error?, report, tidies⟩ := inductionHypothesis noLinks apart reads
              have goesOn : worked base (.error (.missingRoot path) :: rest) =
                  .error (.missingRoot path) :: worked base rest := by
                simp [worked, blockage?]
              refine ⟨error?, ?_, ?_⟩
              · rw [goesOn, pathsOf_error, ← report]
                exact TidyReport.ofSteps_skippedRoot path _
              · rw [goesOn, pathsOf_error]
                exact tidies
          | walk root fault => exact .stop rest rfl
          | read path fault => exact .stop rest rfl
          | write path fault => exact .stop rest rfl
      | ok entry =>
          rw [pathsOf_ok] at apart reads
          obtain ⟨first, later⟩ := List.pairwise_cons.1 apart
          have readFirst := reads entry.path List.mem_cons_self
          cases read : SourceFile.read tree entry.path with
          | error error =>
              rw [tidyFiles, tidyFile, read]
              apply TidyCourse.stop
              rw [blockage?, ← readFirst, read]
          | ok file =>
              obtain ⟨middle, done, tidies⟩ := tidyFile_tidies noLinks read
              have goesOn : worked base (.ok entry :: rest) = .ok entry :: worked base rest := by
                simp [worked, blockage?, ← readFirst, read]
              have others : ∀ path ∈ pathsOf rest,
                  SourceFile.read middle path = SourceFile.read tree path := by
                intro path member
                exact (tidies.apart noLinks (by simpa using first path member)).1
              have course := inductionHypothesis (tidies.noLinks noLinks)
                (later.imp fun different => by
                  rwa [tidies.changed.placeOf, tidies.changed.placeOf])
                (fun path member =>
                  (others path member).trans (reads path (List.mem_cons_of_mem _ member)))
              obtain ⟨error?, report, tidiesRest⟩ := course
              rw [needsTidying_eq_of_read readFirst] at done
              rw [tidyFiles, done]
              refine ⟨?_, ?_, ?_⟩
              · rw [List.findSome?_cons, blockage?, ← readFirst, read]
                exact error?
              · rw [goesOn, pathsOf_ok, List.filter_cons]
                simp only [Tidying.after]
                rw [TidyReport.ofSteps_file, report]
                cases needsTidying base entry.path <;> rfl
              · rw [goesOn, pathsOf_ok]
                exact .cons noLinks tidies tidiesRest fun other member =>
                  first other (mem_pathsOf_worked member)

/-- Missing projects change nothing but the list of what was done. -/
theorem tidyFiles_withoutMissing (tree : Tree) (listed : List Listed) :
    tidyFiles tree (withoutMissing listed) =
      { tidyFiles tree listed with
        steps := (tidyFiles tree listed).steps.filter Tidied.isFile } := by
  induction listed generalizing tree with
  | nil => rfl
  | cons item rest inductionHypothesis =>
      cases item with
      | error error =>
          cases error with
          | missingRoot path =>
              rw [withoutMissing_missingRoot, inductionHypothesis]
              rfl
          | walk root fault => rfl
          | read path fault => rfl
          | write path fault => rfl
      | ok entry =>
          rw [withoutMissing_cons rfl, tidyFiles, tidyFiles]
          cases tidyFile tree entry.path with
          | error error => rfl
          | ok done =>
              obtain ⟨isChanged, middle⟩ := done
              simp only [inductionHypothesis]
              cases isChanged <;> rfl

theorem TidyReport.ofSteps_filter_isFile (steps : List Tidied) :
    ofSteps (steps.filter Tidied.isFile) = ofSteps steps := by
  have same : (fun step => if step.isFile then step.changedPath? else none) =
      Tidied.changedPath? := by
    funext step
    cases step <;> rfl
  rw [ofSteps, List.filterMap_filter, List.countP_filter, same]
  simp [ofSteps]

theorem report_tidyFiles_withoutMissing (tree : Tree) (listed : List Listed) :
    (tidyFiles tree (withoutMissing listed)).report = (tidyFiles tree listed).report := by
  rw [tidyFiles_withoutMissing, Tidying.report, Tidying.report]
  simp only [TidyReport.ofSteps_filter_isFile]

theorem tree_tidyFiles_withoutMissing (tree : Tree) (listed : List Listed) :
    (tidyFiles tree (withoutMissing listed)).tree = (tidyFiles tree listed).tree := by
  rw [tidyFiles_withoutMissing]

/-- A finished run leaves every listed file in normal form, and those that were not in it are
the ones that it wrote and tells of.  A run that ends early is ended by the first entry that is
another error than a missing project or cannot be read, and has done the same to the files before
it and nothing else.  Missing projects make no difference to either.

Listed files are told apart by where the normal forms of their paths lead, as of two paths to one
file the second one would find what was written for the first. -/
theorem tidyFiles_writes_what_needs_it
    (tree : Tree) (listed : List Listed)
    (noLinks : tree.NoLinks)
    (apart : tree.TellsApart (pathsOf listed)) :
    (∀ report, (tidyFiles tree listed).report = .ok report →
      (∀ item ∈ listed, blockage? tree item = none) ∧
      Tidies (pathsOf listed) tree (tidyFiles tree listed).tree ∧
      report.changed = (pathsOf listed).filter (needsTidying tree) ∧
      report.filesSeen = (pathsOf listed).length) ∧
    (∀ error, (tidyFiles tree listed).report = .error error →
      ∃ front item back, listed = front ++ item :: back ∧
        (∀ before ∈ front, blockage? tree before = none) ∧
        blockage? tree item = some error ∧
        Tidies (pathsOf front) tree (tidyFiles tree listed).tree) ∧
    (tidyFiles tree (withoutMissing listed)).report = (tidyFiles tree listed).report ∧
    (tidyFiles tree (withoutMissing listed)).tree = (tidyFiles tree listed).tree := by
  have course := tidyFiles_course noLinks apart fun _ _ => rfl
  refine ⟨?_, ?_, report_tidyFiles_withoutMissing tree listed,
    tree_tidyFiles_withoutMissing tree listed⟩
  · intro report finished
    rw [Tidying.report] at finished
    cases ended : (tidyFiles tree listed).error? with
    | some error => simp [ended] at finished
    | none =>
        rw [ended] at finished
        obtain rfl := Except.ok.inj finished
        have goesOn := List.findSome?_eq_none_iff.1 (course.error?.symm.trans ended)
        have whole : worked tree listed = listed := by
          simpa [worked] using worked_append goesOn []
        have tidies := course.tidies
        rw [course.report, whole]
        rw [whole] at tidies
        exact ⟨goesOn, tidies, rfl, rfl⟩
  · intro error failed
    rw [Tidying.report] at failed
    cases ended : (tidyFiles tree listed).error? with
    | none => simp [ended] at failed
    | some other =>
        rw [ended] at failed
        obtain rfl := Except.error.inj failed
        obtain ⟨front, item, back, split, blocked, goesOn⟩ :=
          List.findSome?_eq_some_iff.1 (course.error?.symm.trans ended)
        have tidies := course.tidies
        rw [split, worked_append goesOn, worked_of_blockage? blocked, List.append_nil,
          ← split] at tidies
        exact ⟨front, item, back, split, goesOn, blocked, tidies⟩

/-- Two files, the first of which ends a line in a blank. -/
def blankEndedTree : Tree :=
  .ofTexts [("a.cpp".toList, "int a; \n".toList), ("b.cpp".toList, "int b;\n".toList)]

def blankEndedFiles : List Listed :=
  [.ok ⟨[], "a.cpp".toList⟩, .error (.missingRoot "p".toList), .ok ⟨[], "b.cpp".toList⟩]

theorem tidyFiles_writes_what_needs_it_of_blankEndedTree :
    ∃ report, (tidyFiles blankEndedTree blankEndedFiles).report = .ok report ∧
      report.changed = ["a.cpp".toList] ∧ report.filesSeen = 2 ∧
      (tidyFiles blankEndedTree blankEndedFiles).tree.readText (Path.normalize "a.cpp".toList) =
        .ok "int a;\n".toList := by
  have noLinks : blankEndedTree.NoLinks := Tree.noLinks_ofTexts _
  have apart : blankEndedTree.TellsApart (pathsOf blankEndedFiles) := by
    apply Tree.tellsApart_of_nodup false
    · decide +kernel
    · decide +kernel
    · decide +kernel
  have first : SourceFile.read blankEndedTree "a.cpp".toList =
      .ok ⟨"a.cpp".toList, "int a; \n".toList⟩ :=
    Tree.read_ofTexts (by decide) (by decide) (by decide) (by decide)
  have second : SourceFile.read blankEndedTree "b.cpp".toList =
      .ok ⟨"b.cpp".toList, "int b;\n".toList⟩ :=
    Tree.read_ofTexts (by decide) (by decide) (by decide) (by decide)
  have needs : needsTidying blankEndedTree "a.cpp".toList = true ∧
      needsTidying blankEndedTree "b.cpp".toList = false := by
    rw [needsTidying, needsTidying, first, second]
    decide +kernel
  have finished : (tidyFiles blankEndedTree blankEndedFiles).error? = none := by
    rw [(tidyFiles_course noLinks apart fun _ _ => rfl).error?]
    simp only [blankEndedFiles, List.findSome?_cons, blockage?, first, second, List.findSome?_nil]
  obtain ⟨whole, _⟩ := tidyFiles_writes_what_needs_it blankEndedTree blankEndedFiles noLinks apart
  have report := whole (.ofSteps (tidyFiles blankEndedTree blankEndedFiles).steps)
    (by rw [Tidying.report, finished])
  obtain ⟨_, tidies, changed, seen⟩ := report
  refine ⟨_, by rw [Tidying.report, finished], ?_, seen, ?_⟩
  · rw [changed]
    simp only [blankEndedFiles, pathsOf_ok, pathsOf_error, pathsOf_nil, List.filter_cons, needs]
    rfl
  · have listed : "a.cpp".toList ∈ pathsOf blankEndedFiles := List.mem_cons_self
    obtain ⟨content, mode, before, after⟩ := tidies.files "a.cpp".toList listed
    have same : content = "int a; \n".toList := by
      have read := (SourceFile.read_eq_ok_iff.1 first).2
      rw [Tree.readText_eq_ok_iff.2 ⟨mode, before⟩] at read
      exact Except.ok.inj read
    rw [Tree.readText_eq_ok_iff]
    refine ⟨mode, after.trans ?_⟩
    rw [same]
    have normal : normalizeText "int a; \n".toList = "int a;\n".toList := by decide +kernel
    rw [normal]

/-- Of two paths for one file that is not in normal form, only the first one is told of: under the
second one it is in normal form when its turn comes. -/
theorem tidyFiles_tells_of_one_alias :
    blankEndedTree.NoLinks ∧ (aliases.map Path.normalize).Nodup ∧
    ∃ report,
      (tidyFiles blankEndedTree (aliases.map fun path => .ok ⟨[], path⟩)).report = .ok report ∧
      report.changed = ["a.cpp".toList] ∧
      aliases.filter (needsTidying blankEndedTree) = aliases := by
  refine ⟨Tree.noLinks_ofTexts _, nodup_aliases, ⟨["a.cpp".toList], 2⟩, ?_⟩
  decide +kernel

end Upkeep
