import Upkeep.Proofs.Trial.Files
import Upkeep.Proofs.Trial.Within
import Upkeep.Rule.PruneIncludes

/-!
Whole runs.  A run begins with a build of the tree as it is; from then on its builds
see one edit at a time, and an error leaves the tree with the kept edits only.
-/

namespace Upkeep

variable {State : Type} {rule : Rule} {oracle : Oracle State} {paths : List Text}
  {world : World State}

theorem tryEdits_of_pass
    (passes : (oracle.build world).1 = .ok .pass) :
    tryEdits rule oracle paths world =
      ((tryFiles rule oracle paths (oracle.build world).2).map RunReport.mk).after
        [.built (.ok .pass) world.tree] := by
  simp only [tryEdits, checkBaseline, askBuild_eq, passes, Run.andThen, Run.after, Run.map,
    mapError_ok, Run.pure, List.append_nil]

theorem tryEdits_of_fail
    (fails : (oracle.build world).1 = .ok .fail) :
    tryEdits rule oracle paths world =
      ⟨[.built (.ok .fail) world.tree], (oracle.build world).2, .error .baselineFails⟩ := by
  simp only [tryEdits, checkBaseline, askBuild_eq, fails, Run.andThen, mapError_ok, Run.stop,
    List.append_nil]

theorem tryEdits_of_error
    {error : BuildError}
    (broken : (oracle.build world).1 = .error error) :
    tryEdits rule oracle paths world =
      ⟨[.built (.error error) world.tree], (oracle.build world).2, .error (.build error)⟩ := by
  simp only [tryEdits, checkBaseline, askBuild_eq, broken, Run.andThen, mapError_error]

theorem build_of_tryEdits
    {paths : List Text} {report : RunReport}
    (finished : (tryEdits rule oracle paths world).result = .ok report) :
    (oracle.build world).1 = .ok .pass := by
  cases first : (oracle.build world).1 with
  | error fault => simp [tryEdits_of_error first] at finished
  | ok verdict =>
      cases verdict with
      | fail => simp [tryEdits_of_fail first] at finished
      | pass => rfl

theorem tryEdits_singleton
    (rule : Rule) (path : Text)
    (passes : (oracle.build world).1 = .ok .pass) :
    (tryEdits rule oracle [path] world).world =
      (tryFile rule oracle path (oracle.build world).2).world ∧
    (tryEdits rule oracle [path] world).result =
      (tryFile rule oracle path (oracle.build world).2).result.map fun report => ⟨[report]⟩ := by
  rw [tryEdits_of_pass passes, tryFiles]
  cases worked : (tryFile rule oracle path (oracle.build world).2).result with
  | error error => simp [Run.after, Run.map, Run.andThen, worked, Except.map]
  | ok report => simp [Run.after, Run.map, Run.andThen, worked, Except.map, tryFiles, Run.pure]

theorem tryEdits_events (rule : Rule) (oracle : Oracle State) (paths : List Text)
    (world : World State) :
    ∃ rest, (tryEdits rule oracle paths world).events =
      .built (oracle.build world).1 world.tree :: rest := by
  cases answer : (oracle.build world).1 with
  | error error => exact ⟨[], by rw [tryEdits_of_error answer]⟩
  | ok verdict =>
      cases verdict with
      | fail => exact ⟨[], by rw [tryEdits_of_fail answer]⟩
      | pass => exact ⟨_, by rw [tryEdits_of_pass answer]; rfl⟩

theorem Leaves.ofBuild
    (oracle : Oracle State)
    (plain : world.tree.Plain world.tree.workingDir)
    (after : (oracle.build world).2.tree.Plain world.tree.workingDir)
    (answer : Answer) (tree : Tree) :
    Leaves (oracle.Spares world.tree.workingDir) world.tree [] [.built answer tree]
      (oracle.build world).2.tree where
  plain := after
  started := rfl
  untried := fun _ _ => rfl
  finished := by simp
  others := fun _ spared _ => (spared world plain).2

/-- The first candidate of the first target is what a run tries first. -/
theorem tryEdits_events_of_found
    (world : World State) {path content : Text} {candidate : Candidate}
    (targets : Targets (oracle.Spares world.tree.workingDir) world.tree (path :: paths))
    (passes : (oracle.build world).1 = .ok .pass)
    (read : world.tree.readText (Path.normalize path) = .ok content)
    (found : rule.findIn? (Path.normalize path) content 0 = some candidate) :
    ∃ answer tree after, (tryEdits rule oracle (path :: paths) world).events =
      [.built (.ok .pass) world.tree, .fileStarted path, .found candidate] ++
        .built answer tree :: after := by
  obtain ⟨plain, same⟩ := targets.spared path List.mem_cons_self world targets.plain
  have course := tryFiles_course rule plain targets.spared
  obtain ⟨answer, tree, after, events⟩ :=
    course.exists_build_of_found (Tree.readText_eq_of_file?_eq same.symm read) found
  refine ⟨answer, tree, after, ?_⟩
  rw [tryEdits_of_pass passes, Run.after, Run.map, events]
  rfl

section

variable {before after : List Event} {answer : Answer} {tree : Tree}

theorem before_eq_nil_of_first
    {first : Answer} {tried : Tree}
    (split : [.built first tried] = before ++ .built answer tree :: after) :
    before = [] := by
  cases before with
  | nil => rfl
  | cons event front => simp at split

/-- Each build of a run but the first one is on an edit. -/
theorem tryEdits_moment
    (targets : Targets (oracle.Spares world.tree.workingDir) world.tree paths)
    (split : (tryEdits rule oracle paths world).events = before ++ .built answer tree :: after)
    (second : before ≠ []) :
    ∃ earlier path later baseline candidate text,
      paths = earlier ++ path :: later ∧
        BuildMoment rule (oracle.Spares world.tree.workingDir) world.tree
          (tryEdits rule oracle paths world).events
          (tryEdits rule oracle paths world).world.tree
          (errorOf (tryEdits rule oracle paths world).result)
          before answer tree after earlier path later baseline candidate text := by
  cases first : (oracle.build world).1 with
  | error error =>
      rw [tryEdits_of_error first] at split
      exact absurd (before_eq_nil_of_first split) second
  | ok verdict =>
      cases verdict with
      | fail =>
          rw [tryEdits_of_fail first] at split
          exact absurd (before_eq_nil_of_first split) second
      | pass =>
          rw [tryEdits_of_pass first] at split ⊢
          cases paths with
          | nil => exact absurd (before_eq_nil_of_first split) second
          | cons path paths =>
              have plain := (targets.spared path List.mem_cons_self world targets.plain).1
              have leaves := Leaves.ofBuild oracle targets.plain plain
                (.ok .pass) world.tree
              have course := tryFiles_course rule plain targets.spared
              cases before with
              | nil => exact absurd rfl second
              | cons event front =>
                  rw [Run.after, List.singleton_append, List.cons_append, List.cons.injEq] at split
                  obtain ⟨rfl, split⟩ := split
                  obtain ⟨earlier, current, later, baseline, candidate, text, same, moment⟩ :=
                    course.exists_moment (leaves.targets targets) split
                  refine ⟨earlier, current, later, baseline, candidate, text, same, ?_⟩
                  rw [same] at targets
                  have whole := leaves.moment targets (by simp) moment
                  simpa [Run.after, Run.map] using whole

end

@[simp]
theorem Run.pure_andThen
    {Value Other : Type}
    (value : Value) (world : World State) (next : Value → World State → Run State Other) :
    (Run.pure value world).andThen next = next value world :=
  rfl

/-- The work on more files goes on where the work on the first ones ends. -/
theorem tryFiles_append (first second : List Text) :
    tryFiles rule oracle (first ++ second) world =
      (tryFiles rule oracle first world).andThen fun reports world =>
        (tryFiles rule oracle second world).map (reports ++ ·) := by
  induction first generalizing world with
  | nil =>
      rw [List.nil_append, tryFiles, Run.pure_andThen]
      generalize tryFiles rule oracle second world = run
      obtain ⟨events, left, result⟩ := run
      cases result <;> rfl
  | cons path first inductionHypothesis =>
      rw [List.cons_append, tryFiles, tryFiles]
      cases worked : (tryFile rule oracle path world).result with
      | error error => simp [Run.andThen, Run.after, worked]
      | ok report =>
          simp only [Run.andThen, Run.after, Run.map, worked, inductionHypothesis]
          generalize tryFiles rule oracle first (tryFile rule oracle path world).world = run
          cases rest : run.result with
          | error error => simp [Except.map]
          | ok reports =>
              cases last : (tryFiles rule oracle second run.world).result <;> simp [Except.map]

/-- A file that cannot be read ends a run where the files before it leave it. -/
theorem tryEdits_of_unreadable
    {earlier later : List Text} {path : Text} {report : RunReport} {error : SourceError}
    (finished : (tryEdits rule oracle earlier world).result = .ok report)
    (unreadable :
      SourceFile.read (tryEdits rule oracle earlier world).world.tree path = .error error) :
    tryEdits rule oracle (earlier ++ path :: later) world =
      ⟨(tryEdits rule oracle earlier world).events ++ [.fileStarted path],
        (tryEdits rule oracle earlier world).world, .error (.source error)⟩ := by
  cases first : (oracle.build world).1 with
  | error fault => simp [tryEdits_of_error first] at finished
  | ok verdict =>
      cases verdict with
      | fail => simp [tryEdits_of_fail first] at finished
      | pass =>
          rw [tryEdits_of_pass first] at finished unreadable ⊢
          rw [tryEdits_of_pass first, tryFiles_append]
          simp only [Run.after, Run.map] at finished unreadable ⊢
          cases rest : (tryFiles rule oracle earlier (oracle.build world).2).result with
          | error fault => simp [rest, Except.map] at finished
          | ok reports =>
              simp [Run.andThen, rest, tryFiles, tryFile, unreadable, Run.stop, Run.after,
                Except.map]

/-- The disk at each build of a run.  The first build sees the tree as it is.  Each
later one sees a single edit on the kept text of one target, next to the final texts of
the targets before it and to everything else as it was; a passed build makes the text
that it saw the kept one, and a failed one brings the kept text back.

Targets are told apart by where their normal forms lead.  For paths that start alike
and stay below their start these are different places if the normal forms differ. -/
theorem tree_at_each_build
    (rule : Rule) (oracle : Oracle State) (paths : List Text) (world : World State)
    (noLinks : world.tree.NoLinks)
    (apart : world.tree.TellsApart paths)
    (spared : ∀ path ∈ paths, oracle.Spares world.tree.workingDir (Path.normalize path)) :
    (∃ rest, (tryEdits rule oracle paths world).events =
      .built (oracle.build world).1 world.tree :: rest) ∧
    ∀ before answer tree after,
      (tryEdits rule oracle paths world).events = before ++ .built answer tree :: after →
      before ≠ [] →
      ∃ earlier path later baseline candidate text,
        paths = earlier ++ path :: later ∧
          BuildMoment rule (oracle.Spares world.tree.workingDir) world.tree
            (tryEdits rule oracle paths world).events
            (tryEdits rule oracle paths world).world.tree
            (errorOf (tryEdits rule oracle paths world).result)
            before answer tree after earlier path later baseline candidate text := by
  constructor
  · exact tryEdits_events rule oracle paths world
  · intro before answer tree after split second
    exact tryEdits_moment ⟨⟨noLinks, rfl⟩, apart, spared⟩ split second

/-- The first build after the one of the tree as it is has an edit on trial. -/
theorem tree_at_second_build_of_includingTree :
    ∃ before answer tree after,
      (tryEdits pruneIncludes (.ofAnswers fun _ => .ok .pass) ["a.cpp".toList, "b.cpp".toList]
        ⟨0, includingTree⟩).events = before ++ .built answer tree :: after ∧
      before ≠ [] ∧
      ∃ earlier path later baseline candidate text,
        ["a.cpp".toList, "b.cpp".toList] = earlier ++ path :: later ∧
          BuildMoment pruneIncludes ((Oracle.ofAnswers fun _ => .ok .pass).Spares [])
            includingTree
            (tryEdits pruneIncludes (.ofAnswers fun _ => .ok .pass)
              ["a.cpp".toList, "b.cpp".toList] ⟨0, includingTree⟩).events
            (tryEdits pruneIncludes (.ofAnswers fun _ => .ok .pass)
              ["a.cpp".toList, "b.cpp".toList] ⟨0, includingTree⟩).world.tree
            (errorOf (tryEdits pruneIncludes (.ofAnswers fun _ => .ok .pass)
              ["a.cpp".toList, "b.cpp".toList] ⟨0, includingTree⟩).result)
            before answer tree after earlier path later baseline candidate text := by
  have noLinks : includingTree.NoLinks := Tree.noLinks_ofTexts _
  have apart : includingTree.TellsApart ["a.cpp".toList, "b.cpp".toList] := by decide
  have spared : ∀ path ∈ ["a.cpp".toList, "b.cpp".toList],
      (Oracle.ofAnswers fun _ => .ok .pass).Spares [] (Path.normalize path) :=
    fun path _ => Oracle.spares_readOnly _ _ _
  have found : pruneIncludes.findIn? (Path.normalize "a.cpp".toList)
      "#include <x>\nint a;\n".toList 0 =
        some ⟨"a.cpp".toList, 0, "#include <x>".toList, .remove⟩ := by
    decide +kernel
  obtain ⟨answer, tree, after, events⟩ :=
    tryEdits_events_of_found ⟨0, includingTree⟩
      ⟨⟨noLinks, rfl⟩, apart, spared⟩ rfl readText_includingTree found
  have moment := (tree_at_each_build pruneIncludes _ _ ⟨0, includingTree⟩
    noLinks apart spared).2 _ _ _ _ events (by simp)
  exact ⟨_, answer, tree, after, events, by simp, moment⟩

/-- That the normal forms of the targets differ is not enough.  While the first of two paths for
one file is worked on, the second one does not hold what it held. -/
theorem tree_at_each_build_misses_aliases :
    includingTree.NoLinks ∧ (aliases.map Path.normalize).Nodup ∧
    ∃ before tree after,
      (tryEdits pruneIncludes (.ofAnswers fun _ => .ok .pass) aliases ⟨0, includingTree⟩).events =
        before ++ .built (.ok .pass) tree :: after ∧
      startedFiles before = ["a.cpp".toList] ∧
      includingTree.readText (Path.normalize "../a.cpp".toList) =
        .ok "#include <x>\nint a;\n".toList ∧
      tree.readText (Path.normalize "../a.cpp".toList) = .ok "int a;\n".toList := by
  have built : ∃ build ∈ buildAt? (tryEdits pruneIncludes (.ofAnswers fun _ => .ok .pass) aliases
      ⟨0, includingTree⟩).events 3,
      startedFiles build.1 = ["a.cpp".toList] ∧ build.2.1 = .ok .pass ∧
        build.2.2.readText (Path.normalize "../a.cpp".toList) = .ok "int a;\n".toList := by
    rw [tryEdits_eq_get 9 (by decide +kernel)]
    decide +kernel
  obtain ⟨⟨before, answer, tree⟩, at_, started, passed, content⟩ := built
  obtain ⟨after, events⟩ := exists_after_of_buildAt? at_
  dsimp only at started passed content
  subst passed
  exact ⟨Tree.noLinks_ofTexts _, nodup_aliases, before, tree, after, events, started,
    by decide +kernel, content⟩

/-- What an error leaves behind.  A first build that does not pass is all that happens.
A later build without a verdict ends the run, with the kept text back in its target and
no word of the edit that was on trial.  A target that cannot be read ends the run where
the targets before it leave it.

Only what the other targets hold when a build ends the run depends on their being
different files that builds spare. -/
theorem clean_tree_of_error
    (rule : Rule) (oracle : Oracle State) (paths : List Text) (world : World State) :
    ((oracle.build world).1 ≠ .ok .pass →
      (tryEdits rule oracle paths world).events = [.built (oracle.build world).1 world.tree] ∧
      (tryEdits rule oracle paths world).world = (oracle.build world).2 ∧
      ((tryEdits rule oracle paths world).result = .error .baselineFails ↔
        (oracle.build world).1 = .ok .fail) ∧
      ∀ error, (oracle.build world).1 = .error error →
        (tryEdits rule oracle paths world).result = .error (.build error)) ∧
    (world.tree.NoLinks →
      world.tree.TellsApart paths →
      (∀ path ∈ paths, oracle.Spares world.tree.workingDir (Path.normalize path)) →
      ∀ before error tree after,
        (tryEdits rule oracle paths world).events =
          before ++ .built (.error error) tree :: after →
        before ≠ [] →
        after = [] ∧ (tryEdits rule oracle paths world).result = .error (.build error) ∧
        ∃ earlier path later baseline,
          paths = earlier ++ path :: later ∧
          startedFiles before = earlier ++ [path] ∧
          KeptText world.tree (Path.normalize path) before baseline ∧
          Snapshot world.tree (oracle.Spares world.tree.workingDir)
            (tryEdits rule oracle paths world).events earlier path later baseline
            (tryEdits rule oracle paths world).world.tree) ∧
    ∀ earlier path later report error,
      paths = earlier ++ path :: later →
      (tryEdits rule oracle earlier world).result = .ok report →
      SourceFile.read (tryEdits rule oracle earlier world).world.tree path = .error error →
      tryEdits rule oracle paths world =
        ⟨(tryEdits rule oracle earlier world).events ++ [.fileStarted path],
          (tryEdits rule oracle earlier world).world, .error (.source error)⟩ := by
  refine ⟨?_, ?_, ?_⟩
  · intro notPassed
    cases first : (oracle.build world).1 with
    | error error => simp [tryEdits_of_error first]
    | ok verdict =>
        cases verdict with
        | pass => exact absurd first notPassed
        | fail => simp [tryEdits_of_fail first]
  · intro noLinks apart spared before error tree after split second
    obtain ⟨earlier, path, later, baseline, candidate, text, same, moment⟩ :=
      tryEdits_moment ⟨⟨noLinks, rfl⟩, apart, spared⟩ split second
    obtain ⟨ended, stopped, snapshot⟩ := moment.broken error rfl
    exact ⟨ended, eq_error_of_errorOf stopped, earlier, path, later, baseline, same,
      moment.started, moment.kept, snapshot⟩
  · rintro earlier path later report error rfl finished unreadable
    exact tryEdits_of_unreadable finished unreadable

/-- The script that passes twice and then gives no more answers. -/
def twicePassing : Script :=
  ⟨[.pass, .pass], none⟩

/-- A tree that does not build is not touched; a build without an answer for the second include
leaves the first one out and nothing else; and a file that is missing ends a run that has taken both
of them out. -/
theorem clean_tree_of_error_of_twoHeadersTree :
    (tryEdits pruneIncludes (.ofAnswers fun _ => .ok .fail) ["a.cpp".toList, "b.cpp".toList]
      ⟨0, twoHeadersTree⟩).world = ⟨1, twoHeadersTree⟩ ∧
    Snapshot twoHeadersTree (twicePassing.oracle.Spares [])
      (tryEdits pruneIncludes twicePassing.oracle ["a.cpp".toList, "b.cpp".toList]
        ⟨0, twoHeadersTree⟩).events
      [] "a.cpp".toList ["b.cpp".toList] "#include <y>\nint a;\n".toList
      (tryEdits pruneIncludes twicePassing.oracle ["a.cpp".toList, "b.cpp".toList]
        ⟨0, twoHeadersTree⟩).world.tree ∧
    (tryEdits pruneIncludes (.ofAnswers fun _ => .ok .pass) ["a.cpp".toList, "c.cpp".toList]
      ⟨0, twoHeadersTree⟩).result = .error (.source (.read "c.cpp".toList .notFound)) ∧
    (tryEdits pruneIncludes (.ofAnswers fun _ => .ok .pass) ["a.cpp".toList, "c.cpp".toList]
      ⟨0, twoHeadersTree⟩).world.tree.readText "a.cpp".toList = .ok "int a;\n".toList := by
  refine ⟨?_, ?_, ?_⟩
  · exact ((clean_tree_of_error pruneIncludes (.ofAnswers fun _ => .ok .fail) _
      ⟨0, twoHeadersTree⟩).1 (by simp [Oracle.ofAnswers, Oracle.readOnly])).2.1
  · have built : ∃ build ∈ buildAt? (tryEdits pruneIncludes twicePassing.oracle
        ["a.cpp".toList, "b.cpp".toList] ⟨0, twoHeadersTree⟩).events 6,
        build.2.1 = .error (.unavailable "scripted oracle".toList
          (.other "script exhausted".toList)) ∧
        startedFiles build.1 = ["a.cpp".toList] ∧
        (twoHeadersTree.readText (Path.normalize "a.cpp".toList)).toOption.map (fun content =>
          replay (Path.normalize "a.cpp".toList) content
            (attemptsOn (Path.normalize "a.cpp".toList) build.1)) =
              some (.ok "#include <y>\nint a;\n".toList) := by
      rw [tryEdits_eq_get 9 (by decide +kernel)]
      decide +kernel
    obtain ⟨⟨before, answer, tree⟩, at_, unanswered, started, replayed⟩ := built
    obtain ⟨after, events⟩ := exists_after_of_buildAt? at_
    dsimp only at unanswered started replayed
    subst unanswered
    obtain ⟨_, _, earlier, path, later, baseline, same, begun, kept, snapshot⟩ :=
      (clean_tree_of_error pruneIncludes twicePassing.oracle ["a.cpp".toList, "b.cpp".toList]
        ⟨0, twoHeadersTree⟩).2.1 (Tree.noLinks_ofTexts _) (by decide)
        (fun _ _ => twicePassing.spares_oracle _ _) before _ tree after events
        (by rintro rfl; simp [startedFiles] at started)
    rw [started] at begun
    cases earlier with
    | cons first earlier => simp at begun
    | nil =>
        obtain ⟨rfl, rfl⟩ := List.cons.inj same
        obtain ⟨content, read, left⟩ := kept
        rw [read] at replayed
        obtain rfl := Except.ok.inj (left.symm.trans (Option.some.inj replayed))
        exact snapshot
  · have first : (tryEdits pruneIncludes (.ofAnswers fun _ => .ok .pass) ["a.cpp".toList]
          ⟨0, twoHeadersTree⟩).result =
        .ok ⟨[⟨"a.cpp".toList, [⟨0, "#include <x>".toList, .remove, .committed⟩,
          ⟨0, "#include <y>".toList, .remove, .committed⟩]⟩]⟩ ∧
        SourceFile.read (tryEdits pruneIncludes (.ofAnswers fun _ => .ok .pass) ["a.cpp".toList]
          ⟨0, twoHeadersTree⟩).world.tree "c.cpp".toList =
            .error (.read "c.cpp".toList .notFound) ∧
        (tryEdits pruneIncludes (.ofAnswers fun _ => .ok .pass) ["a.cpp".toList]
          ⟨0, twoHeadersTree⟩).world.tree.readText "a.cpp".toList = .ok "int a;\n".toList := by
      rw [tryEdits_eq_get 12 (by decide +kernel)]
      decide +kernel
    obtain ⟨finished, missing, content⟩ := first
    rw [(clean_tree_of_error pruneIncludes (.ofAnswers fun _ => .ok .pass)
      ["a.cpp".toList, "c.cpp".toList] ⟨0, twoHeadersTree⟩).2.2
      ["a.cpp".toList] "c.cpp".toList [] _ _ rfl finished missing]
    exact ⟨rfl, content⟩

/-- What the second of two paths for one file holds has changed when a build ends the run during
the work on the first one. -/
theorem clean_tree_of_error_misses_aliases :
    twoHeadersTree.NoLinks ∧ (aliases.map Path.normalize).Nodup ∧
    (tryEdits pruneIncludes twicePassing.oracle aliases ⟨0, twoHeadersTree⟩).result =
      .error (.build (.unavailable "scripted oracle".toList
        (.other "script exhausted".toList))) ∧
    startedFiles (tryEdits pruneIncludes twicePassing.oracle aliases ⟨0, twoHeadersTree⟩).events =
      ["a.cpp".toList] ∧
    twoHeadersTree.readText (Path.normalize "../a.cpp".toList) =
      .ok "#include <x>\n#include <y>\nint a;\n".toList ∧
    (tryEdits pruneIncludes twicePassing.oracle aliases ⟨0, twoHeadersTree⟩).world.tree.readText
      (Path.normalize "../a.cpp".toList) = .ok "#include <y>\nint a;\n".toList := by
  refine ⟨Tree.noLinks_ofTexts _, nodup_aliases, ?_⟩
  rw [tryEdits_eq_get 9 (by decide +kernel)]
  decide +kernel

end Upkeep
