import Upkeep.Proofs.Trial.Rounds
import Upkeep.Proofs.Trial.Run
import Upkeep.Proofs.Trial.Undisturbed

/-!
A finished file cannot be improved by one more edit: each edit that the rule still
proposes was refused on exactly the text that is left.  Where the verdict depends on
nothing but the tree, another run refuses the same edits again and keeps none.
-/

namespace Upkeep

/-- Text and tree go together if the tree is the given one with this text, and the
answer is the verdict on the tree. -/
def verdictRelation (verdict : Tree → Verdict) (base : Tree) (place : Place) (mode : Nat) :
    Relation where
  shows := fun text tree => tree = base.withText place mode text
  asks := fun text answer tree =>
    tree = base.withText place mode text ∧ answer = .ok (verdict tree)

section

variable {State : Type} {rule : Rule} {oracle : Oracle State} {world : World State}
  {verdict : Tree → Verdict} {base : Tree} {path text : Text} {place : Place} {mode : Nat}

theorem verdictRelation_follows
    (judges : oracle.Judges verdict)
    (rewritable : base.Rewritable (Path.normalize path) place mode) :
    (verdictRelation verdict base place mode).Follows oracle (Path.normalize path) where
  write := (textRelation_follows (fun world => (judges world).2) rewritable).write
  build := by
    intro world _ text _ shown
    obtain ⟨answer, same⟩ := judges world
    exact ⟨⟨shown, answer⟩, same.trans shown⟩

/-- Under a verdict on the tree the trials on a file come to an end, with the kept text
in the file and nothing else changed. -/
theorem exists_trials_of_judges
    (rule : Rule)
    (judges : oracle.Judges verdict)
    (rewritable : base.Rewritable (Path.normalize path) place mode)
    (shown : world.tree = base.withText place mode text) :
    ∃ final,
      Trials rule (Path.normalize path) (verdictRelation verdict base place mode)
        text 0 (tryFile rule oracle path world).events final none ∧
      (tryFile rule oracle path world).result = .ok ⟨Path.normalize path,
        attemptsOn (Path.normalize path) (tryFile rule oracle path world).events⟩ ∧
      (tryFile rule oracle path world).world.tree = base.withText place mode final := by
  have read : SourceFile.read world.tree path = .ok ⟨Path.normalize path, text⟩ := by
    rw [SourceFile.read_eq_ok_iff, shown]
    exact ⟨rfl, rewritable.readText_withText text⟩
  have writable : ∀ {text tree new fault},
      (verdictRelation verdict base place mode).shows text tree →
        writeText tree (Path.normalize path) new ≠ .error fault :=
    textRelation_writable rewritable
  obtain ⟨final, stop, trials, result, shownLast⟩ :=
    tryFile_trials rule read (verdictRelation_follows judges rewritable) shown
  cases stop with
  | some error =>
      obtain ⟨fault, _, _, _, ⟨_, answer⟩, _⟩ := trials.exists_build_of_stop writable
      simp at answer
  | none => exact ⟨final, trials, result, shownLast (by simp)⟩

/-- Under a verdict on the tree the work on a file can be done again, with each candidate
refused.  It leaves a tree that builds, if it is put there without a change what was in
the file. -/
theorem tryFile_again
    (rule : Rule) {content : Text}
    (judges : oracle.Judges verdict)
    (rewritable : world.tree.Rewritable (Path.normalize path) place mode)
    (readText : world.tree.readText (Path.normalize path) = .ok content) :
    ∃ final,
      (tryFile rule oracle path world).world.tree.readText (Path.normalize path) = .ok final ∧
      (verdict world.tree = .pass → world.tree.withText place mode content = world.tree →
        verdict (tryFile rule oracle path world).world.tree = .pass) ∧
      ∀ again : World State, again.tree = (tryFile rule oracle path world).world.tree →
        (tryFile rule oracle path again).result = .ok ⟨Path.normalize path,
          (rule.candidates (Path.normalize path) final).map (·.attempt .reverted)⟩ ∧
        (tryFile rule oracle path again).world.tree = again.tree := by
  cases found : rule.findIn? (Path.normalize path) content 0 with
  | none =>
      have nothing : rule.candidates (Path.normalize path) content = [] :=
        Rule.candidatesFrom_of_none found
      rw [tryFile_of_none (SourceFile.read_of_readText readText) found]
      refine ⟨content, readText, fun passes _ => passes, ?_⟩
      intro again same
      have readAgain : SourceFile.read again.tree path = .ok ⟨Path.normalize path, content⟩ := by
        rw [same]
        exact SourceFile.read_of_readText readText
      rw [tryFile_of_none readAgain found, nothing]
      exact ⟨rfl, rfl⟩
  | some candidate =>
      obtain ⟨state, base⟩ := world
      rw [tryFile_withText rewritable readText found]
      have shown : (World.mk state (base.withText place mode content)).tree =
          base.withText place mode content := rfl
      obtain ⟨final, trials, _, left⟩ := exists_trials_of_judges rule judges rewritable shown
      rw [left]
      refine ⟨final, rewritable.readText_withText final, ?_, ?_⟩
      · intro passes unchanged
        rcases trials.final_asked with rfl | ⟨tree, rfl, answer⟩
        · rwa [unchanged]
        · rw [Except.ok.injEq] at answer
          exact answer.symm
      · intro again same
        obtain ⟨last, trialsAgain, result, leftAgain⟩ :=
          exists_trials_of_judges rule judges rewritable same
        -- each candidate was refused before, and the verdict is the same again
        obtain ⟨_, back, _, _, _, refused⟩ := trials.exhausted
        obtain ⟨_, sameText, attempts⟩ := trialsAgain.of_refused (by simp) (by
          rintro candidate member text answer tree applied ⟨rfl, rfl⟩
          obtain ⟨other, _, _, _, _, appliedToo, ⟨rfl, failed⟩, _⟩ := refused candidate member
          obtain rfl := Except.ok.inj (applied.symm.trans appliedToo)
          exact failed.symm)
        rw [result, leftAgain, sameText, attempts, same]
        exact ⟨rfl, rfl⟩

/-- Under a verdict on the tree a second run refuses what the first one left. -/
theorem tryEdits_again
    {report : RunReport}
    (judges : oracle.Judges verdict)
    (finished : (tryEdits rule oracle [path] world).result = .ok report) :
    ∃ final,
      (tryEdits rule oracle [path] world).world.tree.readText (Path.normalize path) = .ok final ∧
      ((world.tree.top.Ordered ∧ ∃ place file,
          world.tree.IsRegular (Path.normalize path) place file) ∨
        verdict (tryEdits rule oracle [path] world).world.tree = .pass →
        ∀ state,
          (tryEdits rule oracle [path]
            ⟨state, (tryEdits rule oracle [path] world).world.tree⟩).result =
              .ok ⟨[⟨Path.normalize path,
                (rule.candidates (Path.normalize path) final).map (·.attempt .reverted)⟩]⟩ ∧
          (tryEdits rule oracle [path]
            ⟨state, (tryEdits rule oracle [path] world).world.tree⟩).world.tree =
              (tryEdits rule oracle [path] world).world.tree) := by
  have passes := build_of_tryEdits finished
  obtain ⟨firstWorld, firstResult⟩ := tryEdits_singleton rule path passes
  obtain ⟨answer, sameTree⟩ := judges world
  rw [passes, Except.ok.injEq] at answer
  rw [firstWorld]
  rw [firstResult] at finished
  generalize (oracle.build world).2 = built at sameTree finished
  rw [← sameTree] at answer ⊢
  cases readText : built.tree.readText (Path.normalize path) with
  | error fault => simp [tryFile, SourceFile.read, readText, Run.stop, Except.map] at finished
  | ok content =>
      obtain ⟨mode, named⟩ := Tree.readText_eq_ok_iff.1 readText
      obtain ⟨place, rewritable⟩ := Tree.exists_rewritable named
      obtain ⟨final, readLast, builds, again⟩ :=
        tryFile_again rule judges rewritable readText
      refine ⟨final, readLast, ?_⟩
      intro ready state
      have passesAgain : verdict (tryFile rule oracle path built).world.tree = .pass := by
        rcases ready with ⟨ordered, otherPlace, file, regular⟩ | passesAgain
        · apply builds answer.symm
          obtain rfl := Option.some.inj (regular.file?_eq.symm.trans named)
          exact rewritable.withText_eq_self ordered regular
        · exact passesAgain
      obtain ⟨secondAnswer, secondTree⟩ :=
        judges ⟨state, (tryFile rule oracle path built).world.tree⟩
      rw [passesAgain] at secondAnswer
      obtain ⟨secondWorld, secondResult⟩ := tryEdits_singleton rule path secondAnswer
      obtain ⟨result, left⟩ := again _ secondTree
      rw [secondWorld, secondResult, result, left, secondTree]
      exact ⟨rfl, rfl⟩

theorem exists_report_of_judges
    (rule : Rule) (world : World State)
    (judges : oracle.Judges verdict)
    (readText : world.tree.readText (Path.normalize path) = .ok text)
    (passes : verdict world.tree = .pass) :
    ∃ report, (tryEdits rule oracle [path] world).result = .ok report := by
  obtain ⟨answer, sameTree⟩ := judges world
  rw [passes] at answer
  obtain ⟨_, result⟩ := tryEdits_singleton rule path answer
  rw [result]
  generalize (oracle.build world).2 = built at sameTree
  rw [← sameTree] at readText
  obtain ⟨mode, named⟩ := Tree.readText_eq_ok_iff.1 readText
  obtain ⟨place, rewritable⟩ := Tree.exists_rewritable named
  cases found : rule.findIn? (Path.normalize path) text 0 with
  | none =>
      rw [tryFile_of_none (SourceFile.read_of_readText readText) found]
      exact ⟨_, rfl⟩
  | some candidate =>
      obtain ⟨state, base⟩ := built
      rw [tryFile_withText rewritable readText found]
      have shown : (World.mk state (base.withText place mode text)).tree =
          base.withText place mode text := rfl
      obtain ⟨_, _, worked, _⟩ := exists_trials_of_judges rule judges rewritable shown
      rw [worked]
      exact ⟨_, rfl⟩

theorem tryFile_exhausted
    {report : FileReport}
    (finished : (tryFile rule oracle path world).result = .ok report) :
    ∃ content final,
      world.tree.readText (Path.normalize path) = .ok content ∧
      replay (Path.normalize path) content
        (attemptsOn (Path.normalize path) (tryFile rule oracle path world).events) = .ok final ∧
      Rounds rule (Path.normalize path) content report.attempts final ∧
      Exhausted rule (Path.normalize path)
        (fun text tree => ∃ earlier, writeText earlier (Path.normalize path) text = .ok tree)
        content final (tryFile rule oracle path world).events := by
  cases read : SourceFile.read world.tree path with
  | error error => simp [tryFile, read, Run.stop] at finished
  | ok source =>
      obtain ⟨_, content⟩ := source
      obtain ⟨rfl, readText⟩ := SourceFile.read_eq_ok_iff.1 read
      obtain ⟨final, stop, trials, result, _⟩ :=
        tryFile_trials rule read (writtenRelation_follows oracle _) trivial
      rw [result] at finished
      obtain ⟨rfl, rfl⟩ := eq_none_of_trialResult finished
      exact ⟨content, final, readText, trials.replay_eq, trials.rounds, trials.exhausted⟩

theorem tryFile_exhausted_on_disk
    {report : FileReport} {content final : Text}
    (noLinks : world.tree.NoLinks)
    (spared : oracle.Spares world.tree.workingDir (Path.normalize path))
    (finished : (tryFile rule oracle path world).result = .ok report)
    (readText : world.tree.readText (Path.normalize path) = .ok content)
    (replayed : replay (Path.normalize path) content
      (attemptsOn (Path.normalize path) (tryFile rule oracle path world).events) = .ok final) :
    (tryFile rule oracle path world).world.tree.readText (Path.normalize path) = .ok final ∧
      Exhausted rule (Path.normalize path)
        (fun text tree => tree.read (Path.normalize path) = .ok (encode text))
        content final (tryFile rule oracle path world).events := by
  have plain : world.tree.Plain world.tree.workingDir := ⟨noLinks, rfl⟩
  have read : SourceFile.read world.tree path = .ok ⟨Path.normalize path, content⟩ :=
    SourceFile.read_eq_ok_iff.2 ⟨rfl, readText⟩
  obtain ⟨last, stop, trials, result, shown⟩ :=
    tryFile_trials rule read (holdingRelation_follows plain spared)
      (Holding.refl plain readText)
  rw [result] at finished
  obtain ⟨rfl, rfl⟩ := eq_none_of_trialResult finished
  obtain rfl := Except.ok.inj (trials.replay_eq.symm.trans replayed)
  exact ⟨(shown (by simp)).readText, trials.exhausted.mono Holding.read⟩

/-- A finished file is locally maximal.  The attempts go round by round through the
candidates of the kept text, which stand in the order of their lines; from the last
kept edit on each edit that the rule proposes for the final text was written to the
file, built and refused.  On disk this is the final text with just this edit, as long
as builds spare the file and no links are there.

A second run attempts these edits and keeps none, if the verdict depends on the tree
alone, which builds leave as it is.  It needs a tree that builds, and the first run leaves
one where the path names a regular file: then it puts the same tree back.  That folders list
their entries in order says no more than that it is the same list of entries then.  A link is
replaced by a file with the first edit, and a verdict on the tree can tell the difference. -/
theorem finished_file_is_maximal
    (rule : Rule) (oracle : Oracle State) (path : Text) (world : World State) :
    (∀ report, (tryFile rule oracle path world).result = .ok report →
      ∃ content final,
        world.tree.readText (Path.normalize path) = .ok content ∧
        Rounds rule (Path.normalize path) content report.attempts final ∧
        (∀ text, (rule.candidates (Path.normalize path) text).Pairwise
          fun first second => first.line < second.line) ∧
        Exhausted rule (Path.normalize path)
          (fun text tree => ∃ earlier, writeText earlier (Path.normalize path) text = .ok tree)
          content final (tryFile rule oracle path world).events ∧
        (world.tree.NoLinks →
          oracle.Spares world.tree.workingDir (Path.normalize path) →
          (tryFile rule oracle path world).world.tree.readText (Path.normalize path) =
            .ok final ∧
          Exhausted rule (Path.normalize path)
            (fun text tree => tree.read (Path.normalize path) = .ok (encode text))
            content final (tryFile rule oracle path world).events)) ∧
    ∀ verdict report,
      oracle.Judges verdict →
      (tryEdits rule oracle [path] world).result = .ok report →
      ∃ final,
        (tryEdits rule oracle [path] world).world.tree.readText (Path.normalize path) =
          .ok final ∧
        ((world.tree.top.Ordered ∧ ∃ place file,
            world.tree.IsRegular (Path.normalize path) place file) ∨
          verdict (tryEdits rule oracle [path] world).world.tree = .pass →
          ∀ state,
            (tryEdits rule oracle [path]
              ⟨state, (tryEdits rule oracle [path] world).world.tree⟩).result =
                .ok ⟨[⟨Path.normalize path,
                  (rule.candidates (Path.normalize path) final).map (·.attempt .reverted)⟩]⟩ ∧
            (tryEdits rule oracle [path]
              ⟨state, (tryEdits rule oracle [path] world).world.tree⟩).world.tree =
                (tryEdits rule oracle [path] world).world.tree) := by
  constructor
  · intro report finished
    obtain ⟨content, final, readText, replayed, rounds, exhausted⟩ := tryFile_exhausted finished
    refine ⟨content, final, readText, rounds, rule.pairwise_candidates (Path.normalize path),
      exhausted, ?_⟩
    intro noLinks spared
    exact tryFile_exhausted_on_disk noLinks spared finished readText replayed
  · intro verdict report judges finished
    exact tryEdits_again judges finished

end

/-- The condition that a file includes the second of its headers. -/
def secondHeaderCondition : Condition :=
  ⟨[⟨"a.cpp".toList, "<y>".toList⟩], []⟩

/-- The report of a run that keeps its first edit and takes the second one back. -/
def onceKeptReport : RunReport :=
  ⟨[⟨"a.cpp".toList, [⟨0, "#include <x>".toList, .remove, .committed⟩,
    ⟨0, "#include <y>".toList, .remove, .reverted⟩]⟩]⟩

/-- The first run goes twice through the candidates, and the second run attempts the one that is
left, to no effect. -/
theorem finished_file_is_maximal_of_twoHeadersTree :
    (∃ final, Rounds pruneIncludes "a.cpp".toList "#include <x>\n#include <y>\nint a;\n".toList
      [⟨0, "#include <x>".toList, .remove, .committed⟩,
        ⟨0, "#include <y>".toList, .remove, .reverted⟩] final) ∧
    (tryEdits pruneIncludes secondHeaderCondition.oracle ["a.cpp".toList]
      ⟨(), (tryEdits pruneIncludes secondHeaderCondition.oracle ["a.cpp".toList]
        ⟨(), twoHeadersTree⟩).world.tree⟩).result =
          .ok ⟨[⟨"a.cpp".toList, [⟨0, "#include <y>".toList, .remove, .reverted⟩]⟩]⟩ ∧
    (tryEdits pruneIncludes secondHeaderCondition.oracle ["a.cpp".toList]
      ⟨(), (tryEdits pruneIncludes secondHeaderCondition.oracle ["a.cpp".toList]
        ⟨(), twoHeadersTree⟩).world.tree⟩).world.tree =
          (tryEdits pruneIncludes secondHeaderCondition.oracle ["a.cpp".toList]
            ⟨(), twoHeadersTree⟩).world.tree := by
  have ran : (tryEdits pruneIncludes secondHeaderCondition.oracle ["a.cpp".toList]
        ⟨(), twoHeadersTree⟩).result = .ok onceKeptReport ∧
      (tryEdits pruneIncludes secondHeaderCondition.oracle ["a.cpp".toList]
        ⟨(), twoHeadersTree⟩).world.tree.readText (Path.normalize "a.cpp".toList) =
          .ok "#include <y>\nint a;\n".toList := by
    rw [tryEdits_eq_get 12 (by decide +kernel)]
    decide +kernel
  obtain ⟨finished, left⟩ := ran
  have worked : (tryFile pruneIncludes secondHeaderCondition.oracle "a.cpp".toList
      ⟨(), twoHeadersTree⟩).result = .ok ⟨"a.cpp".toList,
        [⟨0, "#include <x>".toList, .remove, .committed⟩,
          ⟨0, "#include <y>".toList, .remove, .reverted⟩]⟩ := by
    rw [tryFile_eq_get 12 (by decide +kernel)]
    decide +kernel
  obtain ⟨first, again⟩ := finished_file_is_maximal pruneIncludes secondHeaderCondition.oracle
    "a.cpp".toList ⟨(), twoHeadersTree⟩
  constructor
  · obtain ⟨content, final, readText, rounds, _⟩ := first _ worked
    obtain rfl := Except.ok.inj (readText_twoHeadersTree.symm.trans readText)
    exact ⟨final, rounds⟩
  · obtain ⟨final, readText, second⟩ := again _ _ (Oracle.judges_ofVerdict _) finished
    obtain rfl := Except.ok.inj (left.symm.trans readText)
    obtain ⟨place, regular⟩ : ∃ place,
        twoHeadersTree.IsRegular (Path.normalize "a.cpp".toList) place
          ⟨encode "#include <x>\n#include <y>\nint a;\n".toList, 0o644⟩ :=
      Tree.exists_isRegular_ofTexts (by decide) (by decide) (by decide)
    have ordered : twoHeadersTree.top.Ordered :=
      Tree.ordered_ofTexts (List.pairwise_pair.2 (by decide))
    obtain ⟨result, unchanged⟩ := second (.inl ⟨ordered, place, _, regular⟩) ()
    have candidates : pruneIncludes.candidates (Path.normalize "a.cpp".toList)
        "#include <y>\nint a;\n".toList =
          [⟨"a.cpp".toList, 0, "#include <y>".toList, .remove⟩] := by
      decide +kernel
    rw [candidates] at result
    exact ⟨result, unchanged⟩

/-- A link to a file that includes a header. -/
def linkedSourceTree : Tree :=
  ⟨.folder Node.folderMode [("a.cpp".toList, .link "b.cpp".toList),
    ("b.cpp".toList, .file ⟨encode "#include <x>\nint a;\n".toList, 0o644⟩)], []⟩

/-- The verdict that wants a link where an edit puts a file. -/
def linkVerdict (tree : Tree) : Verdict :=
  match tree.top.get? ["a.cpp".toList] with
  | some (.link _) => .pass
  | _ => .fail

/-- An oracle that passes a tree on which it has not left its mark yet. -/
def markingOracle : Oracle Unit where
  build := fun ⟨state, tree⟩ =>
    (.ok (if (tree.top.get? ["mark".toList]).isNone then .pass else .fail),
      ⟨state, { tree with top := tree.top.put ["mark".toList] (.file ⟨.empty, 0o644⟩) }⟩)

/-- Both verdicts are functions of the tree, and yet nothing is left that passes after a first run:
there the edit has replaced a link, and here the builds themselves have changed the tree. -/
theorem second_run_needs_a_tree_that_builds :
    (tryEdits pruneIncludes (.ofVerdict linkVerdict) ["a.cpp".toList]
      ⟨(), linkedSourceTree⟩).result =
      .ok ⟨[⟨"a.cpp".toList, [⟨0, "#include <x>".toList, .remove, .reverted⟩]⟩]⟩ ∧
    (tryEdits pruneIncludes (.ofVerdict linkVerdict) ["a.cpp".toList]
      (tryEdits pruneIncludes (.ofVerdict linkVerdict) ["a.cpp".toList]
        ⟨(), linkedSourceTree⟩).world).result = .error .baselineFails ∧
    (tryEdits pruneIncludes markingOracle ["a.cpp".toList] ⟨(), includingTree⟩).result =
      .ok ⟨[⟨"a.cpp".toList, [⟨0, "#include <x>".toList, .remove, .reverted⟩]⟩]⟩ ∧
    (tryEdits pruneIncludes markingOracle ["a.cpp".toList]
      (tryEdits pruneIncludes markingOracle ["a.cpp".toList]
        ⟨(), includingTree⟩).world).result = .error .baselineFails := by
  have linked : (tryEdits pruneIncludes (.ofVerdict linkVerdict) ["a.cpp".toList]
        ⟨(), linkedSourceTree⟩).result =
          .ok ⟨[⟨"a.cpp".toList, [⟨0, "#include <x>".toList, .remove, .reverted⟩]⟩]⟩ ∧
      ((Oracle.ofVerdict linkVerdict).build
        (tryEdits pruneIncludes (.ofVerdict linkVerdict) ["a.cpp".toList]
          ⟨(), linkedSourceTree⟩).world).1 = .ok .fail := by
    rw [tryEdits_eq_get 9 (by decide +kernel)]
    decide +kernel
  have marked : (tryEdits pruneIncludes markingOracle ["a.cpp".toList]
        ⟨(), includingTree⟩).result =
          .ok ⟨[⟨"a.cpp".toList, [⟨0, "#include <x>".toList, .remove, .reverted⟩]⟩]⟩ ∧
      (markingOracle.build
        (tryEdits pruneIncludes markingOracle ["a.cpp".toList] ⟨(), includingTree⟩).world).1 =
          .ok .fail := by
    rw [tryEdits_eq_get 9 (by decide +kernel)]
    decide +kernel
  refine ⟨linked.1, ?_, marked.1, ?_⟩
  · rw [tryEdits_of_fail linked.2]
  · rw [tryEdits_of_fail marked.2]

end Upkeep
