import Upkeep.Proofs.Rule.Constify
import Upkeep.Proofs.Rule.PruneIncludes
import Upkeep.Proofs.Trial.OnePass
import Upkeep.Proofs.Trial.Replay

/-!
The totals of a run are true of the disk.  They count attempts and not files, and yet a file differs
from what it held exactly if one of its attempts was kept: each kept edit takes a line from those
that the rule accepts, so that no edits cancel out.
-/

namespace Upkeep

/-- The number of kept edits among attempts. -/
def keptCount (attempts : List Attempt) : Nat :=
  attempts.countP Attempt.isCommitted

@[simp]
theorem keptCount_concat_committed (attempts : List Attempt) (candidate : Candidate) :
    keptCount (attempts ++ [candidate.attempt .committed]) = keptCount attempts + 1 := by
  rw [keptCount, List.countP_append]
  rfl

@[simp]
theorem keptCount_concat_reverted (attempts : List Attempt) (candidate : Candidate) :
    keptCount (attempts ++ [candidate.attempt .reverted]) = keptCount attempts := by
  rw [keptCount, List.countP_append]
  rfl

/-- Kept edits and accepted lines that are left make up the accepted lines of the beginning. -/
theorem keeps_acceptedLines (rule : Rule) (path content : Text) :
    rule.Keeps path fun attempts text =>
      rule.acceptedLines path text + keptCount attempts = rule.acceptedLines path content ∧
        (keptCount attempts = 0 → text = content) where
  committed := by
    rintro attempts text start candidate new ⟨count, _⟩ found applied
    -- The accepted lines can only become fewer, so that no later edit gives the text back.
    have less := Rule.acceptedLines_of_apply found applied
    rw [keptCount_concat_committed]
    exact ⟨by omega, by omega⟩
  reverted := by
    rintro attempts text start candidate kept _
    rw [keptCount_concat_reverted]
    exact kept

/-- Putting `const` into a line puts six bytes into the text. -/
theorem size_of_apply_constify
    {index : SymbolIndex} {path content text : Text} {start : Nat} {candidate : Candidate}
    (found : (constify index).findIn? path content start = some candidate)
    (applied : candidate.apply content = .ok text) :
    (encode text).size = (encode content).size + 6 := by
  obtain ⟨new, proposed, exchanged⟩ := exists_propose?_of_findIn? found
  obtain ⟨segment, at_, same⟩ := Rule.segment_of_findIn? found
  obtain ⟨front, back, split, here⟩ := exists_split_of_getElem? at_
  obtain ⟨before, after, line, newLine, _, _⟩ := propose?_split proposed
  have word : (encode constWord).size = 6 := by decide +kernel
  have whole : content =
      join front ++ (before ++ after) ++ segment.terminator.text ++ join back := by
    rw [← line, ← same, ← join_cut content, split]
    simp [join, Segment.text]
  have changed : text =
      join front ++ (before ++ (constWord ++ after)) ++ segment.terminator.text ++ join back := by
    rw [Rule.apply_of_findIn? found, exchanged, LineEdit.applyAt, List.modify_eq_set_getElem?, at_,
      split, ← here, newLine, Except.ok.injEq] at applied
    rw [← applied]
    simp [join, Segment.text]
  rw [whole, changed]
  simp only [encode_append, ByteArray.size_append, word]
  omega

theorem keeps_size (index : SymbolIndex) (path content : Text) :
    (constify index).Keeps path fun attempts text =>
      (encode text).size = (encode content).size + 6 * keptCount attempts where
  committed := by
    intro attempts text start candidate new kept found applied
    rw [size_of_apply_constify found applied, kept, keptCount_concat_committed]
    omega
  reverted := by
    intro attempts text start candidate kept _
    rw [keptCount_concat_reverted, kept]

section

variable {report : FileReport} {rule : Rule} {initial left : Tree}

/-- A file differs from what it held exactly if one of its edits was kept. -/
theorem FileReport.Records.reads
    (records : report.Records rule initial left) :
    ∃ content final,
      initial.readText report.path = .ok content ∧
      left.readText report.path = .ok final ∧
      (final ≠ content ↔ 0 < report.committed) ∧
      ∀ index, rule = constify index →
        (encode final).size = (encode content).size + 6 * report.committed := by
  obtain ⟨content, final, _, events, readFirst, readLast, trials, attempts⟩ := records
  have committed : report.committed = keptCount (attemptsOn report.path events) := by
    rw [← attempts]
    rfl
  refine ⟨content, final, readFirst, readLast, ?_, ?_⟩
  · obtain ⟨count, same⟩ := trials.holds_of_keeps
      (keeps_acceptedLines rule report.path content) [] ⟨rfl, fun _ => rfl⟩
    rw [List.nil_append, ← committed] at count same
    constructor
    · intro different
      apply Nat.pos_of_ne_zero
      intro noneKept
      exact different (same noneKept)
    · rintro kept rfl
      omega
  · rintro index rfl
    have size := trials.holds_of_keeps (keeps_size index report.path content) [] rfl
    rw [List.nil_append, ← committed] at size
    exact size

theorem FileReport.Records.committed_pos_iff
    (records : report.Records rule initial left) :
    0 < report.committed ↔ left.readText report.path ≠ initial.readText report.path := by
  obtain ⟨content, final, readFirst, readLast, changed, _⟩ := records.reads
  rw [readFirst, readLast, ne_eq, Except.ok.injEq]
  exact changed.symm

end

theorem Attempt.isCommitted_eq_false_iff_answer (attempt : Attempt) :
    (!attempt.isCommitted) = true ↔ attempt.answer = .ok .fail := by
  obtain ⟨line, before, edit, outcome⟩ := attempt
  cases outcome <;> simp [isCommitted, answer]

/-- A total over the files counts the answers that their attempts tell of. -/
theorem foldr_countP_attempts
    {counted : Attempt → Bool} {answer : Answer}
    (tells : ∀ attempt : Attempt, counted attempt = true ↔ attempt.answer = answer)
    (files : List FileReport) :
    files.foldr (fun file count => file.attempts.countP counted + count) 0 =
      ((files.flatMap FileReport.attempts).map Attempt.answer).count answer := by
  have total : files.foldr (fun file count => file.attempts.countP counted + count) 0 =
      (files.flatMap FileReport.attempts).countP counted := by
    rw [List.countP_flatMap, List.sum, List.foldr_map]
    rfl
  rw [total, List.count, List.countP_map]
  apply List.countP_congr
  intro attempt _
  simp only [Function.comp_apply, beq_iff_eq]
  exact tells attempt

theorem RunReport.committed_eq_count (report : RunReport) :
    report.committed =
      ((report.files.flatMap FileReport.attempts).map Attempt.answer).count (.ok .pass) :=
  foldr_countP_attempts Attempt.isCommitted_iff_answer report.files

theorem RunReport.reverted_eq_count (report : RunReport) :
    report.reverted =
      ((report.files.flatMap FileReport.attempts).map Attempt.answer).count (.ok .fail) :=
  foldr_countP_attempts Attempt.isCommitted_eq_false_iff_answer report.files

/-- What a finished run counts is so.  A file holds something else than before exactly if its
report has a kept edit, and as many targets do as the run says; the edits that it says were kept
are the builds that passed after the first one, the others those that failed; and its attempts
are the ones that were told of, in the same order.  An edit that makes a variable constant makes
its file longer by six bytes.

Targets are told apart by where their normal forms lead. -/
theorem run_totals_are_true_of_the_disk
    {State : Type} (rule : Rule) (oracle : Oracle State) (paths : List Text) (world : World State)
    {report : RunReport}
    (noLinks : world.tree.NoLinks)
    (apart : world.tree.TellsApart paths)
    (spared : ∀ path ∈ paths, oracle.Spares world.tree.workingDir (Path.normalize path))
    (finished : (tryEdits rule oracle paths world).result = .ok report) :
    report.files.map FileReport.path = paths.map Path.normalize ∧
    (∀ file ∈ report.files, ∃ content final,
      world.tree.readText file.path = .ok content ∧
      (tryEdits rule oracle paths world).world.tree.readText file.path = .ok final ∧
      (final ≠ content ↔ ∃ attempt ∈ file.attempts, attempt.isCommitted) ∧
      ∀ index, rule = constify index →
        (encode final).size = (encode content).size + 6 * file.committed) ∧
    report.changedFiles = paths.countP (fun path =>
      (tryEdits rule oracle paths world).world.tree.readText (Path.normalize path) ≠
        world.tree.readText (Path.normalize path)) ∧
    Calls oracle world.state (tryEdits rule oracle paths world).events
      (tryEdits rule oracle paths world).world.state ∧
    (∃ later, answersIn (tryEdits rule oracle paths world).events = .ok .pass :: later ∧
      report.committed = later.count (.ok .pass) ∧
      report.reverted = later.count (.ok .fail)) ∧
    toldAttempts (tryEdits rule oracle paths world).events =
      report.files.flatMap FileReport.told := by
  obtain ⟨names, answers, told, records⟩ :=
    tryEdits_records ⟨⟨noLinks, rfl⟩, apart, spared⟩ finished
  refine ⟨names, ?_, ?_, tryEdits_calls rule oracle paths world, ?_, told⟩
  · intro file member
    obtain ⟨content, final, readFirst, readLast, changed, longer⟩ := (records file member).reads
    rw [FileReport.committed, List.countP_pos_iff] at changed
    exact ⟨content, final, readFirst, readLast, changed, longer⟩
  · have renamed := congrArg (List.countP fun path =>
      decide ((tryEdits rule oracle paths world).world.tree.readText path ≠
        world.tree.readText path)) names
    rw [List.countP_map, List.countP_map] at renamed
    refine Eq.trans ?_ renamed
    apply List.countP_congr
    intro file member
    simp only [Function.comp_apply, decide_eq_true_eq]
    exact (records file member).committed_pos_iff
  · exact ⟨_, answers, report.committed_eq_count, report.reverted_eq_count⟩

theorem run_totals_are_true_of_the_disk_of_declaringTree :
    ∃ report final later,
      (tryEdits (constify (.ofPairs [("Foo".toList, "lib".toList)]))
        (.ofAnswers fun _ => .ok .pass) ["a.cpp".toList] ⟨0, declaringTree⟩).result = .ok report ∧
      (tryEdits (constify (.ofPairs [("Foo".toList, "lib".toList)]))
        (.ofAnswers fun _ => .ok .pass) ["a.cpp".toList] ⟨0, declaringTree⟩).world.tree.readText
          (Path.normalize "a.cpp".toList) = .ok final ∧
      answersIn (tryEdits (constify (.ofPairs [("Foo".toList, "lib".toList)]))
        (.ofAnswers fun _ => .ok .pass) ["a.cpp".toList] ⟨0, declaringTree⟩).events =
          .ok .pass :: later ∧
      report.committed = later.count (.ok .pass) ∧
      (encode final).size =
        (encode "Foo a;\nint n;\r\nFoo b = 1;".toList).size + 6 * report.committed := by
  have judges : (Oracle.ofAnswers fun _ => .ok .pass).Judges fun _ => .pass :=
    fun _ => ⟨rfl, rfl⟩
  obtain ⟨report, finished⟩ := exists_report_of_judges
    (constify (.ofPairs [("Foo".toList, "lib".toList)])) ⟨0, declaringTree⟩ judges
    readText_declaringTree rfl
  obtain ⟨names, files, _, _, ⟨later, answers, committed, _⟩, _⟩ :=
    run_totals_are_true_of_the_disk (constify (.ofPairs [("Foo".toList, "lib".toList)]))
      (.ofAnswers fun _ => .ok .pass) ["a.cpp".toList] ⟨0, declaringTree⟩
      (Tree.noLinks_ofTexts _) (List.pairwise_singleton _ _)
      (fun _ _ => Oracle.spares_readOnly _ _ _) finished
  obtain ⟨file, only, path⟩ := List.map_eq_singleton_iff.1 names
  obtain ⟨content, final, readFirst, readLast, _, longer⟩ :=
    files file (only ▸ List.mem_singleton_self file)
  rw [path] at readFirst readLast
  obtain rfl := Except.ok.inj (readText_declaringTree.symm.trans readFirst)
  have total : file.committed = report.committed := by
    rw [RunReport.committed, only]
    rfl
  exact ⟨report, final, later, finished, readLast, answers, committed, total ▸ longer _ rfl⟩

/-- Of two paths for one file the run counts the one under which it was changed, and both of them
lead to what has changed. -/
theorem run_totals_miss_aliases :
    includingTree.NoLinks ∧ (aliases.map Path.normalize).Nodup ∧
    ∃ report,
      (tryEdits pruneIncludes (.ofAnswers fun _ => .ok .pass) aliases ⟨0, includingTree⟩).result =
        .ok report ∧
      report.changedFiles = 1 ∧
      aliases.countP (fun path =>
        (tryEdits pruneIncludes (.ofAnswers fun _ => .ok .pass) aliases
          ⟨0, includingTree⟩).world.tree.readText (Path.normalize path) ≠
            includingTree.readText (Path.normalize path)) = 2 := by
  refine ⟨Tree.noLinks_ofTexts _, nodup_aliases,
    ⟨[⟨"a.cpp".toList, [⟨0, "#include <x>".toList, .remove, .committed⟩]⟩,
      ⟨"../a.cpp".toList, []⟩]⟩, ?_⟩
  rw [tryEdits_eq_get 9 (by decide +kernel)]
  decide +kernel

end Upkeep
