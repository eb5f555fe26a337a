import Upkeep.Proofs.Trial.Calls
import Upkeep.Proofs.Trial.Maximal

/-!
What a report is worth without the run that wrote it.  Its attempts lead from the texts
that the files had to the texts that they have, and its outcomes are the answers of the
oracle, in turn.
-/

namespace Upkeep

/-- The answer that an attempt tells of. -/
def Attempt.answer (attempt : Attempt) : Answer :=
  match attempt.outcome with
  | .committed => .ok .pass
  | .reverted => .ok .fail

theorem Attempt.isCommitted_iff_answer (attempt : Attempt) :
    attempt.isCommitted = true ↔ attempt.answer = .ok .pass := by
  obtain ⟨line, before, edit, outcome⟩ := attempt
  cases outcome <;> simp [isCommitted, answer]

def Event.told? : Event → Option (Text × Attempt)
  | .attempted path attempt _ => some (path, attempt)
  | _ => none

/-- The attempts that are told of, each with the path of its file, in order. -/
def toldAttempts (events : List Event) : List (Text × Attempt) :=
  events.filterMap Event.told?

@[simp]
theorem toldAttempts_append (first second : List Event) :
    toldAttempts (first ++ second) = toldAttempts first ++ toldAttempts second :=
  List.filterMap_append

/-- The attempts of a report, each with the path of its file. -/
def FileReport.told (report : FileReport) : List (Text × Attempt) :=
  report.attempts.map (report.path, ·)

/-- Attempts that can be gone through again: each was made on a line of the text that was
kept by then, and the kept ones lead from one text to the other. -/
structure Retraces (path content : Text) (attempts : List Attempt) (final : Text) : Prop where
  stands : ∀ before attempt after, attempts = before ++ attempt :: after →
    ∃ current, replay path content before = .ok current ∧
      (lines current)[attempt.line]? = some attempt.before
  replayed : replay path content attempts = .ok final

section

variable {rule : Rule} {path : Text} {relation : Relation} {content final : Text} {start : Nat}
  {stop : Option TrialError} {events : List Event}

theorem Trials.retraces
    (trials : Trials rule path relation content start events final stop) :
    Retraces path content (attemptsOn path events) final where
  stands := by
    intro before attempt after split
    obtain ⟨current, _, candidate, _, replayed, found, _, same⟩ :=
      trials.exists_found_of_attempt split
    refine ⟨current, replayed, ?_⟩
    rw [same]
    exact (Rule.findIn?_spec found).2.2.1
  replayed := trials.replay_eq

/-- Finished trials have one answer for each attempt. -/
theorem Trials.answersIn_eq
    (trials : Trials rule path relation content start events final stop)
    (finished : stop = none) :
    answersIn events = (attemptsOn path events).map Attempt.answer := by
  induction trials with
  | done => rfl
  | kept _ _ _ _ _ inductionHypothesis =>
      rw [answersIn_cons_of_not_isBuild rfl, answersIn_built, answersIn_cons_of_not_isBuild rfl,
        inductionHypothesis finished]
      simp only [attemptsOn_found, attemptsOn_built, attemptsOn_attempted_self, List.map_cons]
      rfl
  | reverted _ _ _ _ _ inductionHypothesis =>
      rw [answersIn_cons_of_not_isBuild rfl, answersIn_built, answersIn_cons_of_not_isBuild rfl,
        inductionHypothesis finished]
      simp only [attemptsOn_found, attemptsOn_built, attemptsOn_attempted_self, List.map_cons]
      rfl
  | stopped => simp at finished

/-- Only attempts on the file are told of in its trials. -/
theorem Trials.toldAttempts_eq
    (trials : Trials rule path relation content start events final stop) :
    toldAttempts events = (attemptsOn path events).map (path, ·) := by
  induction trials with
  | done => rfl
  | kept _ _ _ _ _ inductionHypothesis =>
      simp only [attemptsOn_found, attemptsOn_built, attemptsOn_attempted_self, List.map_cons]
      rw [← inductionHypothesis]
      rfl
  | reverted _ _ _ _ _ inductionHypothesis =>
      simp only [attemptsOn_found, attemptsOn_built, attemptsOn_attempted_self, List.map_cons]
      rw [← inductionHypothesis]
      rfl
  | stopped _ _ stops => cases stops <;> rfl

end

section

variable {rule : Rule} {spared : Text → Prop} {paths : List Text} {tree left : Tree}
  {events : List Event} {result : Except TrialError (List FileReport)}

/-- The work on files leaves the other files as they were. -/
theorem Course.file?_eq
    (course : Course rule spared paths tree events left result)
    (plain : tree.Plain tree.workingDir)
    {other : Text} (otherSpared : spared other)
    (apart : ∀ path ∈ paths, tree.placeOf (Path.normalize path) ≠ tree.placeOf other) :
    left.file? other = tree.file? other := by
  induction course with
  | done => rfl
  | unreadable => rfl
  | stopped _ _ holding =>
      exact holding.others other otherSpared (apart _ List.mem_cons_self).symm
  | @finished path paths tree content events final middle later left result _ _ holding _
      inductionHypothesis =>
      have middlePlain : middle.Plain middle.workingDir := by
        rw [holding.plain.workingDir]
        exact holding.plain
      rw [inductionHypothesis middlePlain, holding.others other otherSpared
        (apart _ List.mem_cons_self).symm]
      intro path member
      rw [holding.plain.placeOf_eq plain, holding.plain.placeOf_eq plain]
      exact apart path (List.mem_cons_of_mem _ member)

/-- Whether the attempts of a report lead from what its file holds in one tree to what it
holds in another. -/
def FileReport.Replays (report : FileReport) (initial left : Tree) : Prop :=
  ∃ content final,
    initial.readText report.path = .ok content ∧
    left.readText report.path = .ok final ∧
    Retraces report.path content report.attempts final

/-- Whether a report is the record of finished trials that lead from what its file holds in one
tree to what it holds in another. -/
def FileReport.Records (report : FileReport) (rule : Rule) (initial left : Tree) : Prop :=
  ∃ content final relation events,
    initial.readText report.path = .ok content ∧
    left.readText report.path = .ok final ∧
    Trials rule report.path relation content 0 events final none ∧
    report.attempts = attemptsOn report.path events

theorem FileReport.Records.replays
    {report : FileReport} {initial : Tree}
    (records : report.Records rule initial left) :
    report.Replays initial left := by
  obtain ⟨content, final, _, events, readFirst, readLast, trials, attempts⟩ := records
  exact ⟨content, final, readFirst, readLast, attempts ▸ trials.retraces⟩

theorem FileReport.Records.of_same
    {report : FileReport} {initial middle : Tree}
    (records : report.Records rule middle left)
    (same : middle.file? report.path = initial.file? report.path) :
    report.Records rule initial left := by
  obtain ⟨content, final, relation, events, readFirst, rest⟩ := records
  exact ⟨content, final, relation, events, Tree.readText_eq_of_file?_eq same readFirst, rest⟩

theorem Course.records
    {reports : List FileReport}
    (course : Course rule spared paths tree events left result)
    (targets : Targets spared tree paths)
    (finished : result = .ok reports) :
    reports.map FileReport.path = paths.map Path.normalize ∧
      answersIn events = (reports.flatMap FileReport.attempts).map Attempt.answer ∧
      toldAttempts events = reports.flatMap FileReport.told ∧
      ∀ report ∈ reports, report.Records rule tree left := by
  induction course generalizing reports with
  | done =>
      obtain rfl := Except.ok.inj finished
      simp [toldAttempts]
  | unreadable => simp at finished
  | stopped => simp at finished
  | @finished path paths tree content events final middle later left result read trials holding
      course inductionHypothesis =>
      cases rest : result with
      | error error => simp [rest, Except.map] at finished
      | ok others =>
          rw [rest] at finished
          obtain rfl := Except.ok.inj finished
          have leaves := trials.leaves read holding
            ⟨Path.normalize path, attemptsOn (Path.normalize path) events⟩
          have later_ : Targets spared middle paths := leaves.targets targets
          obtain ⟨names, answers, told, records⟩ := inductionHypothesis later_ rest
          refine ⟨by rw [List.map_cons, List.map_cons, names], ?_, ?_, ?_⟩
          · rw [answersIn_cons_of_not_isBuild rfl, answersIn_append,
              answersIn_cons_of_not_isBuild rfl, trials.answersIn_eq rfl, answers,
              List.flatMap_cons, List.map_append]
          · rw [List.flatMap_cons, ← told, FileReport.told, ← trials.toldAttempts_eq]
            exact toldAttempts_append events (.fileFinished _ :: _)
          · intro report member
            -- What is left of a file is what its own trials left: later ones are on other files.
            rcases List.mem_cons.1 member with rfl | inRest
            · have same :
                  left.file? (Path.normalize path) = middle.file? (Path.normalize path) := by
                apply course.file?_eq later_.plain (targets.spared path List.mem_cons_self)
                intro other otherMember
                rw [holding.plain.placeOf_eq targets.plain, holding.plain.placeOf_eq targets.plain]
                exact ((List.pairwise_cons.1 targets.distinct).1 other otherMember).symm
              exact ⟨content, final, _, events, read,
                Tree.readText_eq_of_file?_eq same.symm holding.readText, trials, rfl⟩
            · obtain ⟨other, otherMember, named⟩ := List.mem_map.1
                (names ▸ List.mem_map_of_mem inRest : report.path ∈ paths.map Path.normalize)
              apply (records report inRest).of_same
              rw [← named]
              exact leaves.file?_eq targets otherMember

end

section

variable {State : Type} {rule : Rule} {oracle : Oracle State} {paths : List Text}
  {world : World State}

/-- What a finished run reports is the record of the trials on its targets. -/
theorem tryEdits_records
    {report : RunReport}
    (targets : Targets (oracle.Spares world.tree.workingDir) world.tree paths)
    (finished : (tryEdits rule oracle paths world).result = .ok report) :
    report.files.map FileReport.path = paths.map Path.normalize ∧
      answersIn (tryEdits rule oracle paths world).events =
        .ok .pass :: (report.files.flatMap FileReport.attempts).map Attempt.answer ∧
      toldAttempts (tryEdits rule oracle paths world).events =
        report.files.flatMap FileReport.told ∧
      ∀ file ∈ report.files,
        file.Records rule world.tree (tryEdits rule oracle paths world).world.tree := by
  have passes := build_of_tryEdits finished
  rw [tryEdits_of_pass passes] at finished ⊢
  cases worked : (tryFiles rule oracle paths (oracle.build world).2).result with
  | error error => simp [Run.after, Run.map, worked, Except.map] at finished
  | ok files =>
      simp only [Run.after, Run.map, worked] at finished ⊢
      obtain rfl := Except.ok.inj finished
      cases paths with
      | nil =>
          obtain rfl := Except.ok.inj worked
          simp [tryFiles, Run.pure, toldAttempts, Event.told?]
      | cons path paths =>
          have plain := (targets.spared path List.mem_cons_self world targets.plain).1
          have leaves := Leaves.ofBuild oracle targets.plain plain (.ok .pass) world.tree
          have course := tryFiles_course rule plain targets.spared
          obtain ⟨names, answers, told, records⟩ := course.records (leaves.targets targets) worked
          refine ⟨names, by rw [List.singleton_append, answersIn_built, answers], told, ?_⟩
          intro file member
          obtain ⟨target, targetMember, named⟩ := List.mem_map.1
            (names ▸ List.mem_map_of_mem member :
              file.path ∈ (path :: paths).map Path.normalize)
          apply (records file member).of_same
          rw [← named]
          exact leaves.file?_eq targets targetMember

theorem tryEdits_replays
    {report : RunReport}
    (targets : Targets (oracle.Spares world.tree.workingDir) world.tree paths)
    (finished : (tryEdits rule oracle paths world).result = .ok report) :
    report.files.map FileReport.path = paths.map Path.normalize ∧
      answersIn (tryEdits rule oracle paths world).events =
        .ok .pass :: (report.files.flatMap FileReport.attempts).map Attempt.answer ∧
      ∀ file ∈ report.files,
        file.Replays world.tree (tryEdits rule oracle paths world).world.tree := by
  obtain ⟨names, answers, _, records⟩ := tryEdits_records targets finished
  exact ⟨names, answers, fun file member => (records file member).replays⟩

/-- A report can be replayed without the run.  From what a file held, its attempts lead to
what it holds now: each was made on the line that it names, and the kept ones apply one
after the other.  After the first build there is one for each attempt of the run, in the
same order, and an attempt is kept exactly if its build passed.

Targets are told apart by where their normal forms lead, as two of them for one file would
share what is left in it. -/
theorem report_replays_to_tree
    (rule : Rule) (oracle : Oracle State) (paths : List Text) (world : World State)
    {report : RunReport}
    (noLinks : world.tree.NoLinks)
    (apart : world.tree.TellsApart paths)
    (spared : ∀ path ∈ paths, oracle.Spares world.tree.workingDir (Path.normalize path))
    (finished : (tryEdits rule oracle paths world).result = .ok report) :
    report.files.map FileReport.path = paths.map Path.normalize ∧
    (∀ file ∈ report.files, ∃ content final,
      world.tree.readText file.path = .ok content ∧
      (tryEdits rule oracle paths world).world.tree.readText file.path = .ok final ∧
      Retraces file.path content file.attempts final) ∧
    Calls oracle world.state (tryEdits rule oracle paths world).events
      (tryEdits rule oracle paths world).world.state ∧
    (answersIn (tryEdits rule oracle paths world).events).length =
      1 + (report.files.flatMap FileReport.attempts).length ∧
    ∀ number attempt,
      (report.files.flatMap FileReport.attempts)[number]? = some attempt →
      (attempt.isCommitted ↔
        (answersIn (tryEdits rule oracle paths world).events)[number + 1]? =
          some (.ok .pass)) := by
  obtain ⟨names, answers, replays⟩ := tryEdits_replays ⟨⟨noLinks, rfl⟩, apart, spared⟩ finished
  refine ⟨names, replays, tryEdits_calls rule oracle paths world, ?_, ?_⟩
  · rw [answers, List.length_cons, List.length_map, Nat.add_comm]
  · intro number attempt at_
    rw [answers, List.getElem?_cons_succ, List.getElem?_map, at_, Option.map_some,
      Option.some.injEq]
    exact attempt.isCommitted_iff_answer

end

/-- Both attempts were made on the first line, which the first one took out. -/
theorem report_replays_to_tree_of_onceKeptReport :
    (tryEdits pruneIncludes (Script.oracle ⟨[.pass, .pass, .fail], none⟩) ["a.cpp".toList]
      ⟨0, twoHeadersTree⟩).result = .ok onceKeptReport ∧
    (∀ file ∈ onceKeptReport.files,
      Retraces file.path "#include <x>\n#include <y>\nint a;\n".toList file.attempts
        "#include <y>\nint a;\n".toList) ∧
    ∀ number attempt,
      (onceKeptReport.files.flatMap FileReport.attempts)[number]? = some attempt →
      (attempt.isCommitted ↔ number = 0) := by
  have ran : (tryEdits pruneIncludes (Script.oracle ⟨[.pass, .pass, .fail], none⟩)
        ["a.cpp".toList] ⟨0, twoHeadersTree⟩).result = .ok onceKeptReport ∧
      (tryEdits pruneIncludes (Script.oracle ⟨[.pass, .pass, .fail], none⟩)
        ["a.cpp".toList] ⟨0, twoHeadersTree⟩).world.tree.readText "a.cpp".toList =
          .ok "#include <y>\nint a;\n".toList ∧
      answersIn (tryEdits pruneIncludes (Script.oracle ⟨[.pass, .pass, .fail], none⟩)
        ["a.cpp".toList] ⟨0, twoHeadersTree⟩).events = [.ok .pass, .ok .pass, .ok .fail] := by
    rw [tryEdits_eq_get 12 (by decide +kernel)]
    decide +kernel
  obtain ⟨finished, left, answers⟩ := ran
  obtain ⟨_, replays, _, count, kept⟩ :=
    report_replays_to_tree pruneIncludes _ ["a.cpp".toList] ⟨0, twoHeadersTree⟩
      (Tree.noLinks_ofTexts _) (List.pairwise_singleton _ _)
      (fun _ _ => Script.spares_oracle _ _ _) finished
  refine ⟨finished, ?_, ?_⟩
  · intro file member
    obtain ⟨content, final, before, after, retraces⟩ := replays file member
    obtain rfl := List.mem_singleton.1 member
    obtain rfl := Except.ok.inj (readText_twoHeadersTree.symm.trans before)
    obtain rfl := Except.ok.inj (left.symm.trans after)
    exact retraces
  · intro number attempt at_
    rw [kept number attempt at_, answers]
    obtain ⟨inside, _⟩ := List.getElem?_eq_some_iff.1 at_
    have few : number = 0 ∨ number = 1 := by
      have two : (onceKeptReport.files.flatMap FileReport.attempts).length = 2 := rfl
      omega
    rcases few with rfl | rfl <;> decide

/-- The second of two paths for one file has nothing to report, and yet its file is another one in
the end. -/
theorem report_replays_to_tree_misses_aliases :
    includingTree.NoLinks ∧ (aliases.map Path.normalize).Nodup ∧
    ∃ report file,
      (tryEdits pruneIncludes (.ofAnswers fun _ => .ok .pass) aliases ⟨0, includingTree⟩).result =
        .ok report ∧
      file ∈ report.files ∧
      ¬ file.Replays includingTree
        (tryEdits pruneIncludes (.ofAnswers fun _ => .ok .pass) aliases
          ⟨0, includingTree⟩).world.tree := by
  have ran : (tryEdits pruneIncludes (.ofAnswers fun _ => .ok .pass) aliases
        ⟨0, includingTree⟩).result =
          .ok ⟨[⟨"a.cpp".toList, [⟨0, "#include <x>".toList, .remove, .committed⟩]⟩,
            ⟨"../a.cpp".toList, []⟩]⟩ ∧
      includingTree.readText "../a.cpp".toList = .ok "#include <x>\nint a;\n".toList ∧
      (tryEdits pruneIncludes (.ofAnswers fun _ => .ok .pass) aliases
        ⟨0, includingTree⟩).world.tree.readText "../a.cpp".toList = .ok "int a;\n".toList := by
    rw [tryEdits_eq_get 9 (by decide +kernel)]
    decide +kernel
  obtain ⟨finished, before, after⟩ := ran
  refine ⟨Tree.noLinks_ofTexts _, nodup_aliases, _, ⟨"../a.cpp".toList, []⟩, finished, by simp, ?_⟩
  rintro ⟨content, final, readFirst, readLast, retraces⟩
  obtain rfl := Except.ok.inj (before.symm.trans readFirst)
  obtain rfl := Except.ok.inj (after.symm.trans readLast)
  have same := Except.ok.inj retraces.replayed
  revert same
  decide

end Upkeep
