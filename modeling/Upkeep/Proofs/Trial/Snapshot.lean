import Upkeep.Proofs.Tree.Apart
import Upkeep.Proofs.Trial.Disk
import Upkeep.Proofs.Trial.Moment

/-!
What the targets of a run hold at each build and right after it.  The target that is
worked on holds its kept text with one edit applied, the targets before it hold what
was kept of their edits in the end, and everything else is as it was before the run.
-/

namespace Upkeep

/-- Whether a text is what the edits kept so far make of a file. -/
def KeptText (initial : Tree) (path : Text) (events : List Event) (text : Text) : Prop :=
  ∃ content, initial.readText path = .ok content ∧
    replay path content (attemptsOn path events) = .ok text

theorem KeptText.committed
    {initial : Tree} {path content text : Text} {events : List Event} {candidate : Candidate}
    (kept : KeptText initial path events content)
    (same : candidate.path = path)
    (applied : candidate.apply content = .ok text)
    (answer : Answer) (tree settled : Tree) :
    KeptText initial path
      (events ++ [.built answer tree, .attempted path (candidate.attempt .committed) settled])
      text := by
  obtain ⟨first, read, replayed⟩ := kept
  refine ⟨first, read, ?_⟩
  rw [attemptsOn_append, replay_append replayed]
  simp only [attemptsOn_built, attemptsOn_attempted_self, attemptsOn_nil]
  rw [replay_committed same applied]
  rfl

theorem KeptText.reverted
    {initial : Tree} {path content : Text} {events : List Event}
    (kept : KeptText initial path events content)
    (candidate : Candidate) (answer : Answer) (tree settled : Tree) :
    KeptText initial path
      (events ++ [.built answer tree, .attempted path (candidate.attempt .reverted) settled])
      content := by
  obtain ⟨first, read, replayed⟩ := kept
  refine ⟨first, read, ?_⟩
  rw [attemptsOn_append, replay_append replayed]
  simp only [attemptsOn_built, attemptsOn_attempted_self, attemptsOn_nil, replay_reverted]
  rfl

/-- The files that a run is about.  They are different files, and the builds spare them. -/
structure Targets (spared : Text → Prop) (tree : Tree) (paths : List Text) : Prop where
  plain : tree.Plain tree.workingDir
  distinct : tree.TellsApart paths
  spared : ∀ path ∈ paths, spared (Path.normalize path)

/-- What the files hold while one of the targets holds a given text.  The events are
those of the whole run. -/
structure Snapshot
    (initial : Tree) (spared : Text → Prop) (events : List Event)
    (earlier : List Text) (path : Text) (later : List Text)
    (text : Text) (tree : Tree) : Prop where
  current : tree.read (Path.normalize path) = .ok (encode text)
  finished : ∀ other ∈ earlier, ∃ kept,
    KeptText initial (Path.normalize other) events kept ∧
      tree.read (Path.normalize other) = .ok (encode kept)
  waiting : ∀ other ∈ later,
    tree.file? (Path.normalize other) = initial.file? (Path.normalize other)
  others : ∀ other, spared other →
    (∀ target ∈ earlier ++ path :: later,
      initial.placeOf (Path.normalize target) ≠ initial.placeOf other) →
    tree.file? other = initial.file? other

/-- A build in the middle of a run: the target that is worked on, its kept text, the
edit on trial, and what comes of it. -/
structure BuildMoment
    (rule : Rule) (spared : Text → Prop) (initial : Tree)
    (events : List Event) (left : Tree) (stop : Option TrialError)
    (before : List Event) (answer : Answer) (tree : Tree) (after : List Event)
    (earlier : List Text) (path : Text) (later : List Text)
    (baseline : Text) (candidate : Candidate) (text : Text) : Prop where
  started : startedFiles before = earlier ++ [path]
  kept : KeptText initial (Path.normalize path) before baseline
  proposed : ∃ start, rule.findIn? (Path.normalize path) baseline start = some candidate
  applied : candidate.apply baseline = .ok text
  onTrial : Snapshot initial spared events earlier path later text tree
  passed : answer = .ok .pass → ∃ settled rest,
    after = .attempted (Path.normalize path) (candidate.attempt .committed) settled :: rest ∧
      KeptText initial (Path.normalize path)
        (before ++ [.built answer tree,
          .attempted (Path.normalize path) (candidate.attempt .committed) settled]) text ∧
      Snapshot initial spared events earlier path later text settled
  failed : answer = .ok .fail → ∃ settled rest,
    after = .attempted (Path.normalize path) (candidate.attempt .reverted) settled :: rest ∧
      KeptText initial (Path.normalize path)
        (before ++ [.built answer tree,
          .attempted (Path.normalize path) (candidate.attempt .reverted) settled]) baseline ∧
      Snapshot initial spared events earlier path later baseline settled
  broken : ∀ error, answer = .error error →
    after = [] ∧ stop = some (.build error) ∧
      Snapshot initial spared events earlier path later baseline left

/-- What a part of a run that is over leaves for the rest of it. -/
structure Leaves
    (spared : Text → Prop) (base : Tree) (paths : List Text) (events : List Event)
    (middle : Tree) : Prop where
  plain : middle.Plain base.workingDir
  started : startedFiles events = paths
  untried : ∀ other, (∀ path ∈ paths, Path.normalize path ≠ other) → attemptsOn other events = []
  finished : ∀ path ∈ paths, ∃ kept,
    KeptText base (Path.normalize path) events kept ∧
      middle.read (Path.normalize path) = .ok (encode kept)
  others : ∀ other, spared other →
    (∀ path ∈ paths, base.placeOf (Path.normalize path) ≠ base.placeOf other) →
    middle.file? other = base.file? other

section

variable {spared : Text → Prop} {base middle tree : Tree} {paths earlier later : List Text}
  {path text : Text} {front events : List Event}

theorem Targets.normalize_ne
    (targets : Targets spared base (earlier ++ later))
    {first second : Text} (firstMember : first ∈ earlier) (secondMember : second ∈ later) :
    Path.normalize first ≠ Path.normalize second := by
  intro same
  exact (List.pairwise_append.1 targets.distinct).2.2 _ firstMember _ secondMember
    (congrArg base.placeOf same)

/-- The targets that are left are targets in the tree that the first ones leave. -/
theorem Leaves.targets
    (targets : Targets spared base (paths ++ later))
    (leaves : Leaves spared base paths front middle) :
    Targets spared middle later where
  plain := by
    rw [leaves.plain.workingDir]
    exact leaves.plain
  distinct := by
    refine (List.pairwise_append.1 targets.distinct).2.1.imp fun different => ?_
    rwa [leaves.plain.placeOf_eq targets.plain, leaves.plain.placeOf_eq targets.plain]
  spared := fun other member => targets.spared other (List.mem_append_right paths member)

theorem Leaves.file?_eq
    (leaves : Leaves spared base paths front middle)
    (targets : Targets spared base (paths ++ later))
    {other : Text} (member : other ∈ later) :
    middle.file? (Path.normalize other) = base.file? (Path.normalize other) := by
  apply leaves.others
  · exact targets.spared other (List.mem_append_right paths member)
  · intro first firstMember
    exact (List.pairwise_append.1 targets.distinct).2.2 first firstMember other member

/-- What is kept of a later target does not depend on the first ones. -/
theorem Leaves.keptText
    (leaves : Leaves spared base paths front middle)
    (targets : Targets spared base (paths ++ later))
    {other : Text} (member : other ∈ later)
    (kept : KeptText middle (Path.normalize other) events text) :
    KeptText base (Path.normalize other) (front ++ events) text := by
  obtain ⟨content, read, replayed⟩ := kept
  refine ⟨content, Tree.readText_eq_of_file?_eq (leaves.file?_eq targets member) read, ?_⟩
  have untried := leaves.untried (Path.normalize other) fun first firstMember =>
    targets.normalize_ne firstMember member
  rw [attemptsOn_append, untried, List.nil_append]
  exact replayed

/-- What the rest of the run sees holds of the whole run. -/
theorem Leaves.snapshot
    (leaves : Leaves spared base paths front middle)
    (targets : Targets spared base (paths ++ (earlier ++ path :: later)))
    (untried : ∀ first ∈ paths, attemptsOn (Path.normalize first) events = [])
    (snapshot : Snapshot middle spared events earlier path later text tree) :
    Snapshot base spared (front ++ events) (paths ++ earlier) path later text tree where
  current := snapshot.current
  finished := by
    intro other member
    rcases List.mem_append.1 member with first | second
    · obtain ⟨kept, ⟨content, read, replayed⟩, holds⟩ := leaves.finished other first
      refine ⟨kept, ⟨content, read, ?_⟩, ?_⟩
      · rw [attemptsOn_append, untried other first, List.append_nil]
        exact replayed
      · refine Tree.read_eq_of_file?_eq (snapshot.others _ ?_ ?_).symm holds
        · exact targets.spared other (List.mem_append_left _ first)
        · intro target targetMember
          rw [leaves.plain.placeOf_eq targets.plain, leaves.plain.placeOf_eq targets.plain]
          exact ((List.pairwise_append.1 targets.distinct).2.2 other first target
            targetMember).symm
    · obtain ⟨kept, keptText, holds⟩ := snapshot.finished other second
      exact ⟨kept, leaves.keptText targets (List.mem_append_left _ second) keptText, holds⟩
  waiting := by
    intro other member
    rw [snapshot.waiting other member]
    exact leaves.file?_eq targets (List.mem_append_right _ (List.mem_cons_of_mem _ member))
  others := by
    intro other otherSpared apart
    rw [List.append_assoc] at apart
    rw [snapshot.others other otherSpared, leaves.others other otherSpared]
    · intro first member
      exact apart first (List.mem_append_left _ member)
    · intro target member
      rw [leaves.plain.placeOf_eq targets.plain, leaves.plain.placeOf_eq targets.plain]
      exact apart target (List.mem_append_right _ member)

theorem Leaves.moment
    {rule : Rule} {left : Tree} {stop : Option TrialError} {before after : List Event}
    {answer : Answer} {baseline : Text} {candidate : Candidate}
    (leaves : Leaves spared base paths front middle)
    (targets : Targets spared base (paths ++ (earlier ++ path :: later)))
    (untried : ∀ first ∈ paths, attemptsOn (Path.normalize first) events = [])
    (moment : BuildMoment rule spared middle events left stop before answer tree after
      earlier path later baseline candidate text) :
    BuildMoment rule spared base (front ++ events) left stop (front ++ before) answer tree after
      (paths ++ earlier) path later baseline candidate text where
  started := by rw [startedFiles_append, leaves.started, moment.started, List.append_assoc]
  kept := leaves.keptText targets (by simp) moment.kept
  proposed := moment.proposed
  applied := moment.applied
  onTrial := leaves.snapshot targets untried moment.onTrial
  passed := by
    intro pass
    obtain ⟨settled, rest, next, kept, snapshot⟩ := moment.passed pass
    refine ⟨settled, rest, next, ?_, leaves.snapshot targets untried snapshot⟩
    rw [List.append_assoc]
    exact leaves.keptText targets (by simp) kept
  failed := by
    intro fail
    obtain ⟨settled, rest, next, kept, snapshot⟩ := moment.failed fail
    refine ⟨settled, rest, next, ?_, leaves.snapshot targets untried snapshot⟩
    rw [List.append_assoc]
    exact leaves.keptText targets (by simp) kept
  broken := by
    intro error broke
    obtain ⟨ended, stopped, snapshot⟩ := moment.broken error broke
    exact ⟨ended, stopped, leaves.snapshot targets untried snapshot⟩

end

end Upkeep
