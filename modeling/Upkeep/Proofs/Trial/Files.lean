import Upkeep.Proofs.Trial.Snapshot

/-!
The work on files, one after the other.  What a file is left with when it is done is
what the files after it find, so that each build of the run sees the targets as the
snapshot says.
-/

namespace Upkeep

/-- The course of the work on files, one after the other: the tree before it, what
happens, and the tree and the result after it. -/
inductive Course (rule : Rule) (spared : Text → Prop) :
    List Text → Tree → List Event → Tree → Except TrialError (List FileReport) → Prop where
  | done {tree} : Course rule spared [] tree [] tree (.ok [])
  | unreadable {path paths tree error} :
      SourceFile.read tree path = .error error →
      Course rule spared (path :: paths) tree [.fileStarted path] tree (.error (.source error))
  | stopped {path paths tree content events final left error} :
      tree.readText (Path.normalize path) = .ok content →
      Trials rule (Path.normalize path) (holdingRelation spared tree (Path.normalize path))
        content 0 events final (some (.build error)) →
      Holding spared tree (Path.normalize path) final left →
      Course rule spared (path :: paths) tree (.fileStarted path :: events) left
        (.error (.build error))
  | finished {path paths tree content events final middle later left result} :
      tree.readText (Path.normalize path) = .ok content →
      Trials rule (Path.normalize path) (holdingRelation spared tree (Path.normalize path))
        content 0 events final none →
      Holding spared tree (Path.normalize path) final middle →
      Course rule spared paths middle later left result →
      Course rule spared (path :: paths) tree
        (.fileStarted path :: (events ++
          .fileFinished ⟨Path.normalize path, attemptsOn (Path.normalize path) events⟩ :: later))
        left
        (result.map
          (⟨Path.normalize path, attemptsOn (Path.normalize path) events⟩ :: ·))

variable {State : Type} {rule : Rule} {oracle : Oracle State} {folder : Place}

/-- The work on files takes its course in a tree without links, if the builds spare
the files. -/
theorem tryFiles_course
    (rule : Rule) {paths : List Text} {world : World State}
    (plain : world.tree.Plain folder)
    (spares : ∀ path ∈ paths, oracle.Spares folder (Path.normalize path)) :
    Course rule (oracle.Spares folder) paths world.tree
      (tryFiles rule oracle paths world).events
      (tryFiles rule oracle paths world).world.tree
      (tryFiles rule oracle paths world).result := by
  induction paths generalizing world with
  | nil => exact .done
  | cons path paths inductionHypothesis =>
      rw [tryFiles]
      cases read : SourceFile.read world.tree path with
      | error error =>
          rw [tryFile, read]
          exact .unreadable read
      | ok file =>
          obtain ⟨filePath, readText⟩ := SourceFile.read_eq_ok_iff.1 read
          obtain ⟨_, content⟩ := file
          subst filePath
          obtain rfl := plain.workingDir
          have pathSpared := spares path List.mem_cons_self
          obtain ⟨final, stop, trials, result, shown⟩ :=
            tryFile_trials rule read (holdingRelation_follows plain pathSpared)
              (Holding.refl plain readText)
          generalize tryFile rule oracle path world = run at trials result shown ⊢
          obtain ⟨events, middle, outcome⟩ := run
          simp only at trials result shown
          subst result
          cases stop with
          | some error =>
              obtain ⟨fault, rfl, _⟩ := trials.exists_build_of_stop (holdingRelation_writable plain)
              exact .stopped readText trials (shown (by simp))
          | none =>
              have holding := shown (by simp)
              exact .finished readText trials holding
                (inductionHypothesis holding.plain fun other member =>
                  spares other (List.mem_cons_of_mem _ member))

/-- The error that a result stands for, if it is one. -/
def errorOf {Value : Type} : Except TrialError Value → Option TrialError
  | .error error => some error
  | .ok _ => none

theorem eq_error_of_errorOf
    {Value : Type} {result : Except TrialError Value} {error : TrialError}
    (failed : errorOf result = some error) :
    result = .error error := by
  cases result with
  | error other => rw [Option.some.inj failed]
  | ok value => simp [errorOf] at failed

@[simp]
theorem errorOf_map
    {Value Other : Type} (change : Value → Other) (result : Except TrialError Value) :
    errorOf (result.map change) = errorOf result := by
  cases result <;> rfl

section

variable {spared : Text → Prop} {base tree middle left : Tree} {paths later : List Text}
  {path text content final : Text} {start : Nat} {events front inner before after rest : List Event}
  {result : Except TrialError (List FileReport)} {stop trialStop : Option TrialError}
  {answer : Answer} {baseline : Text} {candidate : Candidate}

theorem Holding.snapshot
    (targets : Targets spared base (path :: later))
    (holding : Holding spared base (Path.normalize path) text tree) :
    Snapshot base spared events [] path later text tree where
  current := holding.read
  finished := by simp
  waiting := by
    intro other member
    apply holding.others
    · exact targets.spared other (List.mem_cons_of_mem path member)
    · exact ((List.pairwise_cons.1 targets.distinct).1 other member).symm
  others := by
    intro other otherSpared apart
    exact holding.others other otherSpared (apart path List.mem_cons_self).symm

/-- A build among the trials on the first target is a build of the run. -/
theorem TrialMoment.buildMoment
    (targets : Targets spared base (path :: later))
    (read : base.readText (Path.normalize path) = .ok content)
    (ends : ∀ error, trialStop = some error →
      rest = [] ∧ stop = some error ∧ Holding spared base (Path.normalize path) final left)
    (moment : TrialMoment rule (Path.normalize path)
      (holdingRelation spared base (Path.normalize path)) content final trialStop
      before answer tree inner baseline candidate text) :
    BuildMoment rule spared base events left stop (.fileStarted path :: before) answer tree
      (inner ++ rest) [] path later baseline candidate text := by
  have kept : KeptText base (Path.normalize path) (.fileStarted path :: before) baseline :=
    ⟨content, read, moment.kept⟩
  obtain ⟨_, proposed⟩ := moment.proposed
  constructor
  · change path :: startedFiles before = [] ++ [path]
    rw [moment.started, List.nil_append]
  · exact kept
  · exact moment.proposed
  · exact moment.applied
  · exact Holding.snapshot targets moment.asked
  · intro pass
    obtain ⟨settled, others, rfl, shown⟩ := moment.passed pass
    exact ⟨settled, others ++ rest, rfl,
      kept.committed (Rule.findIn?_spec proposed).1 moment.applied answer tree settled,
      Holding.snapshot targets shown⟩
  · intro fail
    obtain ⟨settled, others, rfl, shown⟩ := moment.failed fail
    exact ⟨settled, others ++ rest, rfl, kept.reverted candidate answer tree settled,
      Holding.snapshot targets shown⟩
  · intro error broke
    obtain ⟨rfl, stopped, rfl⟩ := moment.broken error broke
    obtain ⟨rfl, stopped, holding⟩ := ends _ stopped
    exact ⟨rfl, stopped, holding.snapshot targets⟩

/-- What a target leaves when all its trials are done. -/
theorem Trials.leaves
    (read : base.readText (Path.normalize path) = .ok content)
    (trials : Trials rule (Path.normalize path)
      (holdingRelation spared base (Path.normalize path)) content start events final none)
    (holding : Holding spared base (Path.normalize path) final middle) (report : FileReport) :
    Leaves spared base [path] (.fileStarted path :: (events ++ [.fileFinished report])) middle where
  plain := holding.plain
  started := by
    change path :: startedFiles (events ++ [.fileFinished report]) = [path]
    rw [startedFiles_append, trials.startedFiles_eq]
    rfl
  untried := by
    intro other apart
    simp [trials.attemptsOn_of_ne (apart path List.mem_cons_self)]
  finished := by
    intro other member
    rw [List.mem_singleton] at member
    subst member
    refine ⟨final, ⟨content, read, ?_⟩, holding.read⟩
    simpa using trials.replay_eq
  others := by
    intro other otherSpared apart
    exact holding.others other otherSpared (apart path List.mem_cons_self).symm

theorem Course.attemptsOn_eq_nil
    {other : Text}
    (course : Course rule spared paths tree events left result)
    (apart : ∀ path ∈ paths, Path.normalize path ≠ other) :
    attemptsOn other events = [] := by
  induction course with
  | done => rfl
  | unreadable => rfl
  | stopped _ trials => simp [trials.attemptsOn_of_ne (apart _ List.mem_cons_self)]
  | finished _ trials _ _ inductionHypothesis =>
      have later := inductionHypothesis fun path member =>
        apart path (List.mem_cons_of_mem _ member)
      simp [trials.attemptsOn_of_ne (apart _ List.mem_cons_self), later]

/-- Each build of the work on files is such a moment. -/
theorem Course.exists_moment
    {built : Tree}
    (course : Course rule spared paths tree events left result)
    (targets : Targets spared tree paths)
    (split : events = before ++ .built answer built :: after) :
    ∃ earlier path later baseline candidate text,
      paths = earlier ++ path :: later ∧
        BuildMoment rule spared tree events left (errorOf result) before answer built after
          earlier path later baseline candidate text := by
  induction course generalizing before with
  | done => simp at split
  | unreadable =>
      obtain ⟨front, rfl, split⟩ := exists_front_of_split rfl split
      simp at split
  | @stopped path paths tree content events final left error read trials holding =>
      obtain ⟨front, rfl, inTrials⟩ := exists_front_of_split rfl split
      obtain ⟨baseline, candidate, text, moment⟩ := trials.exists_moment (by simp) inTrials
      refine ⟨[], path, paths, baseline, candidate, text, rfl, ?_⟩
      rw [← List.append_nil after]
      refine moment.buildMoment targets read fun fault same => ⟨rfl, ?_, holding⟩
      exact same
  | @finished path paths tree content events final middle others left result read trials holding
      course inductionHypothesis =>
      obtain ⟨front, rfl, rest⟩ := exists_front_of_split rfl split
      rcases List.append_eq_append_iff.1 rest with
        ⟨inner, rfl, later⟩ | ⟨inner, inTrials, later⟩
      · obtain ⟨inner, rfl, inLater⟩ := exists_front_of_split rfl later
        have leaves := trials.leaves read holding
          ⟨Path.normalize path, attemptsOn (Path.normalize path) events⟩
        obtain ⟨earlier, current, waiting, baseline, candidate, text, rfl, moment⟩ :=
          inductionHypothesis (leaves.targets targets) inLater
        refine ⟨path :: earlier, current, waiting, baseline, candidate, text, rfl, ?_⟩
        have untried : ∀ first ∈ [path], attemptsOn (Path.normalize first) others = [] := by
          intro first member
          apply course.attemptsOn_eq_nil
          intro other otherMember
          have bothTargets : Targets spared tree ([path] ++ _) := targets
          exact (bothTargets.normalize_ne member otherMember).symm
        simpa using leaves.moment targets untried moment
      · cases inner with
        | nil => simp at later
        | cons event inner =>
            rw [List.cons_append, List.cons.injEq] at later
            obtain ⟨rfl, rfl⟩ := later
            obtain ⟨baseline, candidate, text, moment⟩ := trials.exists_moment (by simp) inTrials
            exact ⟨[], path, paths, baseline, candidate, text, rfl,
              moment.buildMoment targets read (by simp)⟩

theorem Course.exists_build_of_found
    (read : tree.readText (Path.normalize path) = .ok content)
    (found : rule.findIn? (Path.normalize path) content 0 = some candidate)
    (course : Course rule spared (path :: later) tree events left result) :
    ∃ answer built after,
      events = .fileStarted path :: .found candidate :: .built answer built :: after := by
  cases course with
  | unreadable unreadable =>
      have readable : SourceFile.read tree path = .ok ⟨Path.normalize path, content⟩ :=
        SourceFile.read_eq_ok_iff.2 ⟨rfl, read⟩
      rw [readable] at unreadable
      simp at unreadable
  | stopped readToo trials =>
      obtain rfl := Except.ok.inj (read.symm.trans readToo)
      obtain ⟨answer, built, after, rfl⟩ := trials.exists_build_of_found found (by simp)
      exact ⟨_, _, _, rfl⟩
  | finished readToo trials =>
      obtain rfl := Except.ok.inj (read.symm.trans readToo)
      obtain ⟨answer, built, after, rfl⟩ := trials.exists_build_of_found found (by simp)
      exact ⟨_, _, _, rfl⟩

end

end Upkeep
