import Upkeep.Proofs.Trial.Disk

/-!
Trials on a file that builds do not disturb.  When they are over, the file holds the
kept text, whatever the answers were; where each answer is a verdict, they come to an end.
-/

namespace Upkeep

/-- Text and tree go together if the tree is the given one with this text. -/
def textRelation (base : Tree) (place : Place) (mode : Nat) : Relation where
  shows := fun text tree => tree = base.withText place mode text
  asks := fun text _ tree => tree = base.withText place mode text

section

variable {State : Type} {rule : Rule} {oracle : Oracle State} {world : World State}
  {base : Tree} {path content : Text} {place : Place} {mode : Nat}

theorem textRelation_follows
    (quiet : ∀ world : World State, (oracle.build world).2.tree = world.tree)
    (rewritable : base.Rewritable (Path.normalize path) place mode) :
    (textRelation base place mode).Follows oracle (Path.normalize path) where
  write := by
    rintro _ left content text rfl written
    rw [rewritable.writeText_withText, Except.ok.injEq] at written
    exact written.symm
  build := fun world _ _ _ shown => ⟨shown, (quiet world).trans shown⟩

theorem textRelation_writable
    (rewritable : base.Rewritable (Path.normalize path) place mode)
    {tree : Tree} {text new : Text} {fault : SourceError}
    (shown : (textRelation base place mode).shows text tree) :
    writeText tree (Path.normalize path) new ≠ .error fault := by
  obtain rfl : tree = base.withText place mode text := shown
  rw [rewritable.writeText_withText]
  simp

/-- Where there is something to try, the work on a file is the same if the file is put
in place of a link to it first. -/
theorem tryFile_withText
    {content : Text} {state : State} {candidate : Candidate}
    (rewritable : base.Rewritable (Path.normalize path) place mode)
    (readText : base.readText (Path.normalize path) = .ok content)
    (found : rule.findIn? (Path.normalize path) content 0 = some candidate) :
    tryFile rule oracle path ⟨state, base⟩ =
      tryFile rule oracle path ⟨state, base.withText place mode content⟩ := by
  have readBase := SourceFile.read_of_readText readText
  have readAgain := SourceFile.read_of_readText (rewritable.readText_withText content)
  have same : tryFrom rule oracle ⟨Path.normalize path, content⟩ 0 ⟨state, base⟩ =
      tryFrom rule oracle ⟨Path.normalize path, content⟩ 0
        ⟨state, base.withText place mode content⟩ :=
    tryFrom_eq_of_written found fun text =>
      ⟨_, rewritable.write text, rewritable.writeText_withText content text⟩
  rw [tryFile_of_read rule oracle readBase, tryFile_of_read rule oracle readAgain, same]

/-- The trials on a file, its text when they are over, and how they can be cut short. -/
structure Finish (rule : Rule) (path content : Text) (run : Run State FileReport) (final : Text)
    (stop : Option TrialError) : Prop where
  trials : ∃ relation, Trials rule path relation content 0 run.events final stop
  result : run.result = (trialResult path run.events stop).map (FileReport.mk path)
  text : run.world.tree.readText path = .ok final
  stopped : ∀ error, stop = some error → ∃ fault tree,
    error = .build fault ∧ .built (.error fault) tree ∈ run.events

theorem exists_finish_of_relation
    {relation : Relation}
    (follows : relation.Follows oracle (Path.normalize path))
    (writable : ∀ {text tree new fault}, relation.shows text tree →
      writeText tree (Path.normalize path) new ≠ .error fault)
    (readable : ∀ {text tree}, relation.shows text tree →
      tree.readText (Path.normalize path) = .ok text)
    (shown : relation.shows content world.tree) :
    ∃ final stop, Finish rule (Path.normalize path) content (tryFile rule oracle path world)
      final stop := by
  have read := SourceFile.read_of_readText (readable shown)
  obtain ⟨final, stop, trials, result, shownLast⟩ := tryFile_trials rule read follows shown
  have stopped : ∀ error, stop = some error → ∃ fault tree, error = .build fault ∧
      .built (.error fault) tree ∈ (tryFile rule oracle path world).events := by
    rintro error rfl
    obtain ⟨fault, same, _, tree, _, built⟩ := trials.exists_build_of_stop writable
    exact ⟨fault, tree, same, built⟩
  refine ⟨final, stop, ⟨relation, trials⟩, result, readable (shownLast fun fault same => ?_),
    stopped⟩
  obtain ⟨_, _, other, _⟩ := stopped _ same
  simp at other

/-- The trials on a file that builds do not disturb leave the kept text in it. -/
theorem exists_finish
    (rule : Rule)
    (respects : oracle.Respects world.tree (Path.normalize path))
    (readText : world.tree.readText (Path.normalize path) = .ok content) :
    ∃ final stop, Finish rule (Path.normalize path) content (tryFile rule oracle path world)
      final stop := by
  rcases respects with quiet | ⟨noLinks, spares⟩
  · cases found : rule.findIn? (Path.normalize path) content 0 with
    | none =>
        rw [tryFile_of_none (SourceFile.read_of_readText readText) found]
        exact ⟨content, none, ⟨⟨fun _ _ => True, fun _ _ _ => True⟩, .done found⟩, rfl, readText,
          by simp⟩
    | some candidate =>
        obtain ⟨state, base⟩ := world
        obtain ⟨mode, named⟩ := Tree.readText_eq_ok_iff.1 readText
        obtain ⟨place, rewritable⟩ := Tree.exists_rewritable named
        rw [tryFile_withText rewritable readText found]
        refine exists_finish_of_relation (textRelation_follows quiet rewritable)
          (textRelation_writable rewritable) ?_ rfl
        rintro text _ rfl
        exact rewritable.readText_withText text
  · have plain : world.tree.Plain world.tree.workingDir := ⟨noLinks, rfl⟩
    exact exists_finish_of_relation (holdingRelation_follows plain spares)
      (holdingRelation_writable plain) Holding.readText (Holding.refl plain readText)

/-- Where each build gives a verdict, nothing cuts the trials short. -/
theorem Finish.of_verdicts
    {run : Run State FileReport} {final : Text} {stop : Option TrialError}
    (finish : Finish rule path content run final stop)
    (verdicts : ∀ fault tree, .built (.error fault) tree ∉ run.events) :
    stop = none ∧ run.result = .ok ⟨path, attemptsOn path run.events⟩ := by
  have finished : stop = none := by
    cases stop with
    | none => rfl
    | some error =>
        obtain ⟨fault, tree, _, built⟩ := finish.stopped error rfl
        exact absurd built (verdicts fault tree)
  refine ⟨finished, ?_⟩
  rw [finish.result, finished]
  rfl

end

end Upkeep
