import Upkeep.Proofs.Trial.Machine
import Upkeep.Proofs.Tree.Flat
import Upkeep.Rule.PruneIncludes

/-!
How long the work on a file can last.  A kept edit takes one line from those that the
rule accepts and sends the search back to the top; an edit that is taken back leaves
the lines and moves the search past one of them.
-/

namespace Upkeep

/-- The number of lines at or after a line that the rule accepts by their text alone. -/
def Rule.acceptedFrom (rule : Rule) (path content : Text) (start : Nat) : Nat :=
  ((lines content).drop start).countP (rule.accepts path)

section

variable {rule : Rule} {path content : Text} {start : Nat} {candidate : Candidate}

@[simp]
theorem Rule.acceptedFrom_zero (rule : Rule) (path content : Text) :
    rule.acceptedFrom path content 0 = rule.acceptedLines path content :=
  rfl

theorem Rule.acceptedFrom_of_findIn?
    (found : rule.findIn? path content start = some candidate) :
    rule.acceptedFrom path content (candidate.line + 1) + 1 ≤
      rule.acceptedFrom path content start := by
  obtain ⟨_, later, at_, edited⟩ := findIn?_spec found
  obtain ⟨inside, same⟩ := List.getElem?_eq_some_iff.1 at_
  have accepted : rule.accepts path candidate.before = true := by simp [accepts, edited]
  have atLine : rule.acceptedFrom path content candidate.line =
      rule.acceptedFrom path content (candidate.line + 1) + 1 := by
    rw [acceptedFrom, List.drop_eq_getElem_cons inside, same, List.countP_cons_of_pos accepted]
    rfl
  have fewer : rule.acceptedFrom path content candidate.line ≤
      rule.acceptedFrom path content start := by
    have split : candidate.line = start + (candidate.line - start) := by omega
    rw [acceptedFrom, split, ← List.drop_drop]
    exact (List.drop_sublist _ _).countP_le
  omega

variable {relation : Relation} {final : Text} {stop : Option TrialError}
  {events before after : List Event}

theorem two_mul_le_mul_succ (count : Nat) : 2 * count ≤ count * (count + 1) := by
  cases count with
  | zero => exact Nat.le_refl 0
  | succ count =>
      rw [Nat.mul_comm]
      exact Nat.mul_le_mul_left _ (by omega)

/-- A round of trials is paid for by the accepted lines that the search has before it,
and each round after a kept edit by one line less than the round before. -/
theorem Trials.builds_le
    (trials : Trials rule path relation content start events final stop) :
    2 * events.countP Event.isBuild + 2 * rule.acceptedLines path content ≤
      2 * rule.acceptedFrom path content start +
        rule.acceptedLines path content * (rule.acceptedLines path content + 1) := by
  induction trials with
  | @done content start none_ =>
      have small := two_mul_le_mul_succ (rule.acceptedLines path content)
      simp only [List.countP_nil]
      omega
  | @kept content start candidate text _ _ _ _ _ found applied _ _ _ inductionHypothesis =>
      have fewer := Rule.acceptedFrom_of_findIn? found
      have taken := Rule.acceptedLines_of_apply found applied
      have square : (rule.acceptedLines path text + 1) * (rule.acceptedLines path text + 1 + 1) =
          rule.acceptedLines path text * (rule.acceptedLines path text + 1) +
            2 * (rule.acceptedLines path text + 1) := by
        grind
      rw [← taken, square]
      simp only [Rule.acceptedFrom_zero] at inductionHypothesis
      simp only [List.countP_cons, Event.isBuild, Bool.false_eq_true, if_false, if_true]
      omega
  | reverted found _ _ _ _ inductionHypothesis =>
      have fewer := Rule.acceptedFrom_of_findIn? found
      simp only [List.countP_cons, Event.isBuild, Bool.false_eq_true, if_false, if_true]
      omega
  | @stopped content start candidate _ events _ found _ stops =>
      have fewer := Rule.acceptedFrom_of_findIn? found
      have small := two_mul_le_mul_succ (rule.acceptedLines path content)
      have few : (Event.found candidate :: events).countP Event.isBuild ≤ 1 := by
        cases stops <;> simp [Event.isBuild]
      omega

theorem Trials.acceptedLines_committed
    {before after : List Attempt} {attempt : Attempt}
    (trials : Trials rule path relation content start events final stop)
    (split : attemptsOn path events = before ++ attempt :: after)
    (_ : attempt.isCommitted) :
    ∃ baseline text,
      replay path content before = .ok baseline ∧
      (attempt.candidate path).apply baseline = .ok text ∧
      rule.acceptedLines path text + 1 = rule.acceptedLines path baseline := by
  obtain ⟨baseline, _, candidate, text, replayed, found, applied, same⟩ :=
    trials.exists_found_of_attempt split
  refine ⟨baseline, text, replayed, ?_, Rule.acceptedLines_of_apply found applied⟩
  rw [same, attempt_candidate (Rule.findIn?_spec found).1]
  exact applied

end

/-- The work on a file ends, whatever the oracle answers.  With `m` accepted lines in the
file it asks the oracle at most `m * (m + 1) / 2` times and takes at most five steps for
each time and two more, and each kept edit leaves one accepted line less. -/
theorem tryFile_ends
    {State : Type} (rule : Rule) (oracle : Oracle State) (world : World State)
    {path : Text} {file : SourceFile}
    (read : SourceFile.read world.tree path = .ok file) :
    (tryFile rule oracle path world).events.countP Event.isBuild ≤
      rule.acceptedLines file.path file.content *
        (rule.acceptedLines file.path file.content + 1) / 2 ∧
    (∃ steps last,
      steps ≤ 5 * (rule.acceptedLines file.path file.content *
        (rule.acceptedLines file.path file.content + 1) / 2) + 2 ∧
      Machine.advance rule oracle steps ⟨.scanning 0, file, world, []⟩ =
        ⟨Machine.phaseOf (tryFile rule oracle path world).result, last,
          (tryFile rule oracle path world).world, (tryFile rule oracle path world).events⟩) ∧
    ∀ before attempt after,
      attemptsOn file.path (tryFile rule oracle path world).events =
        before ++ attempt :: after →
      attempt.isCommitted →
      ∃ baseline text,
        replay file.path file.content before = .ok baseline ∧
        (attempt.candidate file.path).apply baseline = .ok text ∧
        rule.acceptedLines file.path text + 1 = rule.acceptedLines file.path baseline := by
  obtain ⟨final, stop, trials, _, _⟩ :=
    tryFile_trials rule read (writtenRelation_follows oracle file.path) trivial
  obtain ⟨steps, last, few, advanced⟩ :=
    Machine.exists_advance_eq_tryFrom rule oracle file 0 world
  have same := tryFile_of_read rule oracle read
  have builds := trials.builds_le
  rw [Rule.acceptedFrom_zero] at builds
  refine ⟨by omega, ⟨steps, last, ?_, ?_⟩, ?_⟩
  · rw [same] at builds
    simp only [Run.map] at builds
    omega
  · rw [advanced, same, List.nil_append]
    simp [Run.map]
  · intro before attempt after split committed
    exact trials.acceptedLines_committed split committed

/-- A file with one include is built once at most. -/
theorem tryFile_ends_of_includingTree :
    (tryFile pruneIncludes (.ofAnswers fun _ => .ok .fail) "a.cpp".toList
      ⟨0, includingTree⟩).events.countP Event.isBuild ≤ 1 := by
  have one : pruneIncludes.acceptedLines "a.cpp".toList "#include <x>\nint a;\n".toList = 1 := by
    decide +kernel
  have ends := (tryFile_ends pruneIncludes (.ofAnswers fun _ => .ok .fail) ⟨0, includingTree⟩
    read_includingTree).1
  simp only [one] at ends
  exact ends

end Upkeep
