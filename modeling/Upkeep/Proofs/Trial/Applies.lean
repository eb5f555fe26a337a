import Mathlib.Data.List.Basic
import Upkeep.Proofs.Trial.Course
import Upkeep.Rule.Constify.Rule

/-!
A found candidate applies to the text in which it was found.  It changes the segment of its line
and no other, so that a run never stops because an edit does not fit.
-/

namespace Upkeep

variable {State Value Other : Type}

/-- Whether a run does not stop at an edit that does not apply. -/
def Run.EditsApply (run : Run State Value) : Prop :=
  ∀ candidate error, run.result ≠ .error (.edit candidate error)

theorem Run.EditsApply.map
    {run : Run State Value}
    (editsApply : run.EditsApply) (change : Value → Other) :
    (run.map change).EditsApply := by
  intro candidate error failed
  apply editsApply candidate error
  cases result : run.result with
  | error other => simpa [Run.map, result, Except.map] using failed
  | ok value => simp [Run.map, result, Except.map] at failed

theorem Run.EditsApply.andThen
    {run : Run State Value} {next : Value → World State → Run State Other}
    (editsApply : run.EditsApply)
    (later : ∀ value world, (next value world).EditsApply) :
    (run.andThen next).EditsApply := by
  intro candidate error failed
  unfold Run.andThen at failed
  cases result : run.result with
  | error other =>
      rw [result] at failed
      have same : other = .edit candidate error := Except.error.inj failed
      exact editsApply candidate error (result.trans (congrArg Except.error same))
  | ok value =>
      rw [result] at failed
      exact later value run.world candidate error failed

section

variable {rule : Rule} {path content final : Text} {relation : Relation} {start : Nat}
  {events : List Event} {stop : Option TrialError}

theorem Trials.stop_ne_edit
    (trials : Trials rule path relation content start events final stop)
    (candidate : Candidate) (error : EditError) :
    stop ≠ some (.edit candidate error) := by
  induction trials with
  | done => simp
  | kept _ _ _ _ _ inductionHypothesis => exact inductionHypothesis
  | reverted _ _ _ _ _ inductionHypothesis => exact inductionHypothesis
  | stopped _ _ stops => cases stops <;> simp

end

theorem tryFile_editsApply
    (rule : Rule) (oracle : Oracle State) (path : Text) (world : World State) :
    (tryFile rule oracle path world).EditsApply := by
  intro candidate error failed
  cases read : SourceFile.read world.tree path with
  | error fault =>
      rw [tryFile, read] at failed
      simp [Run.stop] at failed
  | ok file =>
      obtain ⟨_, stop, trials, result, _⟩ := tryFile_trials rule read
        (writtenRelation_follows oracle file.path) trivial
      rw [result] at failed
      cases stop with
      | none => simp [trialResult, Except.map] at failed
      | some other =>
          apply trials.stop_ne_edit candidate error
          simpa [trialResult, Except.map] using failed

theorem tryFiles_editsApply
    (rule : Rule) (oracle : Oracle State) (paths : List Text) (world : World State) :
    (tryFiles rule oracle paths world).EditsApply := by
  induction paths generalizing world with
  | nil =>
      intro candidate error failed
      simp [tryFiles, Run.pure] at failed
  | cons path paths inductionHypothesis =>
      apply (tryFile_editsApply rule oracle path world).andThen
      intro report left
      exact (inductionHypothesis left).map _

theorem tryEdits_editsApply
    (rule : Rule) (oracle : Oracle State) (paths : List Text) (world : World State) :
    (tryEdits rule oracle paths world).EditsApply := by
  have asked : (askBuild oracle world).EditsApply := by
    intro candidate error failed
    rw [askBuild_eq] at failed
    cases answer : (oracle.build world).1 <;> simp [answer] at failed
  have baseline : (checkBaseline oracle world).EditsApply := by
    apply asked.andThen
    intro verdict left candidate error failed
    cases verdict <;> simp [Run.pure, Run.stop] at failed
  apply baseline.andThen
  intro _ left
  exact (tryFiles_editsApply rule oracle paths left).map _

/-- A found candidate applies.  The segments of the text stay as they are but for the one of the
candidate's line, which goes or keeps its end around the new text, and so do the lines.  No run
of any rule stops at an edit that does not apply. -/
theorem found_candidate_applies (rule : Rule) (path content : Text) :
    (∀ start candidate, rule.findIn? path content start = some candidate →
      ∃ out segment, candidate.apply content = .ok out ∧
        (cut content)[candidate.line]? = some segment ∧
        segment.body = candidate.before ∧
        (candidate.edit = .remove →
          lines out = (lines content).eraseIdx candidate.line ∧
          cut out = (cut content).eraseIdx candidate.line) ∧
        ∀ text, candidate.edit = .replaceBy text →
          lines out = (lines content).set candidate.line text ∧
          cut out = (cut content).set candidate.line ⟨text, segment.terminator⟩) ∧
    ∀ {State : Type} (oracle : Oracle State) (paths : List Text) (world : World State)
      (candidate : Candidate) (error : EditError),
      (tryFile rule oracle path world).result ≠ .error (.edit candidate error) ∧
      (tryEdits rule oracle paths world).result ≠ .error (.edit candidate error) := by
  constructor
  · intro start candidate found
    obtain ⟨segment, at_, same⟩ := Rule.segment_of_findIn? found
    have applied := Rule.apply_of_findIn? found
    have newLines := Rule.lines_of_apply found applied
    have newCut := Rule.cut_join_applyAt at_ (same ▸ (Rule.findIn?_spec found).2.2.2)
    refine ⟨_, segment, applied, at_, same, ?_, ?_⟩
    · intro removes
      rw [removes] at newLines newCut ⊢
      exact ⟨newLines, newCut⟩
    · intro text replaces
      rw [replaces] at newLines newCut ⊢
      refine ⟨newLines, newCut.trans ?_⟩
      rw [LineEdit.applyAt, List.modify_eq_set_getElem?, at_]
      rfl
  · intro _ oracle paths world candidate error
    exact ⟨tryFile_editsApply rule oracle path world candidate error,
      tryEdits_editsApply rule oracle paths world candidate error⟩

/-- A return that stands before the one of the line's end belongs to the line, and so does one at
the end of the text. -/
def returningText : Text :=
  "int n;\nFoo a;\r\r\nFoo b = 1;\r".toList

theorem found_candidate_applies_to_returningText :
    ∃ candidate out,
      (constify (.ofPairs [("Foo".toList, "lib".toList)])).findIn? "a.cpp".toList returningText 0 =
        some candidate ∧
      candidate.apply returningText = .ok out ∧
      lines out = ["int n;".toList, "const Foo a;\r".toList, "Foo b = 1;\r".toList] ∧
      cut out = [⟨"int n;".toList, .newline⟩, ⟨"const Foo a;\r".toList, .returnNewline⟩,
        ⟨"Foo b = 1;\r".toList, .endOfText⟩] := by
  have found : (constify (.ofPairs [("Foo".toList, "lib".toList)])).findIn? "a.cpp".toList
      returningText 0 =
        some ⟨"a.cpp".toList, 1, "Foo a;\r".toList, .replaceBy "const Foo a;\r".toList⟩ := by
    decide +kernel
  obtain ⟨out, segment, applied, at_, _, _, replaced⟩ :=
    (found_candidate_applies _ _ _).1 0 _ found
  obtain ⟨newLines, newCut⟩ := replaced _ rfl
  have ends : segment = ⟨"Foo a;\r".toList, .returnNewline⟩ := by
    have second : (cut returningText)[1]? = some ⟨"Foo a;\r".toList, .returnNewline⟩ := by
      decide +kernel
    exact Option.some.inj (at_.symm.trans second)
  refine ⟨_, out, found, applied, ?_, ?_⟩
  · rw [newLines]
    decide +kernel
  · rw [newCut, ends]
    decide +kernel

end Upkeep
