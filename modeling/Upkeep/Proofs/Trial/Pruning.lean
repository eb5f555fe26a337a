import Upkeep.Proofs.Path.Normal
import Upkeep.Proofs.Rule.PruneIncludes
import Upkeep.Proofs.Trial.Calls
import Upkeep.Proofs.Trial.Rounds
import Upkeep.Proofs.Trial.Undisturbed
import Upkeep.Proofs.Tree.Flat

/-!
What the trials of `pruneIncludes` leave of a file: its segments without some of those that
may be removed.  A removal can turn the lines after it into directives and thereby offer
more lines, but never one that is protected.
-/

namespace Upkeep

/-- Items without some of those that may be left out. -/
inductive Thinned {Item : Type} (may : Item → Prop) : List Item → List Item → Prop where
  | nil : Thinned may [] []
  | kept {item items left} :
      Thinned may items left → Thinned may (item :: items) (item :: left)
  | dropped {item items left} :
      may item → Thinned may items left → Thinned may (item :: items) left

section

variable {Item : Type} {may : Item → Prop} {items left : List Item}

theorem Thinned.refl (items : List Item) : Thinned may items items := by
  induction items with
  | nil => exact .nil
  | cons item items inductionHypothesis => exact .kept inductionHypothesis

theorem Thinned.mono
    {more : Item → Prop}
    (thinned : Thinned may items left)
    (weaker : ∀ {item}, may item → more item) :
    Thinned more items left := by
  induction thinned with
  | nil => exact .nil
  | kept _ inductionHypothesis => exact .kept inductionHypothesis
  | dropped allowed _ inductionHypothesis => exact .dropped (weaker allowed) inductionHypothesis

theorem Thinned.eraseIdx
    {item : Item} {index : Nat}
    (thinned : Thinned may items left)
    (at_ : left[index]? = some item)
    (allowed : may item) :
    Thinned may items (left.eraseIdx index) := by
  induction thinned generalizing index with
  | nil => simp at at_
  | @kept first items left thinned inductionHypothesis =>
      cases index with
      | zero =>
          obtain rfl : first = item := by simpa using at_
          exact .dropped allowed thinned
      | succ index =>
          rw [List.getElem?_cons_succ] at at_
          exact .kept (inductionHypothesis at_)
  | dropped first _ inductionHypothesis => exact .dropped first (inductionHypothesis at_)

/-- What may not be left out is still there, in the same order. -/
theorem Thinned.filter_eq
    {keep : Item → Bool}
    (thinned : Thinned may items left)
    (kept : ∀ {item}, may item → keep item = false) :
    left.filter keep = items.filter keep := by
  induction thinned with
  | nil => rfl
  | kept _ inductionHypothesis => rw [List.filter_cons, List.filter_cons, inductionHypothesis]
  | dropped allowed _ inductionHypothesis =>
      rw [inductionHypothesis, List.filter_cons_of_neg (by simp [kept allowed])]

end

/-- Whether a line must stay in a file: it is no include, it asks to be kept, or it
includes the header of the file itself. -/
def isProtected (path line : Text) : Bool :=
  (includeTarget? line).isNone || asksToKeep line ||
    (includeTarget? line).any (isOwnHeader path)

theorem isProtected_eq_not_isPrunable (path line : Text) :
    isProtected path line = !isPrunable path line := by
  unfold isProtected isPrunable
  cases includeTarget? line <;> simp

theorem isOwnHeader_normalize
    {path target : Text}
    (own : isOwnHeader path target = true) :
    isOwnHeader (Path.normalize path) target = true := by
  cases named : Path.fileName? path with
  | none => simp [isOwnHeader, Path.stem?, named] at own
  | some name =>
      simpa [isOwnHeader, Path.stem?, Path.extension?, named, Path.fileName?_normalize named]
        using own

/-- What may be removed from the file that is read may be removed by the path as given. -/
theorem isPrunable_of_normalize
    {path line : Text}
    (prunable : isPrunable (Path.normalize path) line = true) :
    isPrunable path line = true := by
  unfold isPrunable at prunable ⊢
  split at prunable
  · simp at prunable
  next target included =>
    rw [Bool.and_eq_true, Bool.not_eq_true', Bool.not_eq_true'] at prunable ⊢
    refine ⟨prunable.1, ?_⟩
    cases own : isOwnHeader path target with
    | false => rfl
    | true => simp [isOwnHeader_normalize own] at prunable

section

variable {path content text out : Text} {start : Nat} {candidate : Candidate}

/-- A kept removal takes out a segment whose line may be removed, and changes no other. -/
theorem exists_cut_of_apply
    (found : pruneIncludes.findIn? path text start = some candidate)
    (applied : candidate.apply text = .ok out) :
    ∃ segment, (cut text)[candidate.line]? = some segment ∧
      isPrunable path segment.body = true ∧
      cut out = (cut text).eraseIdx candidate.line := by
  obtain ⟨segment, at_, same⟩ := Rule.segment_of_findIn? found
  obtain ⟨prunable, removes⟩ := isPrunable_of_findIn? found
  have edited := (Rule.findIn?_spec found).2.2.2
  rw [Rule.apply_of_findIn? found, Except.ok.injEq] at applied
  refine ⟨segment, at_, same ▸ prunable, ?_⟩
  rw [← applied, Rule.cut_join_applyAt at_ (same ▸ edited), removes, LineEdit.applyAt]

theorem keeps_thinned (path content : Text) :
    pruneIncludes.Keeps path fun _ text =>
      Thinned (fun segment => isPrunable path segment.body = true) (cut content) (cut text) where
  committed := by
    intro _ _ _ _ _ thinned found applied
    obtain ⟨segment, at_, prunable, cuts⟩ := exists_cut_of_apply found applied
    rw [cuts]
    exact thinned.eraseIdx at_ prunable
  reverted := fun thinned _ => thinned

theorem isPrunable_eq_false_of_candidates_eq_nil
    {line : Nat}
    (nothing : pruneIncludes.candidates path content = [])
    (at_ : (lines content)[line]? = some text)
    (directive : (classify (lines content))[line]? = some .preprocessor) :
    isPrunable path text = false := by
  cases prunable : isPrunable path text with
  | false => rfl
  | true =>
      have candidate : Candidate.mk path line text .remove ∈
          pruneIncludes.candidates path content :=
        Rule.mem_candidates_iff.2 ⟨rfl, at_, directive, by simp [pruneIncludes, prunable]⟩
      simp [nothing] at candidate

variable {State : Type} {oracle : Oracle State} {world : World State} {relation : Relation}
  {events : List Event} {final : Text} {stop : Option TrialError} {rule : Rule}

theorem Trials.thinned
    (trials : Trials pruneIncludes path relation content start events final stop) :
    Thinned (fun segment => isPrunable path segment.body = true) (cut content) (cut final) :=
  trials.holds_of_keeps (keeps_thinned path content) [] (.refl (cut content))

/-- Where each build passes, no candidate is left. -/
theorem Trials.candidates_eq_nil_of_passes
    (trials : Trials rule path relation content 0 events final none)
    (passes : ∀ answer tree, .built answer tree ∈ events → answer = .ok .pass) :
    rule.candidates path final = [] := by
  obtain ⟨front, back, rfl, _, _, refused⟩ := trials.exhausted
  rw [List.eq_nil_iff_forall_not_mem]
  intro candidate member
  obtain ⟨_, tree, _, _, _, _, _, rfl⟩ := refused candidate member
  have passed := passes (.ok .fail) tree (by simp)
  simp at passed

/-- Pruning drops lines that may be removed and nothing else.  Whatever the oracle answered,
and also where it failed to answer, the file then holds its segments without some of those
whose lines may be removed, the others as they were.  So a line that is no include, that
asks to be kept or that includes the header of the file itself is never lost.  Where each
build passes, the work comes to its end with no candidate left. -/
theorem pruning_drops_prunable_lines
    (oracle : Oracle State) (path : Text) (world : World State)
    (respects : oracle.Respects world.tree (Path.normalize path))
    (readText : world.tree.readText (Path.normalize path) = .ok content) :
    ∃ final,
      (tryFile pruneIncludes oracle path world).world.tree.readText (Path.normalize path) =
        .ok final ∧
      Thinned (fun segment => isPrunable path segment.body = true ∧
        isPrunable (Path.normalize path) segment.body = true) (cut content) (cut final) ∧
      ((cut final).filter fun segment => isProtected path segment.body ||
          isProtected (Path.normalize path) segment.body) =
        ((cut content).filter fun segment => isProtected path segment.body ||
          isProtected (Path.normalize path) segment.body) ∧
      ((∀ answer tree,
        .built answer tree ∈ (tryFile pruneIncludes oracle path world).events →
          answer = .ok .pass) →
        (∃ report, (tryFile pruneIncludes oracle path world).result = .ok report) ∧
        ∀ (line : Nat) (text : Text), (lines final)[line]? = some text →
          (classify (lines final))[line]? = some .preprocessor →
          isPrunable (Path.normalize path) text = false) := by
  obtain ⟨final, stop, finish⟩ := exists_finish pruneIncludes respects readText
  obtain ⟨relation, trials⟩ := finish.trials
  have thinned := trials.thinned.mono fun prunable =>
    (⟨isPrunable_of_normalize prunable, prunable⟩ : _ ∧ _)
  refine ⟨final, finish.text, thinned, thinned.filter_eq ?_, fun passes => ?_⟩
  · rintro segment ⟨given, normal⟩
    simp [isProtected_eq_not_isPrunable, given, normal]
  · obtain ⟨rfl, result⟩ := finish.of_verdicts fun fault tree built => by
      simpa using passes _ tree built
    have nothing := trials.candidates_eq_nil_of_passes passes
    exact ⟨⟨_, result⟩, fun line text at_ directive =>
      isPrunable_eq_false_of_candidates_eq_nil nothing at_ directive⟩

end

/-- Where each build passes, an include of another header is dropped and the line after it
stays. -/
theorem pruning_drops_prunable_lines_of_includingTree :
    (tryFile pruneIncludes (.ofAnswers fun _ => .ok .pass) "a.cpp".toList
      ⟨0, includingTree⟩).world.tree.readText (Path.normalize "a.cpp".toList) =
        .ok "int a;\n".toList := by
  obtain ⟨final, left, thinned, _, atEnd⟩ :=
    pruning_drops_prunable_lines (.ofAnswers fun _ => .ok .pass) "a.cpp".toList
      ⟨0, includingTree⟩ (Oracle.respects_readOnly _ _ _) readText_includingTree
  have nothing := (atEnd (tryFile_passes _ _ _ fun _ => rfl)).2
  have whole : cut "#include <x>\nint a;\n".toList =
      [⟨"#include <x>".toList, .newline⟩, ⟨"int a;".toList, .newline⟩] := by
    decide +kernel
  have stays : isPrunable "a.cpp".toList "int a;".toList = false := by decide +kernel
  have goes : isPrunable (Path.normalize "a.cpp".toList) "#include <x>".toList = true := by
    decide +kernel
  have joined := join_cut final
  rw [whole] at thinned
  generalize segments : cut final = kept at thinned joined
  rw [left, ← joined]
  cases thinned with
  | kept rest =>
      have first : (lines final)[0]? = some "#include <x>".toList := by
        rw [lines_eq_map_body, segments]
        rfl
      have directive : (classify (lines final))[0]? = some .preprocessor := by
        rw [lines_eq_map_body, segments]
        rfl
      exact absurd (goes.symm.trans (nothing 0 _ first directive)) (by decide)
  | dropped _ rest =>
      cases rest with
      | kept rest =>
          cases rest
          rfl
      | dropped allowed _ => exact absurd (stays.symm.trans allowed.1) (by decide)

end Upkeep
