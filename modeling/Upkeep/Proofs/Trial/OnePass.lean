import Upkeep.Proofs.Rule.Constify
import Upkeep.Proofs.Trial.Calls
import Upkeep.Proofs.Trial.Machine
import Upkeep.Proofs.Trial.Undisturbed
import Upkeep.Proofs.Tree.Flat

/-!
The trials of `constify` on a file come to one pass over its lines.  Each kept edit is one
that the first text already offered, so that at any time the text is the first one with
`const` put into some of the lines that offered it, all at once.
-/

namespace Upkeep

/-- A segment with `const` put into its line, where it can be put. -/
def Segment.constify (index : SymbolIndex) (segment : Segment) : Segment :=
  { segment with body := (propose? index segment.body).getD segment.body }

/-- Segments with `const` put into some of them, which are given by their numbers. -/
def constifyAt (index : SymbolIndex) (picked : List Nat) (segments : List Segment) :
    List Segment :=
  segments.mapIdx fun line segment => if line ∈ picked then segment.constify index else segment

/-- Whether `const` can be put into a line of code of a text. -/
def IsOffered (index : SymbolIndex) (content : Text) (line : Nat) : Prop :=
  ∃ text, (lines content)[line]? = some text ∧
    (classify (lines content))[line]? = some .code ∧ (propose? index text).isSome

/-- The lines of the kept edits, in the order of the edits. -/
def committedLines (attempts : List Attempt) : List Nat :=
  (attempts.filter Attempt.isCommitted).map Attempt.line

/-- A text that one pass over another one makes of it: `const` is put into the lines that
are picked from those that offer it, and the lines keep their ends and their kinds. -/
structure OnePass (index : SymbolIndex) (content : Text) (picked : List Nat) (text : Text) :
    Prop where
  segments : cut text = constifyAt index picked (cut content)
  kinds : classify (lines text) = classify (lines content)
  offered : ∀ line ∈ picked, IsOffered index content line
  once : picked.Nodup

section

variable {index : SymbolIndex} {path content text out : Text} {picked : List Nat} {start : Nat}
  {candidate : Candidate}

@[simp]
theorem committedLines_concat_committed (attempts : List Attempt) (candidate : Candidate) :
    committedLines (attempts ++ [candidate.attempt .committed]) =
      committedLines attempts ++ [candidate.line] := by
  simp [committedLines, Candidate.attempt, Attempt.isCommitted]

@[simp]
theorem committedLines_concat_reverted (attempts : List Attempt) (candidate : Candidate) :
    committedLines (attempts ++ [candidate.attempt .reverted]) = committedLines attempts := by
  simp [committedLines, Candidate.attempt, Attempt.isCommitted]

theorem getElem?_constifyAt (picked : List Nat) (segments : List Segment) (line : Nat) :
    (constifyAt index picked segments)[line]? = segments[line]?.map fun segment =>
      if line ∈ picked then segment.constify index else segment :=
  List.getElem?_mapIdx

@[simp]
theorem constifyAt_nil (segments : List Segment) : constifyAt index [] segments = segments := by
  apply List.ext_getElem?
  intro line
  rw [getElem?_constifyAt]
  simp

theorem constifyAt_concat
    {segments : List Segment} {segment : Segment} {line : Nat} {new : Text}
    (at_ : segments[line]? = some segment)
    (proposed : propose? index segment.body = some new)
    (fresh : line ∉ picked) :
    (constifyAt index picked segments).modify line (fun segment => { segment with body := new }) =
      constifyAt index (picked ++ [line]) segments := by
  apply List.ext_getElem?
  intro number
  rw [List.getElem?_modify, getElem?_constifyAt, getElem?_constifyAt]
  by_cases same : line = number
  · subst same
    simp [at_, fresh, Segment.constify, proposed]
  · simp [same, Ne.symm same]

theorem OnePass.refl (index : SymbolIndex) (content : Text) : OnePass index content [] content where
  segments := (constifyAt_nil (cut content)).symm
  kinds := rfl
  offered := by simp
  once := .nil

/-- A line that is found in the course of the pass has not been edited yet. -/
theorem OnePass.segment_of_findIn?
    (onePass : OnePass index content picked text)
    (found : (constify index).findIn? path text start = some candidate) :
    candidate.line ∉ picked ∧ ∃ segment,
      (cut content)[candidate.line]? = some segment ∧ segment.body = candidate.before := by
  obtain ⟨segment, at_, same⟩ := Rule.segment_of_findIn? found
  rw [onePass.segments, getElem?_constifyAt, Option.map_eq_some_iff] at at_
  obtain ⟨original, atContent, made⟩ := at_
  by_cases edited : candidate.line ∈ picked
  · obtain ⟨line, atLine, _, offers⟩ := onePass.offered _ edited
    rw [lines_eq_map_body, List.getElem?_map, atContent, Option.map_some, Option.some.injEq]
      at atLine
    subst atLine
    obtain ⟨new, proposed⟩ := Option.isSome_iff_exists.1 offers
    obtain ⟨again, proposedAgain, _⟩ := exists_propose?_of_findIn? found
    -- the line holds a proposal, for which nothing is proposed
    rw [if_pos edited] at made
    rw [← same, ← made, Segment.constify, proposed, Option.getD_some,
      propose?_settled proposed] at proposedAgain
    simp at proposedAgain
  · rw [if_neg edited] at made
    exact ⟨edited, original, atContent, made ▸ same⟩

theorem OnePass.step
    (onePass : OnePass index content picked text)
    (found : (constify index).findIn? path text start = some candidate)
    (applied : candidate.apply text = .ok out) :
    OnePass index content (picked ++ [candidate.line]) out := by
  obtain ⟨fresh, segment, at_, same⟩ := onePass.segment_of_findIn? found
  obtain ⟨new, proposed, exchanged⟩ := exists_propose?_of_findIn? found
  obtain ⟨_, _, isCode, edited⟩ := Rule.mem_candidates_iff.1 (Rule.mem_candidates_of_findIn? found)
  refine ⟨?_, (classify_of_apply found applied).trans onePass.kinds, ?_, ?_⟩
  · obtain ⟨present, atText, samePresent⟩ := Rule.segment_of_findIn? found
    rw [Rule.apply_of_findIn? found, Except.ok.injEq] at applied
    rw [← applied, Rule.cut_join_applyAt atText (samePresent ▸ edited), exchanged,
      LineEdit.applyAt, onePass.segments]
    exact constifyAt_concat at_ (same ▸ proposed) fresh
  · intro line member
    rcases List.mem_append.1 member with earlier | now
    · exact onePass.offered line earlier
    · obtain rfl := List.mem_singleton.1 now
      refine ⟨candidate.before, ?_, onePass.kinds ▸ isCode, by simp [proposed]⟩
      rw [lines_eq_map_body, List.getElem?_map, at_, Option.map_some, same]
  · rw [List.nodup_append]
    refine ⟨onePass.once, List.nodup_singleton _, ?_⟩
    rintro line earlier _ now rfl
    exact fresh (List.mem_singleton.1 now ▸ earlier)

theorem keeps_onePass (index : SymbolIndex) (path content : Text) :
    (constify index).Keeps path fun attempts text =>
      OnePass index content (committedLines attempts) text where
  committed := by
    intro attempts baseline start candidate text onePass found applied
    rw [committedLines_concat_committed]
    exact onePass.step found applied
  reverted := by
    intro attempts baseline start candidate onePass _
    rw [committedLines_concat_reverted]
    exact onePass

theorem mem_candidates_line_iff (index : SymbolIndex) (path content : Text) (line : Nat) :
    line ∈ ((constify index).candidates path content).map Candidate.line ↔
      IsOffered index content line := by
  rw [List.mem_map]
  constructor
  · rintro ⟨candidate, member, rfl⟩
    obtain ⟨_, at_, isCode, edited⟩ := Rule.mem_candidates_iff.1 member
    obtain ⟨new, proposed, _⟩ := Option.map_eq_some_iff.1 edited
    exact ⟨candidate.before, at_, isCode, by simp [proposed]⟩
  · rintro ⟨text, at_, isCode, offers⟩
    obtain ⟨new, proposed⟩ := Option.isSome_iff_exists.1 offers
    exact ⟨⟨path, line, text, .replaceBy new⟩,
      Rule.mem_candidates_iff.2 ⟨rfl, at_, isCode, by simp [constify, proposed]⟩, rfl⟩

variable {relation : Relation} {events : List Event} {final : Text} {stop : Option TrialError}

/-- Where each build passes, the attempts are the candidates of the first text: a kept edit
leaves those after it. -/
theorem Trials.attemptsOn_of_passes
    (trials : Trials (constify index) path relation content start events final stop)
    (fromTop : start = 0)
    (finished : stop = none)
    (passes : ∀ answer tree, .built answer tree ∈ events → answer = .ok .pass) :
    attemptsOn path events =
      ((constify index).candidates path content).map (·.attempt .committed) := by
  induction trials with
  | done none_ =>
      subst fromTop
      simp [Rule.candidates, Rule.candidatesFrom_of_none none_]
  | kept found applied _ _ _ inductionHypothesis =>
      subst fromTop
      obtain ⟨new, _, exchanged⟩ := exists_propose?_of_findIn? found
      have left := Rule.candidates_of_apply found applied exchanged
        (classify_of_apply found applied)
      have rest := inductionHypothesis rfl finished fun answer tree built =>
        passes answer tree (by simp [built])
      simp only [attemptsOn_found, attemptsOn_built, attemptsOn_attempted_self]
      rw [rest, left, Rule.candidates, Rule.candidatesFrom_of_findIn? found, List.map_cons]
  | @reverted _ _ _ _ tree =>
      have passed := passes (.ok .fail) tree (by simp)
      simp at passed
  | stopped => simp at finished

end

theorem committedLines_map_committed (candidates : List Candidate) :
    committedLines (candidates.map (·.attempt .committed)) = candidates.map Candidate.line := by
  rw [committedLines, List.filter_eq_self.2, List.map_map]
  · rfl
  · intro attempt member
    obtain ⟨candidate, _, rfl⟩ := List.mem_map.1 member
    rfl

section

variable {State : Type}

theorem tryFile_constify_of_passes
    {oracle : Oracle State} {path content : Text} {world : World State}
    (index : SymbolIndex)
    (respects : oracle.Respects world.tree (Path.normalize path))
    (readText : world.tree.readText (Path.normalize path) = .ok content)
    (passes : ∀ answer tree,
      .built answer tree ∈ (tryFile (constify index) oracle path world).events →
        answer = .ok .pass) :
    ∃ final,
      (tryFile (constify index) oracle path world).result = .ok ⟨Path.normalize path,
        ((constify index).candidates (Path.normalize path) content).map
          (·.attempt .committed)⟩ ∧
      (tryFile (constify index) oracle path world).world.tree.readText (Path.normalize path) =
        .ok final ∧
      OnePass index content
        (((constify index).candidates (Path.normalize path) content).map Candidate.line)
        final := by
  obtain ⟨final, stop, finish⟩ := exists_finish (constify index) respects readText
  obtain ⟨finished, result⟩ := finish.of_verdicts fun fault tree built => by
    simpa using passes _ tree built
  obtain ⟨relation, trials⟩ := finish.trials
  have attempts := trials.attemptsOn_of_passes rfl finished passes
  have onePass := trials.holds_of_keeps (keeps_onePass index _ content) []
    (OnePass.refl index content)
  rw [List.nil_append, attempts, committedLines_map_committed] at onePass
  rw [attempts] at result
  exact ⟨final, result, finish.text, onePass⟩

/-- The work of `constify` on a file is one pass over its lines.  After any number of steps,
whatever the oracle answered, the kept text is the first one with `const` put into some of
the lines that offered it there.  Where each build passes, these are all of them in the end,
each of them attempted once and in order. -/
theorem constify_is_one_pass
    (index : SymbolIndex) (oracle : Oracle State) (path : Text) (world : World State)
    {content : Text}
    (readText : world.tree.readText (Path.normalize path) = .ok content) :
    (∀ steps,
      let machine := Machine.advance (constify index) oracle steps
        ⟨.scanning 0, ⟨Path.normalize path, content⟩, world, []⟩
      OnePass index content (committedLines (attemptsOn (Path.normalize path) machine.events))
        machine.file.content) ∧
    (∃ steps last,
      Machine.advance (constify index) oracle steps
          ⟨.scanning 0, ⟨Path.normalize path, content⟩, world, []⟩ =
        ⟨Machine.phaseOf (tryFile (constify index) oracle path world).result, last,
          (tryFile (constify index) oracle path world).world,
          (tryFile (constify index) oracle path world).events⟩) ∧
    (oracle.Respects world.tree (Path.normalize path) →
      (∀ answer tree,
        .built answer tree ∈ (tryFile (constify index) oracle path world).events →
          answer = .ok .pass) →
      ∃ (candidates : List Candidate) (final : Text),
        (tryFile (constify index) oracle path world).result = .ok ⟨Path.normalize path,
          candidates.map (·.attempt .committed)⟩ ∧
        (candidates.map Candidate.line).Pairwise (· < ·) ∧
        (∀ line, line ∈ candidates.map Candidate.line ↔ IsOffered index content line) ∧
        (tryFile (constify index) oracle path world).world.tree.readText (Path.normalize path) =
          .ok final ∧
        OnePass index content (candidates.map Candidate.line) final) := by
  refine ⟨?_, ?_, ?_⟩
  · intro steps machine
    have start : Machine.Keeping (constify index) (Path.normalize path)
        (fun attempts text => OnePass index content (committedLines attempts) text)
        (⟨.scanning 0, ⟨Path.normalize path, content⟩, world, []⟩ : Machine State) :=
      ⟨rfl, trivial, OnePass.refl index content⟩
    exact (start.advance (keeps_onePass index _ content) oracle steps).now
  · obtain ⟨steps, last, _, advanced⟩ := Machine.exists_advance_eq_tryFrom (constify index) oracle
      ⟨Path.normalize path, content⟩ 0 world
    refine ⟨steps, last, ?_⟩
    rw [advanced, tryFile_of_read _ oracle (SourceFile.read_of_readText readText)]
    simp [Run.map]
  · intro respects passes
    obtain ⟨final, result, left, onePass⟩ :=
      tryFile_constify_of_passes index respects readText passes
    refine ⟨_, final, result, ?_, mem_candidates_line_iff index _ content, left, onePass⟩
    rw [List.pairwise_map]
    exact (constify index).pairwise_candidates _ content

end

def declaringTree : Tree :=
  .ofTexts [("a.cpp".toList, "Foo a;\nint n;\r\nFoo b = 1;".toList)]

theorem readText_declaringTree :
    declaringTree.readText (Path.normalize "a.cpp".toList) =
      .ok "Foo a;\nint n;\r\nFoo b = 1;".toList :=
  Tree.readText_ofTexts (by decide) (by decide) (by decide)

/-- Two of the three variables are of a type that is indexed. -/
theorem constify_is_one_pass_of_declaringTree :
    (tryFile (constify (.ofPairs [("Foo".toList, "lib".toList)])) (.ofAnswers fun _ => .ok .pass)
      "a.cpp".toList ⟨0, declaringTree⟩).world.tree.readText (Path.normalize "a.cpp".toList) =
        .ok "const Foo a;\nint n;\r\nconst Foo b = 1;".toList := by
  have offered : ((constify (.ofPairs [("Foo".toList, "lib".toList)])).candidates
      (Path.normalize "a.cpp".toList) "Foo a;\nint n;\r\nFoo b = 1;".toList).map
        Candidate.line = [0, 2] := by
    decide +kernel
  obtain ⟨candidates, final, _, ordered, exactly, left, onePass⟩ :=
    (constify_is_one_pass (.ofPairs [("Foo".toList, "lib".toList)])
      (.ofAnswers fun _ => .ok .pass) "a.cpp".toList ⟨0, declaringTree⟩
      readText_declaringTree).2.2
      (Oracle.respects_readOnly _ _ _) (tryFile_passes _ _ _ fun _ => rfl)
  have picked : candidates.map Candidate.line = [0, 2] := by
    have sorted : [0, 2].Pairwise (· < ·) := by decide
    refine ordered.sortedLT.eq_of_mem_iff sorted.sortedLT fun line => ?_
    rw [exactly, ← mem_candidates_line_iff _ (Path.normalize "a.cpp".toList), offered]
  have made := congrArg join onePass.segments
  rw [join_cut, picked] at made
  rw [left, made]
  exact congrArg Except.ok (show join (constifyAt _ [0, 2] (cut _)) = _ by decide +kernel)

end Upkeep
