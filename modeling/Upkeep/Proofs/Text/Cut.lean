import Mathlib.Data.List.Basic
import Upkeep.Text.Cut

/-!
Segments where they stand in a text.  Behind a newline a text is cut as if it began there, and a
segment has a number exactly if that many lines, all of them ended, stand in front of it.
-/

namespace Upkeep

theorem terminator_ne_endOfText_of_getLast?
    {segments : List Segment}
    (isCut : IsCut segments)
    (ends : (join segments).getLast? = some '\n') :
    ∀ segment ∈ segments, segment.terminator ≠ .endOfText := by
  induction segments with
  | nil => simp
  | cons segment rest inductionHypothesis =>
      have joined : join (segment :: rest) = segment.text ++ join rest := rfl
      rw [joined] at ends
      intro other member open_
      by_cases more : rest = []
      · subst more
        obtain rfl := List.mem_singleton.1 member
        have body : other.text = other.body := by simp [Segment.text, open_, Terminator.text]
        rw [show join ([] : List Segment) = [] from rfl, List.append_nil, body] at ends
        exact isCut.1.1 (List.mem_of_getLast? ends)
      · have nonempty : join rest ≠ [] := by
          intro empty
          have again := cut_join isCut.2.2
          rw [empty] at again
          exact more again.symm
        rw [List.getLast?_append_of_ne_nil _ nonempty] at ends
        rcases List.mem_cons.1 member with rfl | later
        · exact more (isCut.2.1 open_)
        · exact inductionHypothesis isCut.2.2 ends other later open_

theorem IsCut.append
    {front back : List Segment}
    (isCut : IsCut front)
    (closed : ∀ segment ∈ front, segment.terminator ≠ .endOfText)
    (isCutBack : IsCut back) :
    IsCut (front ++ back) := by
  induction front with
  | nil => exact isCutBack
  | cons segment rest inductionHypothesis =>
      rw [List.forall_mem_cons] at closed
      exact ⟨isCut.1, fun open_ => absurd open_ closed.1, inductionHypothesis isCut.2.2 closed.2⟩

theorem join_append (front back : List Segment) : join (front ++ back) = join front ++ join back :=
  List.flatMap_append

theorem cut_append
    {front : Text}
    (ends : front.getLast? = some '\n') (back : Text) :
    cut (front ++ back) = cut front ++ cut back := by
  have closed := terminator_ne_endOfText_of_getLast? (isCut_cut front) (by rwa [join_cut])
  have isCut := (isCut_cut front).append closed (isCut_cut back)
  conv => lhs; rw [← join_cut front, ← join_cut back, ← join_append]
  exact cut_join isCut

theorem getLast?_join
    {segments : List Segment}
    (closed : ∀ segment ∈ segments, segment.terminator ≠ .endOfText)
    (nonempty : segments ≠ []) :
    (join segments).getLast? = some '\n' := by
  obtain ⟨front, last, rfl⟩ := List.eq_nil_or_concat segments |>.resolve_left nonempty
  have ending : last.terminator ≠ .endOfText := closed last (by simp)
  rw [List.concat_eq_append, join_append]
  cases terminator : last.terminator with
  | endOfText => exact absurd terminator ending
  | newline => simp [join, Segment.text, terminator, Terminator.text]
  | returnNewline => simp [join, Segment.text, terminator, Terminator.text]

/-- Around a segment the segments in front of it all end, and those behind it are cut as well. -/
theorem IsCut.of_append_cons
    {front back : List Segment} {segment : Segment}
    (isCut : IsCut (front ++ segment :: back)) :
    IsCut front ∧ (∀ other ∈ front, other.terminator ≠ .endOfText) ∧ IsCut (segment :: back) := by
  induction front with
  | nil => exact ⟨trivial, by simp, isCut⟩
  | cons first rest inductionHypothesis =>
      obtain ⟨proper, last, restCut⟩ := isCut
      obtain ⟨frontCut, closed, backCut⟩ := inductionHypothesis restCut
      have ends : first.terminator ≠ .endOfText := fun open_ => by simpa using last open_
      exact ⟨⟨proper, fun open_ => absurd open_ ends, frontCut⟩,
        List.forall_mem_cons.2 ⟨ends, closed⟩, backCut⟩

theorem Segment.Proper.count_newline
    {segment : Segment}
    (proper : segment.Proper)
    (ends : segment.terminator ≠ .endOfText) :
    segment.text.count '\n' = 1 := by
  rw [Segment.text, List.count_append, List.count_eq_zero.2 proper.1]
  cases terminator : segment.terminator with
  | newline => rfl
  | returnNewline => rfl
  | endOfText => exact absurd terminator ends

/-- Each line that ends has one newline. -/
theorem IsCut.count_newline_join
    {segments : List Segment}
    (isCut : IsCut segments)
    (closed : ∀ segment ∈ segments, segment.terminator ≠ .endOfText) :
    (join segments).count '\n' = segments.length := by
  induction segments with
  | nil => rfl
  | cons first rest inductionHypothesis =>
      rw [List.forall_mem_cons] at closed
      have joined : join (first :: rest) = first.text ++ join rest := rfl
      rw [joined, List.count_append, isCut.1.count_newline closed.1,
        inductionHypothesis isCut.2.2 closed.2, List.length_cons, Nat.add_comm]

/-- A segment where it stands in a text.  In front of it are lines that all end, as many as its
number says, and behind an open end there is nothing. -/
structure Segment.StandsIn
    (segment : Segment) (content : Text) (number : Nat) (front back : Text) : Prop where
  whole : content = front ++ (segment.text ++ back)
  closed : front = [] ∨ front.getLast? = some '\n'
  numbered : front.count '\n' = number
  proper : segment.Proper
  last : segment.terminator = .endOfText → back = []

section

variable {content front back : Text} {segment : Segment} {number : Nat}

theorem Segment.StandsIn.cut_eq
    (stands : segment.StandsIn content number front back) :
    cut content = cut front ++ segment :: cut back := by
  have isCut : IsCut (segment :: cut back) :=
    ⟨stands.proper, fun open_ => cut_eq_nil_iff.2 (stands.last open_), isCut_cut back⟩
  have behind : cut (segment.text ++ back) = segment :: cut back := by
    have joined : join (segment :: cut back) = segment.text ++ back := by
      rw [show join (segment :: cut back) = segment.text ++ join (cut back) from rfl, join_cut]
    rw [← joined, cut_join isCut]
  rw [stands.whole]
  rcases stands.closed with rfl | ends
  · exact behind
  · rw [cut_append ends, behind]

theorem Segment.StandsIn.length_cut
    (stands : segment.StandsIn content number front back) :
    (cut front).length = number := by
  rw [← stands.numbered]
  rcases stands.closed with rfl | ends
  · rfl
  · have closed := terminator_ne_endOfText_of_getLast? (isCut_cut front) (by rwa [join_cut])
    rw [← (isCut_cut front).count_newline_join closed, join_cut]

/-- Cutting a text gives the segments that stand in it, each at its number. -/
theorem getElem?_cut_iff :
    (cut content)[number]? = some segment ↔
      ∃ front back, segment.StandsIn content number front back := by
  constructor
  · intro at_
    obtain ⟨inside, here⟩ := List.getElem?_eq_some_iff.1 at_
    have split : cut content =
        (cut content).take number ++ segment :: (cut content).drop (number + 1) := by
      rw [← here, ← List.drop_eq_getElem_cons inside, List.take_append_drop]
    have isCut := isCut_cut content
    rw [split] at isCut
    obtain ⟨frontCut, closed, proper, last, -⟩ := isCut.of_append_cons
    refine ⟨join ((cut content).take number), join ((cut content).drop (number + 1)), ?_, ?_, ?_,
      proper, fun open_ => ?_⟩
    · conv => lhs; rw [← join_cut content, split, join_append]
      rfl
    · by_cases none_ : (cut content).take number = []
      · exact .inl (by rw [none_]; rfl)
      · exact .inr (getLast?_join closed none_)
    · rw [frontCut.count_newline_join closed, List.length_take]
      exact Nat.min_eq_left (Nat.le_of_lt inside)
    · rw [last open_]
      rfl
  · rintro ⟨front, back, stands⟩
    rw [stands.cut_eq, ← stands.length_cut, List.getElem?_append_right (Nat.le_refl _),
      Nat.sub_self, List.getElem?_cons_zero]

theorem getElem?_cut_eq_none_iff :
    (cut content)[number]? = none ↔
      ∀ segment front back, ¬ Segment.StandsIn segment content number front back := by
  simp only [Option.eq_none_iff_forall_ne_some, ne_eq, getElem?_cut_iff, not_exists]

end

end Upkeep
