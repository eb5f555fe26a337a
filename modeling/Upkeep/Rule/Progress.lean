import Upkeep.Rule.Basic
import Upkeep.Text.Cut

/-!
What a found candidate says about the text it was found in, and what is left of
the text once the candidate is applied.  Each applied candidate takes exactly one
line from those that the rule accepts.
-/

namespace Upkeep

/-- A segment whose body is exchanged for one with the same end stays proper. -/
theorem Segment.Proper.withBody
    {segment : Segment}
    (proper : segment.Proper)
    {text : Text}
    (noNewline : '\n' ∉ text)
    (nonempty : text ≠ [])
    (sameEnd : text.getLast? = segment.body.getLast?) :
    Segment.Proper { segment with body := text } := by
  obtain ⟨_, ends⟩ := proper
  refine ⟨noNewline, ?_⟩
  obtain ⟨body, terminator⟩ := segment
  cases terminator with
  | newline => simpa [sameEnd] using ends
  | returnNewline => trivial
  | endOfText => exact nonempty

theorem IsCut.proper_of_getElem?
    {segments : List Segment}
    (isCut : IsCut segments)
    {line : Nat} {segment : Segment}
    (at_ : segments[line]? = some segment) :
    segment.Proper :=
  isCut.proper_of_mem (List.mem_of_getElem? at_)

theorem IsCut.eraseIdx
    {segments : List Segment}
    (isCut : IsCut segments) (line : Nat) :
    IsCut (segments.eraseIdx line) := by
  induction segments generalizing line with
  | nil => exact isCut
  | cons first rest inductionHypothesis =>
      cases line with
      | zero => exact isCut.2.2
      | succ line =>
          refine ⟨isCut.1, fun last => ?_, inductionHypothesis isCut.2.2 line⟩
          simp [isCut.2.1 last]

theorem IsCut.modify
    {segments : List Segment}
    (isCut : IsCut segments)
    {line : Nat} {segment : Segment}
    (at_ : segments[line]? = some segment)
    {text : Text}
    (proper : Segment.Proper { segment with body := text }) :
    IsCut (segments.modify line fun segment => { segment with body := text }) := by
  induction segments generalizing line with
  | nil => simp at at_
  | cons first rest inductionHypothesis =>
      cases line with
      | zero =>
          simp only [List.getElem?_cons_zero, Option.some.injEq] at at_
          subst at_
          exact ⟨proper, isCut.2.1, isCut.2.2⟩
      | succ line =>
          simp only [List.getElem?_cons_succ] at at_
          refine ⟨isCut.1, fun last => ?_, inductionHypothesis isCut.2.2 at_⟩
          simp [isCut.2.1 last] at at_

namespace Rule

variable {rule : Rule} {path content : Text}

theorem findIn?_spec
    {start : Nat} {candidate : Candidate}
    (found : rule.findIn? path content start = some candidate) :
    candidate.path = path ∧ start ≤ candidate.line ∧
      (lines content)[candidate.line]? = some candidate.before ∧
      rule.edit? path candidate.before = some candidate.edit := by
  obtain ⟨⟨⟨text, kind⟩, number⟩, member, proposed⟩ := List.exists_of_findSome?_eq_some found
  unfold candidate? at proposed
  split at proposed
  · obtain ⟨edit, edited, rfl⟩ := Option.map_eq_some_iff.1 proposed
    obtain ⟨later, _, entry⟩ := List.mem_zipIdx member
    rw [List.getElem_drop] at entry
    have at_ : ((lines content).zip (classify (lines content)))[number]? = some (text, kind) := by
      rw [List.getElem?_eq_some_iff]
      refine ⟨?_, ?_⟩
      · have := List.length_drop (i := start)
          (l := (lines content).zip (classify (lines content)))
        omega
      · rw [entry]
        congr 1
        omega
    rw [List.getElem?_zip_eq_some] at at_
    exact ⟨rfl, later, at_.1, edited⟩
  · simp at proposed

/-- The number of lines that the rule accepts by their text alone. -/
def acceptedLines (rule : Rule) (path content : Text) : Nat :=
  (lines content).countP (rule.accepts path)

/-- Applying an edit that the rule proposes for a line changes the segments of the
text there and nowhere else. -/
theorem cut_join_applyAt
    {line : Nat} {segment : Segment} {edit : LineEdit}
    (at_ : (cut content)[line]? = some segment)
    (edited : rule.edit? path segment.body = some edit) :
    cut (join (edit.applyAt line (cut content))) = edit.applyAt line (cut content) := by
  refine cut_join ?_
  have isCut := isCut_cut content
  have proper := isCut.proper_of_getElem? at_
  cases edit with
  | remove => exact isCut.eraseIdx line
  | replaceBy text =>
      have ends := rule.sameEnd edited
      exact isCut.modify at_
        (proper.withBody (rule.noNewline edited proper.1) ends.1 ends.2)

end Rule

theorem countP_eraseIdx_add_one
    {Item : Type} {accepts : Item → Bool} {items : List Item} {index : Nat} {item : Item}
    (at_ : items[index]? = some item)
    (accepted : accepts item = true) :
    (items.eraseIdx index).countP accepts + 1 = items.countP accepts := by
  induction items generalizing index with
  | nil => simp at at_
  | cons first rest inductionHypothesis =>
      cases index with
      | zero =>
          simp only [List.getElem?_cons_zero, Option.some.injEq] at at_
          simp [at_, accepted]
      | succ index =>
          simp only [List.getElem?_cons_succ] at at_
          simp only [List.eraseIdx_cons_succ, List.countP_cons]
          have := inductionHypothesis at_
          omega

theorem countP_set_add_one
    {Item : Type} {accepts : Item → Bool} {items : List Item} {index : Nat} {item new : Item}
    (at_ : items[index]? = some item)
    (accepted : accepts item = true)
    (refused : accepts new = false) :
    (items.set index new).countP accepts + 1 = items.countP accepts := by
  induction items generalizing index with
  | nil => simp at at_
  | cons first rest inductionHypothesis =>
      cases index with
      | zero =>
          simp only [List.getElem?_cons_zero, Option.some.injEq] at at_
          simp [at_, accepted, refused]
      | succ index =>
          simp only [List.getElem?_cons_succ] at at_
          simp only [List.set_cons_succ, List.countP_cons]
          have := inductionHypothesis at_
          omega

theorem map_body_modify (segments : List Segment) (line : Nat) (text : Text) :
    (segments.modify line fun segment => { segment with body := text }).map Segment.body =
      (segments.map Segment.body).set line text := by
  induction segments generalizing line with
  | nil => simp
  | cons first rest inductionHypothesis =>
      cases line with
      | zero => simp
      | succ line => simp [inductionHypothesis]

/-- What an edit does to the lines of a text. -/
def LineEdit.applyToLines (edit : LineEdit) (line : Nat) (sourceLines : List Text) : List Text :=
  match edit with
  | .remove => sourceLines.eraseIdx line
  | .replaceBy text => sourceLines.set line text

theorem map_body_applyAt (edit : LineEdit) (line : Nat) (segments : List Segment) :
    (edit.applyAt line segments).map Segment.body =
      edit.applyToLines line (segments.map Segment.body) := by
  cases edit with
  | remove =>
      simp [LineEdit.applyAt, LineEdit.applyToLines, List.eraseIdx_eq_take_drop_succ,
        List.map_take, List.map_drop]
  | replaceBy text => exact map_body_modify segments line text

namespace Rule

variable {rule : Rule} {path content out : Text} {start : Nat} {candidate : Candidate}

/-- A found candidate stands at its line, with its before text. -/
theorem segment_of_findIn?
    (found : rule.findIn? path content start = some candidate) :
    ∃ segment, (cut content)[candidate.line]? = some segment ∧
      segment.body = candidate.before := by
  obtain ⟨_, _, at_, _⟩ := findIn?_spec found
  rw [lines_eq_map_body, List.getElem?_map, Option.map_eq_some_iff] at at_
  exact at_

/-- A found candidate applies to the text in which it was found. -/
theorem apply_of_findIn?
    (found : rule.findIn? path content start = some candidate) :
    candidate.apply content = .ok (join (candidate.edit.applyAt candidate.line (cut content))) := by
  obtain ⟨segment, at_, same⟩ := segment_of_findIn? found
  simp [Candidate.apply, at_, same]

/-- The lines of the text after a found candidate is applied. -/
theorem lines_of_apply
    (found : rule.findIn? path content start = some candidate)
    (applied : candidate.apply content = .ok out) :
    lines out = candidate.edit.applyToLines candidate.line (lines content) := by
  rw [apply_of_findIn? found, Except.ok.injEq] at applied
  obtain ⟨segment, at_, same⟩ := segment_of_findIn? found
  obtain ⟨_, _, _, edited⟩ := findIn?_spec found
  rw [← applied, lines_eq_map_body, cut_join_applyAt at_ (by rw [same]; exact edited),
    map_body_applyAt, ← lines_eq_map_body]

/-- Each applied candidate takes one line from those that the rule accepts. -/
theorem acceptedLines_of_apply
    (found : rule.findIn? path content start = some candidate)
    (applied : candidate.apply content = .ok out) :
    rule.acceptedLines path out + 1 = rule.acceptedLines path content := by
  obtain ⟨_, _, at_, edited⟩ := findIn?_spec found
  have accepted : rule.accepts path candidate.before = true := by simp [accepts, edited]
  rw [acceptedLines, lines_of_apply found applied, acceptedLines]
  cases edit : candidate.edit with
  | remove => exact countP_eraseIdx_add_one at_ accepted
  | replaceBy text =>
      rw [edit] at edited
      exact countP_set_add_one at_ accepted (by simp [accepts, rule.settled edited])

theorem line_lt_of_findIn?
    (found : rule.findIn? path content start = some candidate) :
    start ≤ candidate.line ∧ candidate.line < (lines content).length := by
  obtain ⟨_, later, at_, _⟩ := findIn?_spec found
  exact ⟨later, (List.getElem?_eq_some_iff.1 at_).1⟩

end Rule

end Upkeep
