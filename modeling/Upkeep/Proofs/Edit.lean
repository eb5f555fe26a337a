import Upkeep.Proofs.Text.Cut
import Upkeep.Rule.Progress

/-!
What an edit of a single line does to a text.  It changes the text at the place of its line and
nowhere else, the edit that puts the old line back undoes it, and edits of different lines do not
get in each other's way.
-/

namespace Upkeep

/-- What an edit leaves of a line with a given end. -/
def LineEdit.textFor (edit : LineEdit) (terminator : Terminator) : Text :=
  match edit with
  | .remove => []
  | .replaceBy text => text ++ terminator.text

/-- A text that is a single line in front of any end. -/
structure IsOneLine (text : Text) : Prop where
  nonempty : text ≠ []
  noNewline : '\n' ∉ text
  noReturn : text.getLast? ≠ some '\r'

/-- These are the texts that may stand in place of any line. -/
theorem isOneLine_iff_forall_proper {text : Text} :
    IsOneLine text ↔ ∀ terminator, Segment.Proper ⟨text, terminator⟩ := by
  constructor
  · intro oneLine terminator
    refine ⟨oneLine.noNewline, ?_⟩
    cases terminator with
    | newline => exact oneLine.noReturn
    | returnNewline => trivial
    | endOfText => exact oneLine.nonempty
  · intro proper
    exact ⟨(proper .endOfText).2, (proper .endOfText).1, (proper .newline).2⟩

theorem Segment.StandsIn.join_applyAt
    {segment : Segment} {content front back : Text} {number : Nat}
    (stands : segment.StandsIn content number front back) (edit : LineEdit) :
    join (edit.applyAt number (cut content)) =
      front ++ (edit.textFor segment.terminator ++ back) := by
  rw [stands.cut_eq, ← stands.length_cut]
  cases edit with
  | remove =>
      rw [LineEdit.applyAt, List.eraseIdx_append_of_length_le (Nat.le_refl _), Nat.sub_self,
        List.eraseIdx_cons_zero, join_append, join_cut, join_cut]
      rfl
  | replaceBy text =>
      have behind : join (⟨text, segment.terminator⟩ :: cut back) =
          (text ++ segment.terminator.text) ++ join (cut back) := rfl
      rw [LineEdit.applyAt, List.modify_eq_set_getElem?,
        List.getElem?_append_right (Nat.le_refl _), Nat.sub_self, List.getElem?_cons_zero]
      simp only [Option.map_eq_map, Option.map_some, Option.getD_some]
      rw [List.set_append_right _ _ (Nat.le_refl _), Nat.sub_self, List.set_cons_zero, join_append,
        behind, join_cut, join_cut]
      rfl

namespace Candidate

variable {candidate other : Candidate} {content out text otherText : Text}

theorem apply_eq_ok_iff :
    candidate.apply content = .ok out ↔
      (lines content)[candidate.line]? = some candidate.before ∧
        out = join (candidate.edit.applyAt candidate.line (cut content)) := by
  rw [lines_eq_map_body, List.getElem?_map]
  unfold apply
  split
  next none_ => simp [none_]
  next segment at_ =>
    rw [at_]
    split
    next same => simp [same, eq_comm]
    next changed => simp [changed]

/-- An edit fails exactly where no line has its number or another one than the remembered one
does. -/
theorem exists_error_apply_iff :
    (∃ error, candidate.apply content = .error error) ↔
      (cut content)[candidate.line]? = none ∨
        ∃ segment, (cut content)[candidate.line]? = some segment ∧
          segment.body ≠ candidate.before := by
  unfold apply
  cases at_ : (cut content)[candidate.line]? with
  | none => simp
  | some segment =>
      by_cases same : segment.body = candidate.before
      · simp [same]
      · simp [same]

/-- An edit that applies changes the text where its line stands and nowhere else. -/
theorem apply_eq_ok_iff_standsIn :
    candidate.apply content = .ok out ↔
      ∃ (segment : Segment) (front back : Text),
        segment.StandsIn content candidate.line front back ∧
        segment.body = candidate.before ∧
        out = front ++ (candidate.edit.textFor segment.terminator ++ back) := by
  rw [apply_eq_ok_iff, lines_eq_map_body, List.getElem?_map, Option.map_eq_some_iff]
  constructor
  · rintro ⟨⟨segment, at_, same⟩, rfl⟩
    obtain ⟨front, back, stands⟩ := getElem?_cut_iff.1 at_
    exact ⟨segment, front, back, stands, same, stands.join_applyAt candidate.edit⟩
  · rintro ⟨segment, front, back, stands, same, rfl⟩
    exact ⟨⟨segment, getElem?_cut_iff.2 ⟨front, back, stands⟩, same⟩,
      (stands.join_applyAt candidate.edit).symm⟩

/-- The edit that puts the old line back in place of a new one. -/
def undo (candidate : Candidate) (text : Text) : Candidate :=
  ⟨candidate.path, candidate.line, text, .replaceBy candidate.before⟩

theorem apply_undo
    (replaces : candidate.edit = .replaceBy text)
    (oneLine : IsOneLine text)
    (applied : candidate.apply content = .ok out) :
    (candidate.undo text).apply out = .ok content := by
  obtain ⟨⟨body, terminator⟩, front, back, stands, same, changed⟩ :=
    apply_eq_ok_iff_standsIn.1 applied
  rw [replaces] at changed
  -- The new line stands where the old one stood, so that cutting finds its end again.
  have standsNew : Segment.StandsIn ⟨text, terminator⟩ out candidate.line front back :=
    ⟨changed, stands.closed, stands.numbered, isOneLine_iff_forall_proper.1 oneLine terminator,
      stands.last⟩
  refine apply_eq_ok_iff_standsIn.2 ⟨_, front, back, standsNew, rfl, ?_⟩
  rw [stands.whole, show body = candidate.before from same]
  rfl

/-- A replacement that applies changes one segment and keeps the number of every other one. -/
theorem cut_of_apply
    (replaces : candidate.edit = .replaceBy text)
    (oneLine : IsOneLine text)
    (applied : candidate.apply content = .ok out) :
    cut out = candidate.edit.applyAt candidate.line (cut content) := by
  obtain ⟨stands, rfl⟩ := apply_eq_ok_iff.1 applied
  rw [lines_eq_map_body, List.getElem?_map, Option.map_eq_some_iff] at stands
  obtain ⟨segment, at_, -⟩ := stands
  rw [replaces]
  exact cut_join ((isCut_cut content).modify at_ (isOneLine_iff_forall_proper.1 oneLine _))

/-- Two replacements on different lines apply one after the other exactly if both lines stand in
the text, and each changes its own segment. -/
theorem bind_apply_eq_ok_iff
    (replaces : candidate.edit = .replaceBy text)
    (oneLine : IsOneLine text)
    (apart : candidate.line ≠ other.line) :
    (candidate.apply content).bind other.apply = .ok out ↔
      (lines content)[candidate.line]? = some candidate.before ∧
        (lines content)[other.line]? = some other.before ∧
        out = join (other.edit.applyAt other.line
          (candidate.edit.applyAt candidate.line (cut content))) := by
  cases applied : candidate.apply content with
  | error error =>
      have missing : (lines content)[candidate.line]? ≠ some candidate.before := by
        intro stands
        rw [apply_eq_ok_iff.2 ⟨stands, rfl⟩] at applied
        cases applied
      simp [Except.bind, missing]
  | ok middle =>
      have segments := cut_of_apply replaces oneLine applied
      have others : (lines middle)[other.line]? = (lines content)[other.line]? := by
        rw [lines_eq_map_body, segments, map_body_applyAt, replaces, ← lines_eq_map_body]
        exact List.getElem?_set_ne apart
      simp only [Except.bind, apply_eq_ok_iff, others, segments, (apply_eq_ok_iff.1 applied).1,
        true_and]

/-- Replacements on different lines can be made in either order. -/
theorem bind_apply_comm
    (replaces : candidate.edit = .replaceBy text)
    (oneLine : IsOneLine text)
    (otherReplaces : other.edit = .replaceBy otherText)
    (otherOneLine : IsOneLine otherText)
    (apart : candidate.line ≠ other.line) :
    (candidate.apply content).bind other.apply = .ok out ↔
      (other.apply content).bind candidate.apply = .ok out := by
  have exchanged :
      other.edit.applyAt other.line (candidate.edit.applyAt candidate.line (cut content)) =
        candidate.edit.applyAt candidate.line (other.edit.applyAt other.line (cut content)) := by
    rw [replaces, otherReplaces]
    exact List.modify_modify_ne _ _ _ apart
  rw [bind_apply_eq_ok_iff replaces oneLine apart,
    bind_apply_eq_ok_iff otherReplaces otherOneLine apart.symm, exchanged]
  exact and_left_comm

end Candidate

/-- A single-line edit is exact and can be undone.  It fails exactly if no segment has the number
of its line or the one that does is not the remembered line, and if it applies, all in front of
the line and behind it is kept to the character.  A replacement by a single line is undone by
the one that puts the old line back, and two of them on different lines lead to the same text
in either order. -/
theorem edit_is_exact_and_reversible (candidate : Candidate) (content : Text) :
    ((∃ error, candidate.apply content = .error error) ↔
      (∀ segment front back, ¬ Segment.StandsIn segment content candidate.line front back) ∨
        ∃ segment front back, Segment.StandsIn segment content candidate.line front back ∧
          segment.body ≠ candidate.before) ∧
    (∀ out, candidate.apply content = .ok out ↔
      ∃ (segment : Segment) (front back : Text),
        segment.StandsIn content candidate.line front back ∧
        segment.body = candidate.before ∧
        out = front ++ (candidate.edit.textFor segment.terminator ++ back)) ∧
    ∀ text, candidate.edit = .replaceBy text → IsOneLine text →
      (∀ out, candidate.apply content = .ok out →
        (candidate.undo text).apply out = .ok content) ∧
      ∀ (other : Candidate) (otherText : Text),
        other.edit = .replaceBy otherText → IsOneLine otherText → candidate.line ≠ other.line →
        (∀ out, (candidate.apply content).bind other.apply = .ok out ↔
          (other.apply content).bind candidate.apply = .ok out) ∧
        ∀ first second, candidate.apply content = .ok first → other.apply content = .ok second →
          ∃ out, other.apply first = .ok out ∧ candidate.apply second = .ok out := by
  refine ⟨?_, fun out => Candidate.apply_eq_ok_iff_standsIn, ?_⟩
  · rw [Candidate.exists_error_apply_iff, getElem?_cut_eq_none_iff]
    simp only [getElem?_cut_iff, exists_and_right]
  · intro text replaces oneLine
    refine ⟨fun out => Candidate.apply_undo replaces oneLine, ?_⟩
    intro other otherText otherReplaces otherOneLine apart
    have either (out : Text) : (candidate.apply content).bind other.apply = .ok out ↔
        (other.apply content).bind candidate.apply = .ok out :=
      Candidate.bind_apply_comm replaces oneLine otherReplaces otherOneLine apart
    refine ⟨either, ?_⟩
    intro first second applied otherApplied
    have both := (Candidate.bind_apply_eq_ok_iff replaces oneLine apart).2
      ⟨(Candidate.apply_eq_ok_iff.1 applied).1, (Candidate.apply_eq_ok_iff.1 otherApplied).1, rfl⟩
    have swapped := (either _).1 both
    rw [applied] at both
    rw [otherApplied] at swapped
    exact ⟨_, both, swapped⟩

/-- The first line ends in a return and a newline, and the last one in a return alone, which is
part of it. -/
def returnEndedText : Text :=
  "Foo a;\r\nFoo b;\r".toList

def editOfFirstLine : Candidate :=
  ⟨"a.cpp".toList, 0, "Foo a;".toList, .replaceBy "const Foo a;".toList⟩

def editOfLastLine : Candidate :=
  ⟨"a.cpp".toList, 1, "Foo b;\r".toList, .replaceBy "Foo c;".toList⟩

theorem edit_is_exact_and_reversible_of_returnEndedText :
    editOfFirstLine.apply returnEndedText = .ok "const Foo a;\r\nFoo b;\r".toList ∧
      (editOfFirstLine.undo "const Foo a;".toList).apply "const Foo a;\r\nFoo b;\r".toList =
        .ok returnEndedText ∧
      editOfLastLine.apply returnEndedText = .ok "Foo a;\r\nFoo c;".toList ∧
      ∃ out, editOfLastLine.apply "const Foo a;\r\nFoo b;\r".toList = .ok out ∧
        editOfFirstLine.apply "Foo a;\r\nFoo c;".toList = .ok out := by
  have applied :
      editOfFirstLine.apply returnEndedText = .ok "const Foo a;\r\nFoo b;\r".toList := by
    decide +kernel
  have otherApplied :
      editOfLastLine.apply returnEndedText = .ok "Foo a;\r\nFoo c;".toList := by
    decide +kernel
  have oneLine : IsOneLine "const Foo a;".toList := ⟨by decide, by decide, by decide⟩
  have otherOneLine : IsOneLine "Foo c;".toList := ⟨by decide, by decide, by decide⟩
  obtain ⟨undone, orders⟩ :=
    (edit_is_exact_and_reversible editOfFirstLine returnEndedText).2.2 _ rfl oneLine
  have either := (orders editOfLastLine _ rfl otherOneLine (by decide)).2
  exact ⟨applied, undone _ applied, otherApplied, either _ _ applied otherApplied⟩

end Upkeep
