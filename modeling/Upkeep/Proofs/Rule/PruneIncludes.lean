import Upkeep.Proofs.Rule.Candidates
import Upkeep.Proofs.Source.Carry
import Upkeep.Rule.PruneIncludes

/-!
What the other lines of a text are once an include is removed.  An include is a directive, so
that nothing is left open before it.  The lines after it stay what they were if nothing is left
open behind it either: a comment that it opens and a line that it continues are let go with it.
-/

namespace Upkeep

/-- Whether a line of the code leaves nothing open: no block comment, and not itself over a
backslash. -/
def LeavesNothingOpen (line : Text) : Prop :=
  commentOpenAfter .code line = false ∧ endsInBackslash line = false

theorem Carry.after_none_eq_none_iff {line : Text} :
    Carry.none.after line = .none ↔ LeavesNothingOpen line := by
  simp only [after, none, LeavesNothingOpen, Carry.mk.injEq, Bool.false_eq_true, if_false]
  constructor
  · rintro ⟨closed, whole⟩
    exact ⟨closed, by simpa [closed] using whole⟩
  · rintro ⟨closed, whole⟩
    exact ⟨closed, by simp [whole]⟩

theorem exists_split_of_getElem?
    {Item : Type} {items : List Item} {index : Nat} {item : Item}
    (at_ : items[index]? = some item) :
    ∃ front back, items = front ++ item :: back ∧ front.length = index := by
  obtain ⟨inside, rfl⟩ := List.getElem?_eq_some_iff.1 at_
  refine ⟨items.take index, items.drop (index + 1), ?_, ?_⟩
  · rw [← List.drop_eq_getElem_cons inside, List.take_append_drop]
  · exact List.length_take_of_le (Nat.le_of_lt inside)

theorem eraseIdx_length_append
    {Item : Type} (front back : List Item) (item : Item) :
    (front ++ item :: back).eraseIdx front.length = front ++ back := by
  rw [List.eraseIdx_append_of_length_le (Nat.le_refl _), Nat.sub_self, List.eraseIdx_cons_zero]

section

variable {front back : List Text} {line next : Text}

theorem classify_append_cons
    (nothingOpen : Carry.none.afterAll front = .none) :
    classify (front ++ line :: back) =
      classify front ++ kindByStart line :: classifyFrom (Carry.none.after line) back := by
  rw [classify, classifyFrom_append, nothingOpen]
  rfl

theorem classify_append
    (nothingOpen : Carry.none.afterAll front = .none) :
    classify (front ++ back) = classify front ++ classify back := by
  rw [classify, classifyFrom_append, nothingOpen]
  rfl

/-- Without such a line the other lines keep their kinds if those after it are what they are at
the start of a text. -/
theorem classify_eraseIdx_eq_iff
    (nothingOpen : Carry.none.afterAll front = .none) :
    classify ((front ++ line :: back).eraseIdx front.length) =
        (classify (front ++ line :: back)).eraseIdx front.length ↔
      classify back = classifyFrom (Carry.none.after line) back := by
  rw [eraseIdx_length_append, classify_append nothingOpen, classify_append_cons nothingOpen]
  have erased := eraseIdx_length_append (classify front)
    (classifyFrom (Carry.none.after line) back) (kindByStart line)
  rw [length_classify] at erased
  rw [erased, List.append_cancel_left_eq]

/-- A line after which something is left open makes the next line a comment or a continuation.
By itself the next line is neither, unless it starts with a comment. -/
theorem leavesNothingOpen_of_classify_eq
    (same : classify (next :: back) = classifyFrom (Carry.none.after line) (next :: back))
    (plain : ¬ (commentOpenAfter .code line = true ∧ StartsComment next)) :
    LeavesNothingOpen line := by
  have kind : kindByStart next = (Carry.none.after line).kind next := (List.cons.inj same).1
  cases opened : commentOpenAfter .code line with
  | true =>
      have inside : (Carry.none.after line).kind next = .comment :=
        Carry.kind_of_inComment opened (by simp [Carry.after, Carry.none, opened]) next
      rw [inside, kindByStart_eq_comment_iff] at kind
      exact absurd ⟨opened, kind⟩ plain
  | false =>
      refine ⟨opened, ?_⟩
      cases spliced : endsInBackslash line with
      | false => rfl
      | true =>
          have continues : (Carry.none.after line).kind next = .continuation := by
            simp [Carry.kind, Carry.after, Carry.none, opened, spliced]
          exact absurd (kind.trans continues) (kindByStart_ne_continuation next)

end

section

variable {path content : Text} {start : Nat} {candidate : Candidate}

theorem isPrunable_of_findIn?
    (found : pruneIncludes.findIn? path content start = some candidate) :
    isPrunable path candidate.before = true ∧ candidate.edit = .remove := by
  have edited := (Rule.findIn?_spec found).2.2.2
  simp only [pruneIncludes] at edited
  split at edited
  next prunable => exact ⟨prunable, (Option.some.inj edited).symm⟩
  · simp at edited

/-- Nothing is left open before a line that is a directive. -/
theorem exists_split_of_findIn?
    (found : pruneIncludes.findIn? path content start = some candidate) :
    ∃ front back, lines content = front ++ candidate.before :: back ∧
      front.length = candidate.line ∧
      Carry.none.afterAll front = .none := by
  obtain ⟨_, at_, directive, _⟩ :=
    Rule.mem_candidates_iff.1 (Rule.mem_candidates_of_findIn? found)
  obtain ⟨front, back, whole, length⟩ := exists_split_of_getElem? at_
  refine ⟨front, back, whole, length, ?_⟩
  rw [whole, ← length] at directive
  have kind : (Carry.none.afterAll front).kind candidate.before = .preprocessor :=
    kind_of_classify_append directive
  exact (Carry.start_of_kind kind (by simp) (by simp)).1

/-- A removed include takes no other line with it.  The lines before it keep their kinds, and so
do those after it if it is the last line or leaves nothing open.  If it leaves something open,
the next line changes, unless it was inside a comment and now starts one. -/
theorem removed_include_keeps_kinds
    (found : pruneIncludes.findIn? path content start = some candidate) :
    ∃ out, candidate.apply content = .ok out ∧
      lines out = (lines content).eraseIdx candidate.line ∧
      (classify (lines out)).take candidate.line =
        (classify (lines content)).take candidate.line ∧
      (LeavesNothingOpen candidate.before ∨ (lines content)[candidate.line + 1]? = none →
        classify (lines out) = (classify (lines content)).eraseIdx candidate.line) ∧
      ∀ next, (lines content)[candidate.line + 1]? = some next →
        ¬ (commentOpenAfter .code candidate.before = true ∧ StartsComment next) →
        classify (lines out) = (classify (lines content)).eraseIdx candidate.line →
        LeavesNothingOpen candidate.before := by
  have applied := Rule.apply_of_findIn? found
  have left := Rule.lines_of_apply found applied
  rw [(isPrunable_of_findIn? found).2] at applied left
  refine ⟨_, applied, left, ?_⟩
  rw [left, LineEdit.applyToLines]
  obtain ⟨front, back, whole, length, nothingOpen⟩ := exists_split_of_findIn? found
  have atNext : (lines content)[candidate.line + 1]? = back[0]? := by
    rw [whole, ← length, List.getElem?_append_right (Nat.le_add_right _ 1),
      Nat.add_sub_cancel_left, List.getElem?_cons_succ]
  rw [atNext, whole, ← length, classify_eraseIdx_eq_iff nothingOpen]
  refine ⟨?_, ?_, ?_⟩
  · rw [eraseIdx_length_append, classify_append nothingOpen, classify_append_cons nothingOpen,
      ← length_classify front, List.take_left, List.take_left]
  · rintro (closed | last)
    · rw [Carry.after_none_eq_none_iff.2 closed]
      rfl
    · rw [List.getElem?_eq_none_iff, Nat.le_zero, List.length_eq_zero_iff] at last
      rw [last]
      rfl
  · intro next first plain same
    cases back with
    | nil => simp at first
    | cons other back =>
        rw [List.getElem?_cons_zero, Option.some.injEq] at first
        subst first
        exact leavesNothingOpen_of_classify_eq same plain

end

/-- The comment behind the include ends on its line, the one below it does not. -/
def commentedInclude : Text :=
  "#include <x> /* b */\n/* c\n#include <y>\n*/\n".toList

theorem removed_include_keeps_kinds_of_commentedInclude :
    pruneIncludes.findIn? "a.cpp".toList commentedInclude 0 =
        some ⟨"a.cpp".toList, 0, "#include <x> /* b */".toList, .remove⟩ ∧
      ∃ out, lines out = ["/* c".toList, "#include <y>".toList, "*/".toList] ∧
        classify (lines out) = [.comment, .comment, .comment] := by
  have found : pruneIncludes.findIn? "a.cpp".toList commentedInclude 0 =
      some ⟨"a.cpp".toList, 0, "#include <x> /* b */".toList, .remove⟩ := by
    decide +kernel
  obtain ⟨out, _, left, _, keeps, _⟩ := removed_include_keeps_kinds found
  refine ⟨found, out, ?_, ?_⟩
  · rw [left]
    decide +kernel
  · rw [keeps (.inl ⟨by decide +kernel, by decide +kernel⟩)]
    decide +kernel

/-- An include that opens a comment over the next include. -/
def commentingInclude : Text :=
  "#include <x> /* b\n#include <y>\n*/\n".toList

/-- Without the first include the second one is no longer inside a comment, and it is the next to
be removed. -/
theorem removed_include_uncovers_directive :
    ∃ candidate out, pruneIncludes.findIn? "a.cpp".toList commentingInclude 0 = some candidate ∧
      candidate.apply commentingInclude = .ok out ∧
      classify (lines commentingInclude) = [.preprocessor, .comment, .comment] ∧
      classify (lines out) = [.preprocessor, .code] ∧
      pruneIncludes.findIn? "a.cpp".toList out 0 =
        some ⟨"a.cpp".toList, 0, "#include <y>".toList, .remove⟩ := by
  refine ⟨⟨"a.cpp".toList, 0, "#include <x> /* b".toList, .remove⟩, "#include <y>\n*/\n".toList,
    ?_, rfl, ?_, ?_, ?_⟩
  all_goals decide +kernel

end Upkeep
