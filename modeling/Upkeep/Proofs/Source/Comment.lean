import Upkeep.Proofs.Source.Trim

/-!
The code of a line and the comment behind it.
-/

namespace Upkeep

open Unicode

variable {quote : Option Char} {front back : Text}

/-- What is taken away behind the code of a line is a comment. -/
theorem exists_comment_codeFrom (quote : Option Char) (line : Text) :
    ∃ comment, line = codeFrom quote line ++ comment ∧
      (comment = [] ∨ "//".toList <+: comment) := by
  fun_induction codeFrom quote line with
  | case1 | case2 => exact ⟨[], rfl, .inl rfl⟩
  | case3 _ _ _ inductionHypothesis
  | case4 _ _ _ _ _ inductionHypothesis
  | case6 _ _ _ inductionHypothesis =>
      obtain ⟨comment, split, isComment⟩ := inductionHypothesis
      refine ⟨comment, ?_, isComment⟩
      conv => lhs; rw [split]
      rfl
  | case5 rest => exact ⟨'/' :: '/' :: rest, rfl, .inr ⟨rest, rfl⟩⟩

/-- No comment is left in the code of a line. -/
theorem codeFrom_codeFrom (quote : Option Char) (line : Text) :
    codeFrom quote (codeFrom quote line) = codeFrom quote line := by
  fun_induction codeFrom quote line with
  | case1 => rw [codeFrom]
  | case2 => rw [codeFrom]
  | case3 quote c rest inductionHypothesis => rw [codeFrom, inductionHypothesis]
  | case4 quote c rest notLast notEscape inductionHypothesis =>
      have plain := ne_backslash notLast notEscape
      rw [codeFrom, inductionHypothesis]
      · exact fun isBackslash _ => plain isBackslash
      · exact fun _ _ isBackslash _ => plain isBackslash
  | case5 rest => rfl
  | case6 c rest noComment inductionHypothesis =>
      rw [codeFrom, inductionHypothesis]
      intro tail isSlash starts
      obtain ⟨hidden, whole⟩ := codeFrom_isPrefix (if isQuote c then some c else none) rest
      rw [starts, List.cons_append] at whole
      exact noComment _ isSlash whole.symm

theorem codeOf_codeOf (line : Text) : codeOf (codeOf line) = codeOf line :=
  codeFrom_codeFrom none line

theorem head?_codeFrom
    (noSlash : ∀ c ∈ back.head?, c ≠ '/') (quote : Option Char) :
    (codeFrom quote back).head? = back.head? := by
  fun_induction codeFrom quote back with
  | case1 | case2 | case3 | case4 | case6 => rfl
  | case5 rest => exact absurd rfl (noSlash '/' rfl)

/-- Behind a text without a comment the code goes on, if no comment begins across the place. -/
theorem exists_codeFrom_append
    (whole : codeFrom quote front = front)
    (noSlash : ∀ c ∈ back.head?, c ≠ '/') :
    ∃ kept, codeFrom quote (front ++ back) = front ++ kept ∧ kept.head? = back.head? := by
  fun_induction codeFrom quote front with
  | case1 quote => exact ⟨codeFrom quote back, rfl, head?_codeFrom noSlash quote⟩
  | case2 quote =>
      cases back with
      | nil => exact ⟨[], rfl, rfl⟩
      | cons c rest => exact ⟨c :: codeFrom (some quote) rest, by simp [codeFrom], rfl⟩
  | case3 quote c rest inductionHypothesis =>
      simp only [List.cons.injEq, true_and] at whole
      obtain ⟨kept, same, first⟩ := inductionHypothesis whole
      exact ⟨kept, by simp [codeFrom, same], first⟩
  | case4 quote c rest notLast notEscape inductionHypothesis =>
      have plain := ne_backslash notLast notEscape
      simp only [List.cons.injEq, true_and] at whole
      obtain ⟨kept, same, first⟩ := inductionHypothesis whole
      refine ⟨kept, ?_, first⟩
      rw [List.cons_append, codeFrom, same, List.cons_append]
      · exact fun isBackslash _ => plain isBackslash
      · exact fun _ _ isBackslash _ => plain isBackslash
  | case5 rest => simp at whole
  | case6 c rest noComment inductionHypothesis =>
      simp only [List.cons.injEq, true_and] at whole
      obtain ⟨kept, same, first⟩ := inductionHypothesis whole
      refine ⟨kept, ?_, first⟩
      rw [List.cons_append, codeFrom, same, List.cons_append]
      intro tail isSlash starts
      cases rest with
      | nil => exact noSlash '/' (by simp [show back = '/' :: tail from starts]) rfl
      | cons d more => exact noComment more isSlash (by rw [(List.cons.inj starts).1])

end Upkeep
