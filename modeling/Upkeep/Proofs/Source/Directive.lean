import Upkeep.Check.Guards
import Upkeep.Proofs.Source.Trim

/-!
Directives without the blanks around their lines.  Only the operand can lose something, and
nothing that is read from it.
-/

namespace Upkeep

open Unicode

variable {line operand : Text}

namespace Directive

/-- A directive without the blanks behind its operand. -/
def trimmed (directive : Directive) : Directive :=
  { directive with operand := trimEnd directive.operand }

theorem ofLine?_trim (line : Text) : ofLine? (trim line) = (ofLine? line).map trimmed := by
  rw [ofLine?, ofLine?, trimStart_trim, trim]
  cases starts : trimStart line with
  | nil => rfl
  | cons c rest =>
      rw [trimEnd_cons_of_not_isBlank (isBlank_eq_false_of_trimStart_cons starts)]
      by_cases sign : c = '#'
      · subst sign
        simp [trimmed, ← trimEnd_trimStart, firstWord_trimEnd, afterWord_trimEnd]
      · simp [sign]

@[simp]
theorem keyword_trimmed (directive : Directive) : directive.trimmed.keyword = directive.keyword :=
  rfl

@[simp]
theorem operandWord_trimmed (directive : Directive) :
    directive.trimmed.operandWord = directive.operandWord := by
  rw [operandWord, operandWord, trimmed, ← trimEnd_trimStart, firstWord_trimEnd]

@[simp]
theorem isPragmaOnce_trimmed (directive : Directive) :
    directive.trimmed.isPragmaOnce = directive.isPragmaOnce := by
  rw [isPragmaOnce, isPragmaOnce, keyword_trimmed, operandWord_trimmed]

@[simp]
theorem isConditional_trimmed (directive : Directive) :
    directive.trimmed.isConditional = directive.isConditional := by
  rw [isConditional, isConditional, keyword_trimmed]

@[simp]
theorem asksForAbsence?_trimmed (directive : Directive) :
    directive.trimmed.asksForAbsence? = directive.asksForAbsence? := by
  rw [asksForAbsence?, asksForAbsence?, keyword_trimmed, operandWord_trimmed]

@[simp]
theorem defines?_trimmed (directive : Directive) :
    directive.trimmed.defines? = directive.defines? := by
  rw [defines?, defines?, keyword_trimmed, operandWord_trimmed]

/-- What a character that is not blank closes is read as before, and what nothing closes stays
open. -/
theorem takeWhile_trimEnd
    {inside : Char → Bool}
    (blank : ∀ c, isBlank c = true → inside c = true) (text : Text) :
    text.takeWhile inside = text ∧ (trimEnd text).takeWhile inside = trimEnd text ∨
      text.takeWhile inside ≠ text ∧ (trimEnd text).takeWhile inside ≠ trimEnd text ∧
        (trimEnd text).takeWhile inside = text.takeWhile inside := by
  have split : text.takeWhile inside ++ text.dropWhile inside = text :=
    List.takeWhile_append_dropWhile
  cases closing : text.dropWhile inside with
  | nil =>
      have whole : ∀ c ∈ text, inside c = true := List.dropWhile_eq_nil_iff.1 closing
      left
      rw [List.takeWhile_eq_self_iff, List.takeWhile_eq_self_iff]
      exact ⟨whole, fun c member => whole c ((dropEnd_isPrefix isBlank text).mem member)⟩
  | cons c rest =>
      have closes : ¬ inside c = true := by
        have first := List.head?_dropWhile_not inside text
        simpa [closing] using first
      have solid : isBlank c = false := by
        by_contra isBlank_
        rw [Bool.not_eq_false] at isBlank_
        exact closes (blank c isBlank_)
      have back : trimEnd (c :: rest) = c :: trimEnd rest := trimEnd_cons_of_not_isBlank solid rest
      have trimmed : trimEnd text = text.takeWhile inside ++ c :: trimEnd rest := by
        conv => lhs; rw [← split, closing]
        rw [← back]
        exact dropEnd_append_of_ne_nil (by rw [← trimEnd, back]; simp) _
      have taken : (trimEnd text).takeWhile inside = text.takeWhile inside := by
        rw [trimmed, List.takeWhile_append_of_pos (List.all_eq_true.1 List.all_takeWhile),
          List.takeWhile_cons_of_neg closes, List.append_nil]
      right
      refine ⟨?_, ?_, taken⟩
      · intro whole
        rw [closing, whole] at split
        simp at split
      · rw [taken]
        intro whole
        rw [trimmed] at whole
        simp at whole

@[simp]
theorem includes?_trimmed (directive : Directive) :
    directive.trimmed.includes? = directive.includes? := by
  have length : ∀ (inside : Char → Bool) (text : Text),
      (text.takeWhile inside).length = text.length ↔ text.takeWhile inside = text :=
    fun inside _ => ⟨(List.takeWhile_prefix inside).eq_of_length, congrArg List.length⟩
  have blank : ∀ c, isBlank c = true → (c != '>' && c != '"') = true := by
    intro c blank
    rw [Bool.and_eq_true, bne_iff_ne, bne_iff_ne]
    exact ⟨ne_of_isBlank blank (by decide), ne_of_isBlank blank (by decide)⟩
  rw [includes?, includes?, keyword_trimmed, trimmed, ← trimEnd_trimStart]
  by_cases isInclude : directive.keyword = "include".toList
  · rw [if_pos isInclude, if_pos isInclude]
    cases starts : trimStart directive.operand with
    | nil => rfl
    | cons c rest =>
        rw [trimEnd_cons_of_not_isBlank (isBlank_eq_false_of_trimStart_cons starts)]
        simp only [length]
        rcases takeWhile_trimEnd blank rest with ⟨whole, trimmed⟩ | ⟨closed, closedToo, taken⟩
        · simp [whole, trimmed]
        · rw [taken] at closedToo
          simp [taken, closed, closedToo]
  · rw [if_neg isInclude, if_neg isInclude]

end Directive

theorem includeTarget?_trim (line : Text) : includeTarget? (trim line) = includeTarget? line := by
  rw [includeTarget?, includeTarget?, Directive.ofLine?_trim]
  cases Directive.ofLine? line with
  | none => rfl
  | some directive => exact directive.includes?_trimmed

theorem opensWithGuard_map_trimmed (directives : List Directive) :
    opensWithGuard (directives.map Directive.trimmed) = opensWithGuard directives := by
  induction directives with
  | nil => rfl
  | cons directive rest inductionHypothesis =>
      rw [List.map_cons, opensWithGuard, opensWithGuard, inductionHypothesis]
      cases rest <;> simp

end Upkeep
