import Upkeep.Proofs.Source.Directive
import Upkeep.Rule.Constify.Rule
import Upkeep.Rule.PruneIncludes

/-!
Rules and the blanks around lines.  Whether a rule edits a line does not depend on them.
-/

namespace Upkeep

open Unicode

variable {line : Text}

theorem after?_eq_none_of_isBlank
    {c s : Char}
    (blank : isBlank c = true)
    (solid : isBlank s = false) (start rest : Text) :
    after? (s :: start) (c :: rest) = none := by
  rw [after?, if_neg]
  intro same
  exact ne_of_isBlank blank solid same.symm

theorem asksToKeep_append_of_isBlank
    {lead : Text}
    (blank : ∀ c ∈ lead, isBlank c = true) (line : Text) :
    asksToKeep (lead ++ line) = asksToKeep line := by
  induction lead with
  | nil => rfl
  | cons c lead inductionHypothesis =>
      rw [List.forall_mem_cons] at blank
      have unread : after? "//".toList (c :: (lead ++ line)) = none :=
        after?_eq_none_of_isBlank blank.1 (by decide) _ _
      rw [List.cons_append, asksToKeep, unread, inductionHypothesis blank.2, Bool.false_or]

theorem asksToKeep_trimEnd (line : Text) : asksToKeep (trimEnd line) = asksToKeep line := by
  induction line with
  | nil => rfl
  | cons c rest inductionHypothesis =>
      by_cases dropped : isBlank c = true ∧ trimEnd rest = []
      · have blank : ∀ d ∈ c :: rest, isBlank d = true := by
          rw [List.forall_mem_cons]
          exact ⟨dropped.1, dropEnd_eq_nil_iff.1 dropped.2⟩
        have silent := asksToKeep_append_of_isBlank blank []
        rw [List.append_nil] at silent
        rw [trimEnd_cons, if_pos dropped, silent]
      · have solid : ∀ d ∈ "//".toList, isBlank d = false := isBlank_eq_false_of_all (by decide)
        have comment := after?_trimEnd solid (c :: rest)
        rw [trimEnd_cons, if_neg dropped] at comment ⊢
        rw [asksToKeep, asksToKeep, comment, inductionHypothesis]
        cases after? "//".toList (c :: rest) with
        | none => rfl
        | some comment => simp [← trimEnd_trimStart, firstWord_trimEnd]

theorem asksToKeep_trim (line : Text) : asksToKeep (trim line) = asksToKeep line := by
  have blank : ∀ c ∈ (trimEnd line).takeWhile isBlank, isBlank c = true :=
    List.all_eq_true.1 List.all_takeWhile
  have split : (trimEnd line).takeWhile isBlank ++ trim line = trimEnd line := by
    rw [trim_eq_trimStart]
    exact List.takeWhile_append_dropWhile
  rw [← asksToKeep_trimEnd line, ← split, asksToKeep_append_of_isBlank blank]

theorem accepts_pruneIncludes_trim (path line : Text) :
    pruneIncludes.accepts path (trim line) = pruneIncludes.accepts path line := by
  have prunable : isPrunable path (trim line) = isPrunable path line := by
    rw [isPrunable, isPrunable, includeTarget?_trim, asksToKeep_trim]
  simp only [Rule.accepts, pruneIncludes, prunable]

/-- Where `const` may be put is read off the code of a line without the blanks around it. -/
theorem isSome_propose?_trim (index : SymbolIndex) (line : Text) :
    (propose? index (trim line)).isSome = (propose? index line).isSome := by
  have stated : trimStart (statement (trim line)) = trimStart (statement line) := by
    rw [statement, statement, ← trim_eq_trimStart, trim_codeOf_trim, trim_eq_trimStart]
  rw [propose?, propose?, insertionPoint?, insertionPoint?, stated, Option.isSome_map,
    Option.isSome_map, Option.isSome_map, Option.isSome_map]

theorem accepts_constify_trim (index : SymbolIndex) (path line : Text) :
    (constify index).accepts path (trim line) = (constify index).accepts path line := by
  simp only [Rule.accepts, constify, Option.isSome_map, isSome_propose?_trim]

end Upkeep
