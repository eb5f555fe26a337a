import Upkeep.Text.Basic

/-!
Where a part can occur in a text that is put together from two.  It does not reach over a place
behind which a character stands that it does not have.
-/

namespace Upkeep

variable {part mark front back : Text}

/-- No occurrence of a part begins in front of a text whose first character it does not have,
and reaches into it. -/
theorem isPrefix_append_iff
    (apart : ∀ c ∈ back.head?, c ∉ part) :
    part <+: front ++ back ↔ part <+: front := by
  induction part generalizing front with
  | nil => simp
  | cons s part inductionHypothesis =>
      cases front with
      | nil =>
          cases back with
          | nil => simp
          | cons c back =>
              have other : c ∉ s :: part := apart c rfl
              rw [List.mem_cons, not_or] at other
              simp [Ne.symm other.1]
      | cons d front =>
          have apartRest : ∀ c ∈ back.head?, c ∉ part := fun c first member =>
            apart c first (List.mem_cons_of_mem s member)
          rw [List.cons_append, List.cons_prefix_cons, List.cons_prefix_cons,
            inductionHypothesis apartRest]

theorem occursIn_append
    (apart : ∀ c ∈ back.head?, c ∉ part) (front : Text) :
    occursIn part (front ++ back) = (occursIn part front || occursIn part back) := by
  rw [Bool.eq_iff_iff, Bool.or_eq_true, occursIn_iff, occursIn_iff, occursIn_iff]
  induction front with
  | nil =>
      rw [List.nil_append, List.infix_nil]
      constructor
      · exact .inr
      · rintro (rfl | inside)
        · exact List.nil_infix
        · exact inside
  | cons d front inductionHypothesis =>
      rw [List.cons_append, List.infix_cons_iff, inductionHypothesis, ← List.cons_append,
        isPrefix_append_iff apart, List.infix_cons_iff, or_assoc]

/-- A part that does not begin in a front is found behind it. -/
theorem infix_append_iff_of_head?
    (absent : ∀ c ∈ part.head?, c ∉ front) :
    part <:+: front ++ back ↔ part <:+: back := by
  induction front with
  | nil => rfl
  | cons c front inductionHypothesis =>
      have absentRest : ∀ s ∈ part.head?, s ∉ front := fun s first member =>
        absent s first (List.mem_cons_of_mem c member)
      rw [List.cons_append, List.infix_cons_iff, inductionHypothesis absentRest]
      constructor
      · rintro (starts | inside)
        · cases part with
          | nil => exact List.nil_infix
          | cons s part =>
              rw [List.cons_prefix_cons] at starts
              exact absurd (starts.1 ▸ List.mem_cons_self) (absent s rfl)
        · exact inside
      · exact .inr

theorem infix_append_iff_of_getLast?
    (absent : ∀ c ∈ part.getLast?, c ∉ back) :
    part <:+: front ++ back ↔ part <:+: front := by
  rw [← List.reverse_infix, List.reverse_append, infix_append_iff_of_head?, List.reverse_infix]
  intro c first member
  rw [List.head?_reverse] at first
  exact absent c first (List.mem_reverse.1 member)

theorem after?_append
    (apart : ∀ c ∈ back.head?, c ∉ mark) (text : Text) :
    after? mark (text ++ back) = (after? mark text).map (· ++ back) := by
  induction mark generalizing text with
  | nil => simp [after?]
  | cons s mark inductionHypothesis =>
      cases text with
      | nil =>
          cases back with
          | nil => simp [after?]
          | cons c back =>
              have other : c ∉ s :: mark := apart c rfl
              rw [List.mem_cons, not_or] at other
              simp [after?, Ne.symm other.1]
      | cons d text =>
          have apartRest : ∀ c ∈ back.head?, c ∉ mark := fun c first member =>
            apart c first (List.mem_cons_of_mem s member)
          rw [List.cons_append, after?, after?]
          split
          · exact inductionHypothesis apartRest text
          · rfl

end Upkeep
