import Upkeep.Source.LineKind

/-!
The code portion of a line: what stands before the first `//` outside literals.
Block comments are not looked at here; a line inside one is never code.
-/

namespace Upkeep

/-- The part of a line before a `//` that no literal hides, for a reader that
may already be inside a literal. -/
def codeFrom : Option Char → Text → Text
  | _, [] => []
  | some _, ['\\'] => ['\\']
  | some quote, '\\' :: c :: rest => '\\' :: c :: codeFrom (some quote) rest
  | some quote, c :: rest => c :: codeFrom (if c = quote then none else some quote) rest
  | none, '/' :: '/' :: _ => []
  | none, c :: rest => c :: codeFrom (if isQuote c then some c else none) rest

/-- The code portion of a line. -/
def codeOf (line : Text) : Text :=
  codeFrom none line

/-- The code portion is a start of the line. -/
theorem codeFrom_isPrefix (quote : Option Char) (line : Text) : codeFrom quote line <+: line := by
  induction quote, line using codeFrom.induct with
  | case1 => simp [codeFrom]
  | case2 => simp [codeFrom]
  | case3 quote c rest inductionHypothesis => simpa [codeFrom] using inductionHypothesis
  | case4 quote c rest _ _ inductionHypothesis =>
      rw [codeFrom] <;> simp_all
  | case5 => simp [codeFrom]
  | case6 c rest _ inductionHypothesis =>
      rw [codeFrom] <;> simp_all

/-- Characters that open neither a literal nor a comment belong to the code. -/
theorem codeOf_append_of_forall
    {front : Text}
    (quiet : ∀ c ∈ front, isQuote c = false ∧ c ≠ '/') (back : Text) :
    codeOf (front ++ back) = front ++ codeOf back := by
  induction front with
  | nil => rfl
  | cons c front inductionHypothesis =>
      rw [List.forall_mem_cons] at quiet
      rw [List.cons_append, codeOf, codeFrom, if_neg (by simp [quiet.1.1])]
      · exact congrArg (c :: ·) (inductionHypothesis quiet.2)
      · intro tail isSlash
        exact absurd isSlash quiet.1.2

end Upkeep
