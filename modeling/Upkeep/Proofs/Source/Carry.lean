import Mathlib.Data.List.Basic
import Upkeep.Source.LineKind

/-!
The kind of a line depends on the lines before it through what they pass on and on nothing
else.  Only where they pass on nothing can a line be a directive or code.
-/

namespace Upkeep

/-- A character of a literal that is read as itself is no backslash. -/
theorem ne_backslash
    {c : Char} {rest : Text}
    (notLast : c = '\\' → rest = [] → False)
    (notEscape : ∀ d more, c = '\\' → rest = d :: more → False) :
    c ≠ '\\' := by
  intro isBackslash
  cases rest with
  | nil => exact notLast isBackslash rfl
  | cons d more => exact notEscape d more isBackslash rfl

theorem endsInBackslash_append
    {back : Text}
    (visible : trimEnd back ≠ []) (front : Text) :
    endsInBackslash (front ++ back) = endsInBackslash back := by
  have trimmed : trimEnd (front ++ back) = front ++ trimEnd back :=
    dropEnd_append_of_ne_nil visible front
  rw [endsInBackslash, trimmed, List.getLast?_append_of_ne_nil _ visible, endsInBackslash]

/-- Whether the first characters of a line that are not blank open a comment. -/
def StartsComment (line : Text) : Prop :=
  "//".toList <+: trimStart line ∨ "/*".toList <+: trimStart line

instance (line : Text) : Decidable (StartsComment line) :=
  inferInstanceAs (Decidable (_ ∨ _))

/-- The kind of a line that does not start with a comment, by its first character that is not
blank. -/
def plainKind : Option Char → LineKind
  | none => .blank
  | some c => if c = '#' then .preprocessor else .code

theorem kindByStart_of_startsComment
    {line : Text}
    (starts : StartsComment line) :
    kindByStart line = .comment := by
  unfold kindByStart
  rcases starts with ⟨rest, same⟩ | ⟨rest, same⟩
  · rw [← same]
    rfl
  · rw [← same]
    rfl

theorem kindByStart_of_not_startsComment
    {line : Text}
    (plain : ¬ StartsComment line) :
    kindByStart line = plainKind (trimStart line).head? := by
  unfold kindByStart
  split
  next empty => rw [empty]; rfl
  next rest starts => exact absurd (.inl ⟨rest, starts.symm⟩) plain
  next rest starts => exact absurd (.inr ⟨rest, starts.symm⟩) plain
  next rest starts => rw [starts]; rfl
  next other notEmpty _ _ notDirective =>
    cases trimmed : trimStart line with
    | nil => exact absurd trimmed notEmpty
    | cons c rest =>
        have notSign : c ≠ '#' := by
          rintro rfl
          exact notDirective rest trimmed
        simp [plainKind, notSign]

theorem plainKind_ne_comment (first : Option Char) : plainKind first ≠ .comment := by
  unfold plainKind
  split
  · simp
  · split <;> simp

theorem kindByStart_eq_comment_iff {line : Text} :
    kindByStart line = .comment ↔ StartsComment line := by
  by_cases starts : StartsComment line
  · simp [kindByStart_of_startsComment starts, starts]
  · simp [kindByStart_of_not_startsComment starts, plainKind_ne_comment, starts]

theorem kindByStart_of_trimStart
    {line rest : Text} {c : Char}
    (starts : trimStart line = c :: rest)
    (notSlash : c ≠ '/') :
    kindByStart line = if c = '#' then .preprocessor else .code := by
  unfold kindByStart
  rw [starts]
  split <;> simp_all

theorem kindByStart_ne_continuation (line : Text) : kindByStart line ≠ .continuation := by
  unfold kindByStart
  split <;> simp

namespace Carry

variable {carry : Carry} {line : Text}

/-- What a row of lines passes on. -/
def afterAll (carry : Carry) (sourceLines : List Text) : Carry :=
  sourceLines.foldl after carry

@[simp]
theorem afterAll_nil (carry : Carry) : carry.afterAll [] = carry :=
  rfl

@[simp]
theorem afterAll_cons (carry : Carry) (line : Text) (rest : List Text) :
    carry.afterAll (line :: rest) = (carry.after line).afterAll rest :=
  rfl

@[simp]
theorem afterAll_append (carry : Carry) (first second : List Text) :
    carry.afterAll (first ++ second) = (carry.afterAll first).afterAll second :=
  List.foldl_append

/-- No line is both inside a comment and the continuation of another one. -/
theorem continued_afterAll_of_inComment
    {sourceLines : List Text}
    (inside : (none.afterAll sourceLines).inComment = true) :
    (none.afterAll sourceLines).continued = false := by
  rcases List.eq_nil_or_concat sourceLines with rfl | ⟨front, last, rfl⟩
  · rfl
  · rw [List.concat_eq_append, afterAll_append, afterAll_cons, afterAll_nil] at inside ⊢
    simp only [after] at inside ⊢
    simp [inside]

theorem kind_of_inComment
    (inside : carry.inComment = true)
    (alone : carry.continued = false) (line : Text) :
    carry.kind line = .comment := by
  simp [kind, inside, alone]

/-- A line that is neither a comment nor a continuation has nothing left open before it. -/
theorem eq_none_of_kind
    (noComment : carry.kind line ≠ .comment)
    (noContinuation : carry.kind line ≠ .continuation) :
    carry = none := by
  unfold kind at noComment noContinuation
  split at noComment
  next continued => simp [continued] at noContinuation
  next alone =>
    split at noComment
    · exact absurd rfl noComment
    next outside =>
      obtain ⟨inComment, continued⟩ := carry
      simp only [Bool.not_eq_true] at alone outside
      rw [alone, outside]
      rfl

/-- Such a line has the kind that its start gives it. -/
theorem start_of_kind
    {lineKind : LineKind}
    (isKind : carry.kind line = lineKind)
    (noComment : lineKind ≠ .comment)
    (noContinuation : lineKind ≠ .continuation) :
    carry = none ∧ kindByStart line = lineKind := by
  subst isKind
  obtain rfl := eq_none_of_kind noComment noContinuation
  exact ⟨rfl, rfl⟩

end Carry

theorem classifyFrom_append (carry : Carry) (first second : List Text) :
    classifyFrom carry (first ++ second) =
      classifyFrom carry first ++ classifyFrom (carry.afterAll first) second := by
  induction first generalizing carry with
  | nil => rfl
  | cons line rest inductionHypothesis =>
      rw [List.cons_append, classifyFrom, inductionHypothesis, classifyFrom, List.cons_append,
        Carry.afterAll_cons]

/-- The kind of a line is the one that it has after the lines before it. -/
theorem getElem?_classifyFrom (carry : Carry) (sourceLines : List Text) (number : Nat) :
    (classifyFrom carry sourceLines)[number]? =
      sourceLines[number]?.map (carry.afterAll (sourceLines.take number)).kind := by
  induction sourceLines generalizing carry number with
  | nil => rfl
  | cons line rest inductionHypothesis =>
      cases number with
      | zero => rfl
      | succ number =>
          rw [classifyFrom, List.getElem?_cons_succ, List.getElem?_cons_succ, List.take_succ_cons,
            Carry.afterAll_cons, inductionHypothesis]

theorem kind_of_classify_append
    {front back : List Text} {line : Text} {lineKind : LineKind}
    (isKind : (classify (front ++ line :: back))[front.length]? = some lineKind) :
    (Carry.none.afterAll front).kind line = lineKind := by
  have here : (front ++ line :: back)[front.length]? = some line := by simp
  rw [classify, getElem?_classifyFrom, here, List.take_left, Option.map_some,
    Option.some.injEq] at isKind
  exact isKind

end Upkeep
