import Upkeep.Proofs.Source.Reader
import Upkeep.Proofs.Text.Name
import Upkeep.Source.Directive
import Upkeep.Source.Scan

/-!
The blanks around a line.  Neither its kind nor what it passes on to the next line depends on
them, and the code portion of a line has at most these blanks around what it has without them.
-/

namespace Upkeep

open Unicode

variable {line blanks : Text}

/-- A character that is not blank does not come from the blanks behind a text. -/
theorem exists_eq_cons_of_append_blanks
    {front tail : Text} {d : Char}
    (blank : ∀ c ∈ blanks, isBlank c = true)
    (solid : isBlank d = false)
    (starts : front ++ blanks = d :: tail) :
    ∃ rest, front = d :: rest := by
  cases front with
  | nil =>
      have member : d ∈ blanks := by simp [show blanks = d :: tail from starts]
      exact absurd rfl (ne_of_isBlank (blank d member) solid)
  | cons c rest => exact ⟨rest, by rw [(List.cons.inj starts).1]⟩

theorem isQuote_eq_false_of_isBlank {c : Char} (blank : isBlank c = true) : isQuote c = false := by
  have double : c ≠ '"' := ne_of_isBlank blank (by decide)
  have single : c ≠ '\'' := ne_of_isBlank blank (by decide)
  simp [isQuote, double, single]

/-- Outside literals a blank changes nothing. -/
theorem commentOpenAfter_cons_of_isBlank
    {c : Char} {state : LineState}
    (blank : isBlank c = true)
    (outside : ∀ quote, state ≠ .literal quote) (rest : Text) :
    commentOpenAfter state (c :: rest) = commentOpenAfter state rest := by
  cases state with
  | literal quote => exact absurd rfl (outside quote)
  | code =>
      rw [commentOpenAfter, isQuote_eq_false_of_isBlank blank, if_neg (by simp)]
      · intro tail isSlash
        exact absurd isSlash (ne_of_isBlank blank (by decide))
      · intro tail isSlash
        exact absurd isSlash (ne_of_isBlank blank (by decide))
  | blockComment =>
      rw [commentOpenAfter]
      intro tail isStar
      exact absurd isStar (ne_of_isBlank blank (by decide))

theorem commentOpenAfter_of_isBlank
    (blank : ∀ c ∈ blanks, isBlank c = true) (state : LineState) :
    commentOpenAfter state blanks = (state == .blockComment) := by
  induction blanks generalizing state with
  | nil => cases state <;> rfl
  | cons c rest inductionHypothesis =>
      rw [List.forall_mem_cons] at blank
      have next := inductionHypothesis blank.2
      cases state with
      | code => rw [commentOpenAfter_cons_of_isBlank blank.1 (by simp), next]
      | blockComment => rw [commentOpenAfter_cons_of_isBlank blank.1 (by simp), next]
      | literal quote =>
          rw [commentOpenAfter, next]
          · split <;> rfl
          · intro isBackslash
            exact absurd isBackslash (ne_of_isBlank blank.1 (by decide))
          · intro d tail isBackslash
            exact absurd isBackslash (ne_of_isBlank blank.1 (by decide))

theorem commentOpenAfter_append_blanks
    (blank : ∀ c ∈ blanks, isBlank c = true) (state : LineState) (line : Text) :
    commentOpenAfter state (line ++ blanks) = commentOpenAfter state line := by
  fun_induction commentOpenAfter state line with
  | case1 state => exact commentOpenAfter_of_isBlank blank state
  | case2 rest inductionHypothesis => simpa [commentOpenAfter] using inductionHypothesis
  | case3 c rest noCloser inductionHypothesis =>
      rw [List.cons_append, commentOpenAfter, inductionHypothesis]
      intro tail isStar starts
      obtain ⟨more, rfl⟩ := exists_eq_cons_of_append_blanks blank (by decide) starts
      exact noCloser more isStar rfl
  | case4 quote =>
      cases blanks with
      | nil => rfl
      | cons c rest =>
          rw [List.forall_mem_cons] at blank
          rw [List.cons_append, List.nil_append, commentOpenAfter,
            commentOpenAfter_of_isBlank blank.2]
          rfl
  | case5 quote c rest inductionHypothesis =>
      simpa [commentOpenAfter] using inductionHypothesis
  | case6 quote c rest notLast notEscape inductionHypothesis =>
      have plain := ne_backslash notLast notEscape
      rw [List.cons_append, commentOpenAfter, inductionHypothesis]
      · exact fun isBackslash _ => plain isBackslash
      · exact fun _ _ isBackslash _ => plain isBackslash
  | case7 rest => simp [commentOpenAfter]
  | case8 rest inductionHypothesis => simpa [commentOpenAfter] using inductionHypothesis
  | case9 c rest noLine noBlock inductionHypothesis =>
      rw [List.cons_append, commentOpenAfter, inductionHypothesis]
      · intro tail isSlash starts
        obtain ⟨more, rfl⟩ := exists_eq_cons_of_append_blanks blank (by decide) starts
        exact noLine more isSlash rfl
      · intro tail isSlash starts
        obtain ⟨more, rfl⟩ := exists_eq_cons_of_append_blanks blank (by decide) starts
        exact noBlock more isSlash rfl

theorem commentOpenAfter_append_of_isBlank
    {lead : Text} {state : LineState}
    (blank : ∀ c ∈ lead, isBlank c = true)
    (outside : ∀ quote, state ≠ .literal quote) (line : Text) :
    commentOpenAfter state (lead ++ line) = commentOpenAfter state line := by
  induction lead with
  | nil => rfl
  | cons c lead inductionHypothesis =>
      rw [List.forall_mem_cons] at blank
      rw [List.cons_append, commentOpenAfter_cons_of_isBlank blank.1 outside,
        inductionHypothesis blank.2]

theorem commentOpenAfter_trim
    {state : LineState}
    (outside : ∀ quote, state ≠ .literal quote) (line : Text) :
    commentOpenAfter state (trim line) = commentOpenAfter state line := by
  obtain ⟨front, back, split, blankFront, blankBack⟩ := exists_append_trim line
  conv => rhs; rw [split]
  rw [commentOpenAfter_append_of_isBlank blankFront outside,
    commentOpenAfter_append_blanks blankBack]

theorem endsInBackslash_trim (line : Text) :
    endsInBackslash (trim line) = endsInBackslash line := by
  rw [endsInBackslash, endsInBackslash, ← getLast?_trim, trim_trim, getLast?_trim]

theorem startsComment_trim_iff : StartsComment (trim line) ↔ StartsComment line := by
  have slash : ∀ c ∈ "//".toList, isBlank c = false := isBlank_eq_false_of_all (by decide)
  have star : ∀ c ∈ "/*".toList, isBlank c = false := isBlank_eq_false_of_all (by decide)
  rw [StartsComment, StartsComment, trimStart_trim, trim, isPrefix_trimEnd_iff slash,
    isPrefix_trimEnd_iff star]

theorem kindByStart_trim (line : Text) : kindByStart (trim line) = kindByStart line := by
  by_cases starts : StartsComment line
  · rw [kindByStart_of_startsComment starts,
      kindByStart_of_startsComment (startsComment_trim_iff.2 starts)]
  · have plain : ¬ StartsComment (trim line) := startsComment_trim_iff.not.2 starts
    rw [kindByStart_of_not_startsComment starts, kindByStart_of_not_startsComment plain,
      trim_eq_trimStart, trimStart_trimStart, head?_trimStart_trimEnd]

theorem Carry.kind_trim (carry : Carry) (line : Text) :
    carry.kind (trim line) = carry.kind line := by
  rw [kind, kind, kindByStart_trim]

theorem Carry.after_trim (carry : Carry) (line : Text) :
    carry.after (trim line) = carry.after line := by
  have outside : ∀ quote, (if carry.inComment then LineState.blockComment else .code) ≠
      .literal quote := by
    intro quote
    split <;> simp
  rw [after, after, commentOpenAfter_trim outside, endsInBackslash_trim]

theorem classifyFrom_map_trim (carry : Carry) (sourceLines : List Text) :
    classifyFrom carry (sourceLines.map trim) = classifyFrom carry sourceLines := by
  induction sourceLines generalizing carry with
  | nil => rfl
  | cons line rest inductionHypothesis =>
      rw [List.map_cons, classifyFrom, classifyFrom, Carry.kind_trim, Carry.after_trim,
        inductionHypothesis]

theorem classify_map_trim (sourceLines : List Text) :
    classify (sourceLines.map trim) = classify sourceLines :=
  classifyFrom_map_trim .none sourceLines

theorem codeFrom_cons_of_isBlank
    {c : Char}
    (blank : isBlank c = true) (rest : Text) :
    codeFrom none (c :: rest) = c :: codeFrom none rest := by
  rw [codeFrom, isQuote_eq_false_of_isBlank blank, if_neg (by simp)]
  intro tail isSlash
  exact absurd isSlash (ne_of_isBlank blank (by decide))

theorem codeFrom_of_isBlank
    (blank : ∀ c ∈ blanks, isBlank c = true) (quote : Option Char) :
    codeFrom quote blanks = blanks := by
  induction blanks generalizing quote with
  | nil => cases quote <;> rfl
  | cons c rest inductionHypothesis =>
      rw [List.forall_mem_cons] at blank
      cases quote with
      | none => rw [codeFrom_cons_of_isBlank blank.1, inductionHypothesis blank.2]
      | some quote =>
          rw [codeFrom, inductionHypothesis blank.2]
          · intro isBackslash
            exact absurd isBackslash (ne_of_isBlank blank.1 (by decide))
          · intro d tail isBackslash
            exact absurd isBackslash (ne_of_isBlank blank.1 (by decide))

/-- Blanks behind a line belong to its code unless a comment ends the code. -/
theorem codeFrom_append_blanks
    (blank : ∀ c ∈ blanks, isBlank c = true) (quote : Option Char) (line : Text) :
    codeFrom quote (line ++ blanks) =
      if codeFrom quote line = line then line ++ blanks else codeFrom quote line := by
  fun_induction codeFrom quote line with
  | case1 quote => simpa using codeFrom_of_isBlank blank quote
  | case2 quote =>
      rw [if_pos rfl]
      cases blanks with
      | nil => rfl
      | cons c rest =>
          rw [List.forall_mem_cons] at blank
          rw [List.cons_append, List.nil_append, codeFrom, codeFrom_of_isBlank blank.2]
  | case3 quote c rest inductionHypothesis =>
      simp only [List.cons_append, codeFrom, inductionHypothesis, List.cons.injEq, true_and]
      split <;> rfl
  | case4 quote c rest notLast notEscape inductionHypothesis =>
      have plain := ne_backslash notLast notEscape
      rw [List.cons_append, codeFrom, inductionHypothesis]
      · simp only [List.cons.injEq, true_and]
        exact apply_ite (c :: ·) _ _ _
      · exact fun isBackslash _ => plain isBackslash
      · exact fun _ _ isBackslash _ => plain isBackslash
  | case5 rest => simp [codeFrom]
  | case6 c rest noComment inductionHypothesis =>
      rw [List.cons_append, codeFrom, inductionHypothesis]
      · simp only [List.cons.injEq, true_and]
        exact apply_ite (c :: ·) _ _ _
      · intro tail isSlash starts
        obtain ⟨more, rfl⟩ := exists_eq_cons_of_append_blanks blank (by decide) starts
        exact noComment more isSlash rfl

theorem codeOf_append_of_isBlank
    {lead : Text}
    (blank : ∀ c ∈ lead, isBlank c = true) (line : Text) :
    codeOf (lead ++ line) = lead ++ codeOf line :=
  codeOf_append_of_forall (fun c member =>
    ⟨isQuote_eq_false_of_isBlank (blank c member), ne_of_isBlank (blank c member) (by decide)⟩) line

theorem trimStart_codeOf (line : Text) : trimStart (codeOf line) = codeOf (trimStart line) := by
  have blank : ∀ c ∈ line.takeWhile isBlank, isBlank c = true :=
    List.all_eq_true.1 List.all_takeWhile
  have split : line.takeWhile isBlank ++ trimStart line = line := List.takeWhile_append_dropWhile
  conv => lhs; rw [← split]
  rw [codeOf_append_of_isBlank blank, trimStart, List.dropWhile_append_of_pos blank]
  cases code : codeOf (trimStart line) with
  | nil => rfl
  | cons c rest =>
      obtain ⟨hidden, whole⟩ := codeFrom_isPrefix none (trimStart line)
      rw [← codeOf, code, List.cons_append] at whole
      have solid := isBlank_eq_false_of_trimStart_cons whole.symm
      rw [List.dropWhile_cons_of_neg (by simp [solid])]

/-- The blanks around a line stay around its code portion, unless a comment ends it. -/
theorem codeOf_eq (line : Text) :
    ∃ front back, line = front ++ (trim line ++ back) ∧
      (∀ c ∈ front, isBlank c = true) ∧ (∀ c ∈ back, isBlank c = true) ∧
      codeOf line = front ++
        if codeOf (trim line) = trim line then trim line ++ back else codeOf (trim line) := by
  obtain ⟨front, back, whole, blankFront, blankBack⟩ := exists_append_trim line
  refine ⟨front, back, whole, blankFront, blankBack, ?_⟩
  conv => lhs; rw [whole]
  rw [codeOf_append_of_isBlank blankFront]
  congr 1
  exact codeFrom_append_blanks blankBack none (trim line)

theorem codeOf_eq_self_iff : codeOf line = line ↔ codeOf (trim line) = trim line := by
  obtain ⟨front, back, whole, blankFront, blankBack, code⟩ := codeOf_eq line
  constructor
  · intro same
    by_contra commented
    rw [if_neg commented, same] at code
    conv at code => lhs; rw [whole]
    have long : trim line ++ back = codeOf (trim line) := List.append_cancel_left code
    have short : codeOf (trim line) <+: trim line := codeFrom_isPrefix none (trim line)
    refine commented (short.eq_of_length_le ?_)
    rw [← long, List.length_append]
    omega
  · intro same
    rw [code, if_pos same, ← whole]

theorem trim_codeOf_trim (line : Text) : trim (codeOf (trim line)) = trim (codeOf line) := by
  obtain ⟨front, back, whole, blankFront, blankBack, code⟩ := codeOf_eq line
  by_cases same : codeOf (trim line) = trim line
  · rw [codeOf_eq_self_iff.2 same, same, trim_trim]
  · rw [if_neg same] at code
    have bare := trim_append_append_of_isBlank blankFront (by simp : ∀ c ∈ [], isBlank c = true)
      (codeOf (trim line))
    rw [code, ← bare, List.append_nil]

/-- Where a comment ends the code of a line, only blanks in front of it are trimmed. -/
theorem trimStart_codeOf_of_ne
    (commented : codeOf line ≠ line) :
    trimStart (codeOf line) = trimStart (codeOf (trim line)) := by
  obtain ⟨front, back, whole, blankFront, blankBack, code⟩ := codeOf_eq line
  rw [if_neg (codeOf_eq_self_iff.not.1 commented)] at code
  rw [code, trimStart_append_of_isBlank blankFront]

end Upkeep
