import Upkeep.Check.License
import Upkeep.Proofs.Source.Trim
import Upkeep.Proofs.Text.Occurrence
import Upkeep.Text.Cut

/-!
The license header, line by line.  The marks of a comment stand within one line each, and so
does a marker without newlines and returns, so that it is enough to look at the pieces of the
lines that the comment is made of.
-/

namespace Upkeep

open Unicode

variable {part mark front back blanks : Text}

theorem before?_append
    (solid : mark ≠ [])
    (apart : ∀ c ∈ back.head?, c ∉ mark) (front : Text) :
    before? mark (front ++ back) =
      (before? mark front).or ((before? mark back).map (front ++ ·)) := by
  induction front with
  | nil =>
      cases back <;> simp [before?, solid]
  | cons d front inductionHypothesis =>
      have started : mark.isPrefixOf (d :: (front ++ back)) = mark.isPrefixOf (d :: front) := by
        rw [Bool.eq_iff_iff, List.isPrefixOf_iff_prefix, List.isPrefixOf_iff_prefix,
          ← List.cons_append, isPrefix_append_iff apart]
      rw [List.cons_append, before?, before?, started, inductionHypothesis]
      split
      · rfl
      · rw [Option.map_or, Option.map_map]
        rfl

theorem before?_append_of_notMem
    (solid : mark ≠ [])
    (absent : ∀ c ∈ front, c ∉ mark) (back : Text) :
    before? mark (front ++ back) = (before? mark back).map (front ++ ·) := by
  induction front with
  | nil => simp
  | cons c front inductionHypothesis =>
      rw [List.forall_mem_cons] at absent
      have unread : mark.isPrefixOf (c :: (front ++ back)) = false := by
        cases mark with
        | nil => exact absurd rfl solid
        | cons s mark =>
            rw [List.mem_cons, not_or] at absent
            simp [List.isPrefixOf, Ne.symm absent.1.1]
      rw [List.cons_append, before?, unread, inductionHypothesis absent.2, Option.map_map]
      rfl

theorem before?_eq_none_of_isBlank
    (blank : ∀ c ∈ blanks, isBlank c = true) :
    before? ['*', '/'] blanks = none := by
  have absent : ∀ c ∈ blanks, c ∉ ['*', '/'] := by
    intro c member
    simp [ne_of_isBlank (blank c member) (show isBlank '*' = false by decide),
      ne_of_isBlank (blank c member) (show isBlank '/' = false by decide)]
  have whole := before?_append_of_notMem (by decide) absent []
  rw [List.append_nil] at whole
  rw [whole]
  rfl

/-- What a comment holds of the lines it is made of, the first of which begins inside it. -/
def commentPieces? : List Text → Option (List Text)
  | [] => none
  | line :: rest =>
      match before? ['*', '/'] line with
      | some piece => some [piece]
      | none => (commentPieces? rest).map (line :: ·)

/-- The pieces of the comment that opens a row of lines. -/
def leadingPieces? : List Text → Option (List Text)
  | [] => none
  | line :: rest =>
      if trimStart line = [] then leadingPieces? rest
      else (after? ['/', '*'] (trimStart line)).bind fun inside => commentPieces? (inside :: rest)

theorem commentPieces?_append_of_isBlank
    {tail : List Text}
    (blank : ∀ line ∈ tail, ∀ c ∈ line, isBlank c = true) (sourceLines : List Text) :
    commentPieces? (sourceLines ++ tail) = commentPieces? sourceLines := by
  induction sourceLines with
  | nil =>
      induction tail with
      | nil => rfl
      | cons line tail inductionHypothesis =>
          rw [List.forall_mem_cons] at blank
          rw [List.nil_append] at inductionHypothesis ⊢
          conv => lhs; rw [commentPieces?, before?_eq_none_of_isBlank blank.1]
          rw [inductionHypothesis blank.2]
          rfl
  | cons line rest inductionHypothesis =>
      rw [List.cons_append, commentPieces?, commentPieces?, inductionHypothesis]

theorem leadingPieces?_append_of_isBlank
    {tail : List Text}
    (blank : ∀ line ∈ tail, ∀ c ∈ line, isBlank c = true) (sourceLines : List Text) :
    leadingPieces? (sourceLines ++ tail) = leadingPieces? sourceLines := by
  induction sourceLines with
  | nil =>
      induction tail with
      | nil => rfl
      | cons line tail inductionHypothesis =>
          rw [List.forall_mem_cons] at blank
          rw [List.nil_append] at inductionHypothesis ⊢
          have empty : trimStart line = [] := List.dropWhile_eq_nil_iff.2 blank.1
          conv => lhs; rw [leadingPieces?, if_pos empty]
          exact inductionHypothesis blank.2
  | cons line rest inductionHypothesis =>
      have inside : ∀ text,
          commentPieces? (text :: (rest ++ tail)) = commentPieces? (text :: rest) :=
        fun text => commentPieces?_append_of_isBlank blank (text :: rest)
      rw [List.cons_append, leadingPieces?, leadingPieces?, inductionHypothesis]
      simp only [inside]

section

variable {marker : Text} {terminator : Terminator} {rest segments : List Segment}

theorem eq_newline_or_return_of_mem_terminator
    {c : Char}
    (member : c ∈ terminator.text) :
    c = '\n' ∨ c = '\r' := by
  cases terminator <;> simp [Terminator.text] at member
  · exact .inl member
  · exact member.symm

/-- What follows a line in a text begins with the end of the line. -/
theorem head?_terminator_append
    (last : terminator = .endOfText → back = [])
    {c : Char}
    (first : c ∈ (terminator.text ++ back).head?) :
    c = '\n' ∨ c = '\r' := by
  cases terminator with
  | newline => simpa [Terminator.text, eq_comm] using Or.inl first
  | returnNewline => simpa [Terminator.text, eq_comm] using Or.inr first
  | endOfText =>
      rw [last rfl] at first
      simp [Terminator.text] at first

theorem join_cons (segment : Segment) (rest : List Segment) :
    join (segment :: rest) = segment.body ++ (segment.terminator.text ++ join rest) := by
  rw [join, List.flatMap_cons, Segment.text, List.append_assoc, join]

theorem map_occursIn_before?
    (noNewline : '\n' ∉ marker)
    (noReturn : '\r' ∉ marker)
    (isCut : IsCut rest)
    (last : terminator = .endOfText → rest = []) (line : Text) :
    (before? ['*', '/'] (line ++ (terminator.text ++ join rest))).map (occursIn marker) =
      (commentPieces? (line :: rest.map Segment.body)).map (·.any (occursIn marker)) := by
  have absent : ∀ c : Char, c = '\n' ∨ c = '\r' → c ∉ ['*', '/'] ∧ c ∉ marker := by
    rintro c (rfl | rfl)
    · exact ⟨by decide, noNewline⟩
    · exact ⟨by decide, noReturn⟩
  induction rest generalizing line terminator with
  | nil =>
      have apart : ∀ c ∈ (terminator.text ++ []).head?, c ∉ ['*', '/'] := fun c first =>
        (absent c (head?_terminator_append (fun _ => rfl) first)).1
      have none_ : before? ['*', '/'] (terminator.text ++ []) = none :=
        before?_append_of_notMem (by decide)
          (fun c member => (absent c (eq_newline_or_return_of_mem_terminator member)).1) []
      have empty : join [] = [] := rfl
      rw [empty, before?_append (by decide) apart, none_, Option.map_none, Option.or_none,
        List.map_nil, commentPieces?, commentPieces?]
      cases before? ['*', '/'] line <;> simp
  | cons segment rest inductionHypothesis =>
      have ended : ∀ back : Text, ∀ c ∈ (terminator.text ++ back).head?, c = '\n' ∨ c = '\r' :=
        fun back c first => head?_terminator_append
          (fun open_ => absurd (last open_) (List.cons_ne_nil segment rest)) first
      have later := inductionHypothesis isCut.2.2 isCut.2.1 segment.body
      rw [← join_cons] at later
      rw [before?_append (by decide) (fun c first => (absent c (ended _ c first)).1),
        before?_append_of_notMem (by decide)
          (fun c member => (absent c (eq_newline_or_return_of_mem_terminator member)).1),
        List.map_cons, commentPieces?]
      cases before? ['*', '/'] line with
      | some piece => simp
      | none =>
          have split : ∀ text, occursIn marker (line ++ (terminator.text ++ text)) =
              (occursIn marker line || occursIn marker text) := by
            intro text
            have behind : occursIn marker (terminator.text ++ text) = occursIn marker text := by
              rw [Bool.eq_iff_iff, occursIn_iff, occursIn_iff, infix_append_iff_of_head?]
              exact fun c first member =>
                (absent c (eq_newline_or_return_of_mem_terminator member)).2
                  (List.mem_of_mem_head? first)
            rw [occursIn_append fun c first => (absent c (ended text c first)).2, behind]
          have first : (fun text => occursIn marker (line ++ (terminator.text ++ text))) =
              (occursIn marker line || ·) ∘ occursIn marker := funext split
          rw [Option.none_or, Option.map_map, Option.map_map]
          change Option.map (fun text => occursIn marker (line ++ (terminator.text ++ text))) _ = _
          rw [first, ← Option.map_map, later, Option.map_map, Option.map_map]
          rfl

theorem leadingComment?_append_of_isBlank
    (blank : ∀ c ∈ blanks, isBlank c = true) (text : Text) :
    leadingComment? (blanks ++ text) = leadingComment? text := by
  rw [leadingComment?, trimStart_append_of_isBlank blank, leadingComment?]

theorem map_occursIn_leadingComment?
    (noNewline : '\n' ∉ marker)
    (noReturn : '\r' ∉ marker)
    (isCut : IsCut segments) :
    (leadingComment? (join segments)).map (occursIn marker) =
      (leadingPieces? (segments.map Segment.body)).map (·.any (occursIn marker)) := by
  induction segments with
  | nil => simp [join, leadingComment?, after?, leadingPieces?]
  | cons segment rest inductionHypothesis =>
      rw [join_cons, List.map_cons, leadingPieces?]
      by_cases empty : trimStart segment.body = []
      · have blankBody : ∀ c ∈ segment.body, isBlank c = true := List.dropWhile_eq_nil_iff.1 empty
        have blankEnd : ∀ c ∈ segment.terminator.text, isBlank c = true := by
          intro c member
          rcases eq_newline_or_return_of_mem_terminator member with rfl | rfl <;> decide
        rw [leadingComment?_append_of_isBlank blankBody, leadingComment?_append_of_isBlank blankEnd,
          if_pos empty, inductionHypothesis isCut.2.2]
      · have apart : ∀ c ∈ (segment.terminator.text ++ join rest).head?, c ∉ ['/', '*'] := by
          intro c first
          have ended : segment.terminator = .endOfText → join rest = [] := by
            intro open_
            rw [isCut.2.1 open_]
            rfl
          rcases head?_terminator_append ended first with rfl | rfl <;> decide
        rw [leadingComment?, trimStart_append_of_ne_nil empty, after?_append apart, if_neg empty]
        cases after? ['/', '*'] (trimStart segment.body) with
        | none => rfl
        | some inside => exact map_occursIn_before? noNewline noReturn isCut.2.2 isCut.2.1 inside

/-- A marker that stands within one line is looked for line by line. -/
theorem hasLicense_eq
    (noNewline : '\n' ∉ marker)
    (noReturn : '\r' ∉ marker) (content : Text) :
    hasLicense marker content =
      ((leadingPieces? (lines content)).map (·.any (occursIn marker))).getD false := by
  rw [lines_eq_map_body, ← map_occursIn_leadingComment? noNewline noReturn (isCut_cut content),
    join_cut, hasLicense]
  cases leadingComment? content <;> rfl

end

end Upkeep
