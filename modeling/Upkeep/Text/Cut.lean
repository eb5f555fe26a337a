import Upkeep.Text.Line

/-!
How cutting and joining fit together.  The segments that cutting produces are
proper, joining proper segments and cutting again gives them back, and the lines
of a text are the bodies of its segments.
-/

namespace Upkeep

/-- What a segment of a text can be: the body has no newline, a return is not left
in front of a newline, and a line that is open at the end is not empty. -/
def Segment.Proper (segment : Segment) : Prop :=
  '\n' ∉ segment.body ∧
    match segment.terminator with
    | .newline => segment.body.getLast? ≠ some '\r'
    | .returnNewline => True
    | .endOfText => segment.body ≠ []

/-- Proper segments, of which only the last may be open at the end. -/
def IsCut : List Segment → Prop
  | [] => True
  | segment :: rest =>
      segment.Proper ∧ (segment.terminator = .endOfText → rest = []) ∧ IsCut rest

theorem cut_newline (rest : Text) : cut ('\n' :: rest) = ⟨[], .newline⟩ :: cut rest := by
  simp [cut]

theorem cut_returnNewline (rest : Text) :
    cut ('\r' :: '\n' :: rest) = ⟨[], .returnNewline⟩ :: cut rest := by
  simp [cut]

theorem cut_cons
    {c : Char} {rest : Text}
    (notNewline : c ≠ '\n')
    (notReturn : c = '\r' → rest.head? ≠ some '\n') :
    cut (c :: rest) =
      match cut rest with
      | [] => [⟨[c], .endOfText⟩]
      | segment :: segments => ⟨c :: segment.body, segment.terminator⟩ :: segments := by
  rw [cut.eq_def]
  split
  next same => cases same
  next same => exact absurd (List.cons.inj same).1 notNewline
  next same =>
    obtain ⟨isReturn, rfl⟩ := List.cons.inj same
    exact absurd rfl (notReturn isReturn)
  next same =>
    obtain ⟨rfl, rfl⟩ := List.cons.inj same
    rfl

/-- A return that is not read together with a newline has none behind it. -/
theorem head?_ne_newline
    {c : Char} {rest : Text}
    (notReturn : ∀ tail, c = '\r' → rest = '\n' :: tail → False) :
    c = '\r' → rest.head? ≠ some '\n' := by
  intro isReturn starts
  obtain ⟨tail, begins⟩ := List.head?_eq_some_iff.1 starts
  exact notReturn tail isReturn begins

theorem cut_eq_nil_iff {text : Text} : cut text = [] ↔ text = [] := by
  constructor
  · intro empty
    have := join_cut text
    rwa [empty, join, List.flatMap_nil, eq_comm] at this
  · rintro rfl
    rfl

theorem cut_body_newline
    {body : Text}
    (noNewline : '\n' ∉ body)
    (noReturn : body.getLast? ≠ some '\r') (rest : Text) :
    cut (body ++ '\n' :: rest) = ⟨body, .newline⟩ :: cut rest := by
  induction body with
  | nil => exact cut_newline rest
  | cons c body inductionHypothesis =>
      simp only [List.mem_cons, not_or] at noNewline
      rw [List.cons_append, cut_cons (Ne.symm noNewline.1)]
      · rw [inductionHypothesis noNewline.2]
        intro last
        refine noReturn ?_
        cases body with
        | nil => simp at last
        | cons d body => simpa using last
      · rintro rfl
        cases body with
        | nil => simp at noReturn
        | cons d body => simp only [List.cons_append, List.head?_cons, ne_eq, Option.some.injEq]; grind

theorem cut_body_returnNewline
    {body : Text}
    (noNewline : '\n' ∉ body) (rest : Text) :
    cut (body ++ '\r' :: '\n' :: rest) = ⟨body, .returnNewline⟩ :: cut rest := by
  induction body with
  | nil => exact cut_returnNewline rest
  | cons c body inductionHypothesis =>
      simp only [List.mem_cons, not_or] at noNewline
      rw [List.cons_append, cut_cons (Ne.symm noNewline.1)]
      · rw [inductionHypothesis noNewline.2]
      · rintro rfl
        cases body with
        | nil => simp
        | cons d body => simp only [List.cons_append, List.head?_cons, ne_eq, Option.some.injEq]; grind

theorem cut_body
    {body : Text}
    (noNewline : '\n' ∉ body)
    (nonempty : body ≠ []) :
    cut body = [⟨body, .endOfText⟩] := by
  induction body with
  | nil => exact absurd rfl nonempty
  | cons c body inductionHypothesis =>
      simp only [List.mem_cons, not_or] at noNewline
      rw [cut_cons (Ne.symm noNewline.1)]
      · cases body with
        | nil => simp [cut]
        | cons d body => rw [inductionHypothesis noNewline.2 (by simp)]
      · rintro rfl
        cases body with
        | nil => simp
        | cons d body => simp only [List.head?_cons, ne_eq, Option.some.injEq]; grind

/-- Cutting undoes joining. -/
theorem cut_join
    {segments : List Segment}
    (isCut : IsCut segments) :
    cut (join segments) = segments := by
  induction segments with
  | nil => rfl
  | cons segment rest inductionHypothesis =>
      obtain ⟨⟨noNewline, ends⟩, last, restCut⟩ := isCut
      obtain ⟨body, terminator⟩ := segment
      have joined : join (⟨body, terminator⟩ :: rest) = body ++ (terminator.text ++ join rest) := by
        simp [join, Segment.text]
      rw [joined]
      cases terminator with
      | newline =>
          simpa [Terminator.text, inductionHypothesis restCut] using
            cut_body_newline noNewline ends (join rest)
      | returnNewline =>
          simpa [Terminator.text, inductionHypothesis restCut] using
            cut_body_returnNewline noNewline (join rest)
      | endOfText =>
          cases last rfl
          simpa [Terminator.text, join] using cut_body noNewline ends

/-- Cutting gives proper segments. -/
theorem isCut_cut (text : Text) : IsCut (cut text) := by
  induction text using cut.induct with
  | case1 => trivial
  | case2 rest inductionHypothesis =>
      rw [cut_newline]
      exact ⟨by simp [Segment.Proper], by simp, inductionHypothesis⟩
  | case3 rest inductionHypothesis =>
      rw [cut_returnNewline]
      exact ⟨by simp [Segment.Proper], by simp, inductionHypothesis⟩
  | case4 c rest notNewline notReturn empty inductionHypothesis =>
      rw [cut_eq_nil_iff] at empty
      subst empty
      rw [cut_cons notNewline (by simp)]
      exact ⟨⟨by simpa using Ne.symm notNewline, by simp⟩, by simp, trivial⟩
  | case5 c rest notNewline notReturn segment segments cuts inductionHypothesis =>
      have head := head?_ne_newline notReturn
      rw [cut_cons notNewline head, cuts]
      rw [cuts] at inductionHypothesis
      obtain ⟨⟨noNewline, ends⟩, last, restCut⟩ := inductionHypothesis
      refine ⟨⟨by simpa using ⟨Ne.symm notNewline, noNewline⟩, ?_⟩, last, restCut⟩
      obtain ⟨body, terminator⟩ := segment
      cases terminator with
      | returnNewline => trivial
      | endOfText => simp
      | newline =>
          simp only at ends ⊢
          cases body with
          | nil =>
              simp only [List.getLast?_singleton, ne_eq, Option.some.injEq]
              intro isReturn
              have text := join_cut rest
              rw [cuts] at text
              exact head isReturn (by rw [← text]; simp [join, Segment.text, Terminator.text])
          | cons d body => simpa using ends

theorem IsCut.proper_of_mem
    {segments : List Segment} {segment : Segment}
    (isCut : IsCut segments)
    (member : segment ∈ segments) :
    segment.Proper := by
  induction segments with
  | nil => simp at member
  | cons first rest inductionHypothesis =>
      rcases List.mem_cons.1 member with rfl | later
      · exact isCut.1
      · exact inductionHypothesis isCut.2.2 later

theorem linesOfPieces_cons
    {pieces : List Text}
    (more : pieces ≠ []) (piece : Text) :
    linesOfPieces (piece :: pieces) = dropReturn piece :: linesOfPieces pieces := by
  cases pieces with
  | nil => exact absurd rfl more
  | cons _ _ => rfl

theorem dropReturn_cons
    {c : Char} {piece : Text}
    (kept : c = '\r' → piece ≠ []) :
    dropReturn (c :: piece) = c :: dropReturn piece := by
  unfold dropReturn
  rw [List.reverse_cons]
  cases reversed : piece.reverse with
  | nil =>
      have empty : piece = [] := by simpa using reversed
      subst empty
      by_cases isReturn : c = '\r'
      · exact absurd rfl (kept isReturn)
      · simp only [List.nil_append]
        split
        next kept same => simp_all
        · rfl
  | cons last front =>
      by_cases isReturn : last = '\r'
      · subst isReturn
        simp
      · simp only [List.cons_append]
        split
        next kept same => simp_all
        · split
          next kept same => simp_all
          · rfl

/-- The lines of a text are the bodies of its segments. -/
theorem lines_eq_map_body (text : Text) : lines text = (cut text).map Segment.body := by
  induction text using cut.induct with
  | case1 => rfl
  | case2 rest inductionHypothesis =>
      rw [cut_newline, lines, List.splitOn_cons_eq_if_modifyHead, if_pos (by decide),
        linesOfPieces_cons (List.splitOn_ne_nil _ _)]
      simpa [dropReturn, lines] using inductionHypothesis
  | case3 rest inductionHypothesis =>
      rw [cut_returnNewline, lines, List.splitOn_cons_eq_if_modifyHead, if_neg (by decide),
        List.splitOn_cons_eq_if_modifyHead, if_pos (by decide), List.modifyHead_cons,
        linesOfPieces_cons (List.splitOn_ne_nil _ _)]
      simpa [dropReturn, lines] using inductionHypothesis
  | case4 c rest notNewline notReturn empty inductionHypothesis =>
      rw [cut_eq_nil_iff] at empty
      subst empty
      rw [cut_cons notNewline (by simp), lines, List.splitOn_cons_eq_if_modifyHead,
        if_neg (by simpa using notNewline)]
      simp [linesOfPieces, cut]
  | case5 c rest notNewline notReturn segment segments cuts inductionHypothesis =>
      have head := head?_ne_newline notReturn
      rw [cut_cons notNewline head, cuts]
      rw [cuts, lines] at inductionHypothesis
      rw [lines, List.splitOn_cons_eq_if_modifyHead, if_neg (by simpa using notNewline)]
      cases split : rest.splitOn '\n' with
      | nil => exact absurd split (List.splitOn_ne_nil _ _)
      | cons piece pieces =>
          rw [split] at inductionHypothesis
          rw [List.modifyHead_cons]
          cases pieces with
          | nil =>
              simp only [linesOfPieces] at inductionHypothesis ⊢
              split at inductionHypothesis <;> simp_all
          | cons next pieces =>
              rw [linesOfPieces_cons (by simp)] at inductionHypothesis ⊢
              rw [dropReturn_cons]
              · simp_all
              · rintro isReturn rfl
                refine head isReturn ?_
                have text : ['\n'].intercalate (rest.splitOn '\n') = rest :=
                  List.intercalate_splitOn '\n'
                rw [split] at text
                rw [← text]
                simp [List.intercalate]

end Upkeep
