import Upkeep.Proofs.Rule.PruneIncludes
import Upkeep.Proofs.Source.Trim

/-!
Lines that are put into a text.  A line after which the same is open as before it leaves all other
lines what they were, and blank lines, line comments and lines without comment marks are such lines
wherever no line runs on into them.
-/

namespace Upkeep

open Unicode

variable {line : Text} {front back : List Text} {carry : Carry}

/-- Whether the first characters of a line that are not blank are `//`. -/
def IsLineComment (line : Text) : Prop :=
  "//".toList <+: trimStart line

/-- What the reader of a line is inside of when the reader of its code is in this state. -/
def LineState.ofQuote : Option Char → LineState
  | none => .code
  | some quote => .literal quote

/-- Only a `/*` in the code of a line can leave a comment open behind it. -/
theorem commentOpenAfter_of_codeFrom
    (quote : Option Char)
    (noOpener : ¬ "/*".toList <:+: codeFrom quote line) :
    commentOpenAfter (.ofQuote quote) line = false := by
  fun_induction codeFrom quote line with
  | case1 quote => cases quote <;> rfl
  | case2 quote => rfl
  | case3 quote c rest inductionHypothesis =>
      apply inductionHypothesis
      intro later
      exact noOpener (later.trans ⟨['\\', c], [], by simp⟩)
  | case4 quote c rest notLast notEscape inductionHypothesis =>
      have goesOn : commentOpenAfter (.literal quote) (c :: rest) =
          commentOpenAfter (.ofQuote (if c = quote then none else some quote)) rest := by
        rw [commentOpenAfter]
        · split <;> rfl
        · exact notLast
        · exact notEscape
      refine goesOn.trans (inductionHypothesis ?_)
      intro later
      exact noOpener (later.trans (List.suffix_cons c _).isInfix)
  | case5 rest => rfl
  | case6 c rest noComment inductionHypothesis =>
      have goesOn : commentOpenAfter .code (c :: rest) =
          commentOpenAfter (.ofQuote (if isQuote c then some c else none)) rest := by
        rw [commentOpenAfter]
        · split <;> rfl
        · exact noComment
        · rintro tail rfl rfl
          refine noOpener ⟨[], codeFrom none tail, ?_⟩
          rfl
      refine goesOn.trans (inductionHypothesis ?_)
      intro later
      exact noOpener (later.trans (List.suffix_cons c _).isInfix)

theorem commentOpenAfter_of_no_opener
    (noOpener : ¬ "/*".toList <:+: line) :
    commentOpenAfter .code line = false := by
  apply commentOpenAfter_of_codeFrom none
  intro opens
  exact noOpener (opens.trans (codeFrom_isPrefix none line).isInfix)

theorem codeOf_of_isLineComment
    (isComment : IsLineComment line) :
    ∃ blanks, codeOf line = blanks ∧ ∀ c ∈ blanks, isBlank c = true := by
  obtain ⟨blanks, split, blank⟩ := exists_blanks_append_trimStart line
  obtain ⟨rest, starts⟩ := isComment
  refine ⟨blanks, ?_, blank⟩
  rw [split, ← starts, codeOf_append_of_isBlank blank]
  exact List.append_nil blanks

theorem commentOpenAfter_of_isLineComment
    (isComment : IsLineComment line) :
    commentOpenAfter .code line = false := by
  apply commentOpenAfter_of_codeFrom none
  obtain ⟨blanks, code, blank⟩ := codeOf_of_isLineComment isComment
  intro opens
  have slash : '/' ∈ blanks := by
    rw [← code]
    exact opens.subset (by simp)
  exact ne_of_isBlank (blank _ slash) (by decide) rfl

/-- Whether a line may stand where a comment is open or none is without saying anything: it is
blank, or a line comment outside of block comments that does not run on into the next line. -/
inductive IsRemark (inComment : Bool) (line : Text) : Prop where
  | blank :
      (∀ c ∈ line, isBlank c = true) →
      IsRemark inComment line
  | comment :
      inComment = false →
      IsLineComment line →
      endsInBackslash line = false →
      IsRemark inComment line

namespace Carry

/-- Where no line runs on, a remark leaves open what was open before it. -/
theorem after_remark
    (alone : carry.continued = false)
    (remark : IsRemark carry.inComment line) :
    carry.after line = carry := by
  obtain ⟨inComment, continued⟩ := carry
  obtain rfl : continued = false := alone
  cases remark with
  | blank blank =>
      rw [← after_trim, trim_eq_nil_of_isBlank blank]
      cases inComment <;> rfl
  | comment outside isComment whole =>
      obtain rfl : inComment = false := outside
      exact after_none_eq_none_iff.2 ⟨commentOpenAfter_of_isLineComment isComment, whole⟩

theorem kind_remark
    (alone : carry.continued = false)
    (remark : IsRemark carry.inComment line) :
    carry.kind line = .blank ∨ carry.kind line = .comment := by
  obtain ⟨inComment, continued⟩ := carry
  obtain rfl : continued = false := alone
  cases remark with
  | blank blank =>
      rw [← kind_trim, trim_eq_nil_of_isBlank blank]
      cases inComment
      · exact .inl rfl
      · exact .inr rfl
  | comment outside isComment _ =>
      obtain rfl : inComment = false := outside
      exact .inr (kindByStart_of_startsComment (.inl isComment))

/-- No line runs on where the last line does not end in a backslash. -/
theorem continued_afterAll
    (whole : ∀ last ∈ front.getLast?, endsInBackslash last = false) :
    (none.afterAll front).continued = false := by
  rcases List.eq_nil_or_concat front with rfl | ⟨front, last, rfl⟩
  · rfl
  · have unspliced : endsInBackslash last = false := whole last (by simp)
    simp [after, unspliced]

end Carry

theorem zip_classify_append (front back : List Text) :
    (front ++ back).zip (classify (front ++ back)) =
      front.zip (classify front) ++
        back.zip (classifyFrom (Carry.none.afterAll front) back) := by
  rw [classify, classifyFrom_append]
  exact List.zip_append (length_classifyFrom _ _).symm

/-- A line that leaves open what was open before it leaves the kinds of all other lines. -/
theorem zip_classify_insert
    (same : (Carry.none.afterAll front).after line = Carry.none.afterAll front) :
    (front ++ line :: back).zip (classify (front ++ line :: back)) =
      front.zip (classify front) ++ (line, (Carry.none.afterAll front).kind line) ::
        back.zip (classifyFrom (Carry.none.afterAll front) back) := by
  rw [zip_classify_append, classifyFrom, same, List.zip_cons_cons]

/-- Nothing is left open before a line of code. -/
theorem nothingOpen_of_isCode
    (isCode : (classify (front ++ line :: back))[front.length]? = some .code) :
    Carry.none.afterAll front = .none ∧ kindByStart line = .code := by
  exact Carry.start_of_kind (kind_of_classify_append isCode) (by simp) (by simp)

/-- Between lines that leave nothing open a line has the kind that its start gives it. -/
theorem zip_classify_append_cons
    (nothingOpen : Carry.none.afterAll front = .none)
    (closed : LeavesNothingOpen line) :
    (front ++ line :: back).zip (classify (front ++ line :: back)) =
      front.zip (classify front) ++ (line, kindByStart line) :: back.zip (classify back) := by
  have same : (Carry.none.afterAll front).after line = Carry.none.afterAll front := by
    rw [nothingOpen]
    exact Carry.after_none_eq_none_iff.2 closed
  rw [zip_classify_insert same, nothingOpen]
  rfl

end Upkeep
