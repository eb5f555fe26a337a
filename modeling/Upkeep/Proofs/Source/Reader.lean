import Upkeep.Proofs.Source.Carry
import Upkeep.Text.Cut

/-!
A reader of whole texts.  It goes through a text character by character, over the ends of the
lines, and knows at each place whether it is inside a literal or a comment.  The lines are
classified one by one, but as long as none is continued over a backslash, a line lies inside a
block comment for the one exactly if it does for the other.
-/

namespace Upkeep

/-- What a reader of a text is inside of.  A slash of the code and a star of a block comment
may be the first half of a comment mark. -/
inductive ReaderState where
  | code
  | slash
  | literal (quote : Char)
  | escape (quote : Char)
  | lineComment
  | blockComment
  | star
  deriving DecidableEq, Repr

namespace ReaderState

def nextInCode (c : Char) : ReaderState :=
  if c = '/' then .slash
  else if c = '"' ∨ c = '\'' then .literal c
  else .code

/-- What the reader is inside of after one more character.  Literals and line comments end with
the line, but a backslash in a literal hides whatever follows it. -/
def next : ReaderState → Char → ReaderState
  | .code, c => nextInCode c
  | .slash, c =>
      if c = '/' then .lineComment
      else if c = '*' then .blockComment
      else nextInCode c
  | .literal quote, c =>
      if c = '\\' then .escape quote
      else if c = quote ∨ c = '\n' then .code
      else .literal quote
  | .escape quote, _ => .literal quote
  | .lineComment, c => if c = '\n' then .code else .lineComment
  | .blockComment, c => if c = '*' then .star else .blockComment
  | .star, c =>
      if c = '/' then .code
      else if c = '*' then .star
      else .blockComment

def read (state : ReaderState) (text : Text) : ReaderState :=
  text.foldl next state

def inBlockComment : ReaderState → Bool
  | .blockComment | .star => true
  | _ => false

/-- The reader of a whole text at the start of one of its lines. -/
def atLine (content : Text) (number : Nat) : ReaderState :=
  read .code (join ((cut content).take number))

@[simp]
theorem read_nil (state : ReaderState) : state.read [] = state :=
  rfl

@[simp]
theorem read_cons (state : ReaderState) (c : Char) (text : Text) :
    state.read (c :: text) = (state.next c).read text :=
  rfl

@[simp]
theorem read_append (state : ReaderState) (first second : Text) :
    state.read (first ++ second) = (state.read first).read second :=
  List.foldl_append

theorem next_slash
    {c : Char}
    (notSlash : c ≠ '/')
    (notStar : c ≠ '*') :
    next .slash c = next .code c := by
  simp [next, notSlash, notStar]

theorem next_star
    {c : Char}
    (notSlash : c ≠ '/') :
    next .star c = next .blockComment c := by
  simp [next, notSlash]

theorem inBlockComment_read_slash
    {text : Text}
    (noSlash : text.head? ≠ some '/')
    (noStar : text.head? ≠ some '*') :
    (read .slash text).inBlockComment = (read .code text).inBlockComment := by
  cases text with
  | nil => rfl
  | cons c rest =>
      have same : next .slash c = next .code c :=
        next_slash (by simpa using noSlash) (by simpa using noStar)
      rw [read_cons, read_cons, same]

theorem inBlockComment_read_star
    {text : Text}
    (noSlash : text.head? ≠ some '/') :
    (read .star text).inBlockComment = (read .blockComment text).inBlockComment := by
  cases text with
  | nil => rfl
  | cons c rest =>
      have same : next .star c = next .blockComment c := next_star (by simpa using noSlash)
      rw [read_cons, read_cons, same]

theorem read_lineComment
    {text : Text}
    (noNewline : '\n' ∉ text) :
    read .lineComment text = .lineComment := by
  induction text with
  | nil => rfl
  | cons c rest inductionHypothesis =>
      simp only [List.mem_cons, not_or] at noNewline
      have same : next .lineComment c = .lineComment := by simp [next, Ne.symm noNewline.1]
      rw [read_cons, same, inductionHypothesis noNewline.2]

/-- Only marks open and close block comments. -/
theorem inBlockComment_next
    {c : Char}
    (notSlash : c ≠ '/')
    (notStar : c ≠ '*') (state : ReaderState) :
    (state.next c).inBlockComment = state.inBlockComment := by
  cases state <;> simp only [next, nextInCode, if_neg notSlash, if_neg notStar] <;>
    (repeat' split) <;> rfl

theorem opens_of_next
    {state : ReaderState} {c : Char}
    (outside : state.inBlockComment = false)
    (opens : (state.next c).inBlockComment = true) :
    state = .slash ∧ c = '*' := by
  cases state <;> simp only [next, nextInCode] at opens <;> (repeat' split at opens) <;>
    simp_all [inBlockComment]

theorem eq_slash_of_next_eq_slash
    {state : ReaderState} {c : Char}
    (half : state.next c = .slash) :
    c = '/' := by
  cases state <;> simp only [next, nextInCode] at half <;> (repeat' split at half) <;>
    first | assumption | simp at half

theorem eq_backslash_of_next_eq_escape
    {state : ReaderState} {c quote : Char}
    (escaped : state.next c = .escape quote) :
    c = '\\' := by
  cases state <;> simp only [next, nextInCode] at escaped <;> (repeat' split at escaped) <;>
    first | assumption | simp at escaped

end ReaderState

def LineState.reader : LineState → ReaderState
  | .code => .code
  | .literal quote => .literal quote
  | .blockComment => .blockComment

namespace ReaderState

/-- Within a line the two readers agree. -/
theorem inBlockComment_read_reader
    {line : Text}
    (noNewline : '\n' ∉ line) (state : LineState) :
    (state.reader.read line).inBlockComment = commentOpenAfter state line := by
  -- Where the reader of a line looks at two characters at once, the other one keeps the first
  -- of them in its state.
  fun_induction commentOpenAfter state line with
  | case1 state => cases state <;> rfl
  | case2 rest inductionHypothesis =>
      simp only [List.mem_cons, not_or] at noNewline
      exact inductionHypothesis noNewline.2.2
  | case3 c rest noEnd inductionHypothesis =>
      simp only [List.mem_cons, not_or] at noNewline
      rw [← inductionHypothesis noNewline.2]
      by_cases isStar : c = '*'
      · subst isStar
        apply inBlockComment_read_star
        intro starts
        obtain ⟨tail, rfl⟩ := List.head?_eq_some_iff.1 starts
        exact noEnd tail rfl rfl
      · have stays : next .blockComment c = .blockComment := by simp [next, isStar]
        rw [LineState.reader, read_cons, stays]
  | case4 quote => rfl
  | case5 quote c rest inductionHypothesis =>
      simp only [List.mem_cons, not_or] at noNewline
      exact inductionHypothesis noNewline.2.2
  | case6 quote c rest noLast noEscape inductionHypothesis =>
      simp only [List.mem_cons, not_or] at noNewline
      have plain := ne_backslash noLast noEscape
      have goesOn : next (.literal quote) c =
          LineState.reader (if c = quote then .code else .literal quote) := by
        by_cases closes : c = quote
        · subst closes
          simp [next, plain, LineState.reader]
        · simp [next, plain, closes, Ne.symm noNewline.1, LineState.reader]
      rw [← inductionHypothesis noNewline.2, ← goesOn]
      rfl
  | case7 rest =>
      simp only [List.mem_cons, not_or] at noNewline
      have hidden : read .lineComment rest = .lineComment := read_lineComment noNewline.2.2
      exact congrArg inBlockComment hidden
  | case8 rest inductionHypothesis =>
      simp only [List.mem_cons, not_or] at noNewline
      exact inductionHypothesis noNewline.2.2
  | case9 c rest noLineComment noBlockComment inductionHypothesis =>
      simp only [List.mem_cons, not_or] at noNewline
      rw [← inductionHypothesis noNewline.2]
      by_cases isSlash : c = '/'
      · subst isSlash
        apply inBlockComment_read_slash
        · intro starts
          obtain ⟨tail, rfl⟩ := List.head?_eq_some_iff.1 starts
          exact noLineComment tail rfl rfl
        · intro starts
          obtain ⟨tail, rfl⟩ := List.head?_eq_some_iff.1 starts
          exact noBlockComment tail rfl rfl
      · have goesOn : next .code c =
            LineState.reader (if isQuote c then .literal c else .code) := by
          by_cases opens : c = '"' ∨ c = '\''
          · simp [next, nextInCode, isSlash, opens, isQuote, LineState.reader]
          · simp [next, nextInCode, isSlash, opens, isQuote, LineState.reader]
        rw [← goesOn]
        rfl

/-- The reader at the start of a line that no other line runs on into. -/
def lineStart (inComment : Bool) : ReaderState :=
  if inComment then .blockComment else .code

@[simp]
theorem inBlockComment_lineStart (inComment : Bool) :
    (lineStart inComment).inBlockComment = inComment := by
  cases inComment <;> rfl

theorem inBlockComment_read_lineStart
    {line : Text}
    (noNewline : '\n' ∉ line) (carry : Carry) :
    ((lineStart carry.inComment).read line).inBlockComment = (carry.after line).inComment := by
  have start : lineStart carry.inComment =
      (if carry.inComment then LineState.blockComment else .code).reader := by
    cases carry.inComment <;> rfl
  rw [start, inBlockComment_read_reader noNewline]
  rfl

theorem getLast?_of_read_eq_escape
    {text : Text} {quote : Char} {inComment : Bool}
    (escaped : read (lineStart inComment) text = .escape quote) :
    text.getLast? = some '\\' := by
  rcases List.eq_nil_or_concat text with rfl | ⟨front, last, rfl⟩
  · cases inComment <;> simp [lineStart] at escaped
  · rw [List.concat_eq_append, read_append] at escaped
    rw [eq_backslash_of_next_eq_escape escaped, List.concat_eq_append, List.getLast?_concat]

/-- The end of a line ends all but block comments. -/
theorem read_terminator
    {state : ReaderState} {terminator : Terminator}
    (unescaped : ∀ quote, state ≠ .escape quote)
    (ends : terminator ≠ .endOfText) :
    state.read terminator.text = lineStart state.inBlockComment := by
  have newline : state.next '\n' = lineStart state.inBlockComment := by
    cases state with
    | escape quote => exact absurd rfl (unescaped quote)
    | literal quote => simp [next, inBlockComment, lineStart]
    | _ => rfl
  cases terminator with
  | endOfText => exact absurd rfl ends
  | newline => exact newline
  | returnNewline =>
      -- A return is nothing to the reader but the end of a half mark or of a literal.
      have return_ : (state.next '\r').next '\n' = state.next '\n' := by
        cases state with
        | escape quote => exact absurd rfl (unescaped quote)
        | literal quote =>
            by_cases closes : '\r' = quote
            · subst closes
              rfl
            · simp [next, closes]
        | _ => rfl
      exact return_.trans newline

end ReaderState

theorem endsInBackslash_of_getLast?
    {line : Text}
    (ends : line.getLast? = some '\\') :
    endsInBackslash line = true := by
  obtain ⟨front, rfl⟩ := List.getLast?_eq_some_iff.1 ends
  exact endsInBackslash_append (by decide) front

theorem Segment.Proper.read_text
    {segment : Segment}
    (proper : segment.Proper)
    (ends : segment.terminator ≠ .endOfText)
    (unspliced : endsInBackslash segment.body = false) (carry : Carry) :
    (ReaderState.lineStart carry.inComment).read segment.text =
      ReaderState.lineStart (carry.after segment.body).inComment := by
  have unescaped (quote : Char) :
      (ReaderState.lineStart carry.inComment).read segment.body ≠ .escape quote := by
    intro escaped
    have last := ReaderState.getLast?_of_read_eq_escape escaped
    rw [endsInBackslash_of_getLast? last] at unspliced
    exact absurd unspliced (by decide)
  rw [Segment.text, ReaderState.read_append, ReaderState.read_terminator unescaped ends,
    ReaderState.inBlockComment_read_lineStart proper.1]

/-- At the start of each line the reader and the classification agree. -/
theorem IsCut.read_take
    {segments : List Segment}
    (isCut : IsCut segments)
    (unspliced : ∀ segment ∈ segments, endsInBackslash segment.body = false)
    {carry : Carry}
    (alone : carry.continued = false)
    {number : Nat}
    (inside : number < segments.length) :
    (ReaderState.lineStart carry.inComment).read (join (segments.take number)) =
        ReaderState.lineStart
          (carry.afterAll ((segments.map Segment.body).take number)).inComment ∧
      (carry.afterAll ((segments.map Segment.body).take number)).continued = false := by
  induction segments generalizing carry number with
  | nil => simp at inside
  | cons segment rest inductionHypothesis =>
      cases number with
      | zero => exact ⟨rfl, alone⟩
      | succ number =>
          obtain ⟨proper, last, restCut⟩ := isCut
          have more : number < rest.length := by simpa using inside
          have ends : segment.terminator ≠ .endOfText := by
            intro open_
            simp [last open_] at more
          have first : endsInBackslash segment.body = false := unspliced segment (by simp)
          have goesAlone : (carry.after segment.body).continued = false := by
            simp [Carry.after, first]
          have later := inductionHypothesis restCut
            (fun other member => unspliced other (List.mem_cons_of_mem _ member)) goesAlone more
          have joined : join ((segment :: rest).take (number + 1)) =
              segment.text ++ join (rest.take number) := rfl
          rw [joined, ReaderState.read_append, proper.read_text ends first]
          exact later

/-- Line by line a text is classified as a reader of the whole text sees it, as long as no line
is continued over a backslash.  A line is a comment exactly if the reader is inside a block
comment at its start or if it starts with a comment itself.  Each other line is what its first
character that is not blank makes it, and none is a continuation. -/
theorem classify_agrees_with_reader
    {content : Text}
    (unspliced : ∀ line ∈ lines content, endsInBackslash line = false)
    {number : Nat} {line : Text}
    (at_ : (lines content)[number]? = some line) :
    ∃ kind, (classify (lines content))[number]? = some kind ∧
      kind ≠ .continuation ∧
      (kind = .comment ↔
        (ReaderState.atLine content number).inBlockComment = true ∨ StartsComment line) ∧
      (kind ≠ .comment → kind = plainKind (trimStart line).head?) := by
  have inside : number < (cut content).length := by
    rw [lines_eq_map_body] at at_
    simpa using (List.getElem?_eq_some_iff.1 at_).1
  have unsplicedCut : ∀ segment ∈ cut content, endsInBackslash segment.body = false := by
    intro segment member
    apply unspliced
    rw [lines_eq_map_body]
    exact List.mem_map_of_mem member
  have nothing : Carry.none.continued = false := rfl
  obtain ⟨read, alone⟩ := (isCut_cut content).read_take unsplicedCut nothing inside
  rw [← lines_eq_map_body] at read alone
  generalize carried : Carry.none.afterAll ((lines content).take number) = carry at read alone
  have inBlock : (ReaderState.atLine content number).inBlockComment = carry.inComment := by
    have start : ReaderState.atLine content number = ReaderState.lineStart carry.inComment := read
    rw [start, ReaderState.inBlockComment_lineStart]
  refine ⟨carry.kind line, ?_, ?_⟩
  · rw [classify, getElem?_classifyFrom, at_, carried]
    rfl
  rw [inBlock]
  cases open_ : carry.inComment with
  | true => simp [carry.kind_of_inComment open_ alone]
  | false =>
      have kind : carry.kind line = kindByStart line := by simp [Carry.kind, open_, alone]
      rw [kind]
      refine ⟨kindByStart_ne_continuation line, by simp [kindByStart_eq_comment_iff], ?_⟩
      intro noComment
      apply kindByStart_of_not_startsComment
      exact fun starts => noComment (kindByStart_of_startsComment starts)

/-- The second line lies inside a comment that a quote in it does not hide, and the third one is
a directive behind the end of the comment. -/
def commentOverLines : Text :=
  "auto s = \"/*\"; /* a\r\n\" b */ int c;\n#if d\n".toList

theorem classify_agrees_with_reader_of_commentOverLines :
    (ReaderState.atLine commentOverLines 1).inBlockComment = true ∧
      (classify (lines commentOverLines))[1]? = some .comment ∧
      (classify (lines commentOverLines))[2]? = some .preprocessor := by
  have unspliced : ∀ line ∈ lines commentOverLines, endsInBackslash line = false := by
    decide +kernel
  have inside : (ReaderState.atLine commentOverLines 1).inBlockComment = true := by
    decide +kernel
  have second : (lines commentOverLines)[1]? = some "\" b */ int c;".toList := by
    decide +kernel
  have third : (lines commentOverLines)[2]? = some "#if d".toList := by
    decide +kernel
  refine ⟨inside, ?_, ?_⟩
  · obtain ⟨kind, at_, _, comment, _⟩ := classify_agrees_with_reader unspliced second
    rw [at_, comment.2 (.inl inside)]
  · obtain ⟨kind, at_, _, comment, plain⟩ := classify_agrees_with_reader unspliced third
    have outside : ¬ ((ReaderState.atLine commentOverLines 2).inBlockComment = true ∨
        StartsComment "#if d".toList) := by
      decide +kernel
    rw [at_, plain fun isComment => outside (comment.1 isComment)]
    decide +kernel

end Upkeep
