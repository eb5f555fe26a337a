import Upkeep.Proofs.Rule.Candidates
import Upkeep.Proofs.Source.Reader
import Upkeep.Source.Scan

/-!
Lines that are joined over a backslash.  The classification starts each line afresh, outside of
literals, so that it loses sight of a literal or a line comment that runs on into the next line.
This does no harm unless a comment opens there, or a mark is itself cut in two.
-/

namespace Upkeep

/-- What is read of a line when a line that ends in a backslash is joined to the next one. -/
def spliceLine (line : Text) : Text :=
  if line.getLast? = some '\\' then line.dropLast else line ++ ['\n']

namespace ReaderState

/-- The reader of the joined lines at the start of one of the lines. -/
def atSplicedLine (sourceLines : List Text) (number : Nat) : ReaderState :=
  read .code ((sourceLines.take number).flatMap spliceLine)

/-- Whether a line may be read by itself where the reader stands: the line does not complete a
mark, and it has no mark that opens a comment where a literal or a line comment runs on. -/
def MayStartAfresh (line : Text) : ReaderState → Prop
  | .code | .blockComment => True
  | .slash => line.head? ≠ some '/' ∧ line.head? ≠ some '*'
  | .star => line.head? ≠ some '/'
  | .literal _ | .escape _ | .lineComment => ¬ "/*".toList <:+: line

theorem inBlockComment_read_of_no_opener
    {text : Text} {state : ReaderState}
    (outside : state.inBlockComment = false)
    (noHalf : state = .slash → text.head? ≠ some '*')
    (noOpener : ¬ "/*".toList <:+: text) :
    (state.read text).inBlockComment = false := by
  induction text generalizing state with
  | nil => exact outside
  | cons c rest inductionHypothesis =>
      rw [read_cons]
      apply inductionHypothesis
      · by_cases opens : (state.next c).inBlockComment = true
        · obtain ⟨half, isStar⟩ := opens_of_next outside opens
          exact absurd (by rw [isStar]; rfl) (noHalf half)
        · simpa using opens
      · intro half starts
        obtain ⟨tail, rfl⟩ := List.head?_eq_some_iff.1 starts
        apply noOpener
        rw [eq_slash_of_next_eq_slash half]
        exact ⟨[], tail, rfl⟩
      · intro later
        exact noOpener (later.trans (List.suffix_cons c rest).isInfix)

theorem MayStartAfresh.inBlockComment_read
    {line : Text} {state : ReaderState}
    (afresh : state.MayStartAfresh line) :
    (state.read line).inBlockComment =
      ((lineStart state.inBlockComment).read line).inBlockComment := by
  have unopened (outside : state.inBlockComment = false) (whole : state ≠ .slash)
      (noOpener : ¬ "/*".toList <:+: line) :
      (state.read line).inBlockComment =
        ((lineStart state.inBlockComment).read line).inBlockComment := by
    rw [inBlockComment_read_of_no_opener outside (fun half => absurd half whole) noOpener, outside]
    exact (inBlockComment_read_of_no_opener rfl (by simp [lineStart]) noOpener).symm
  cases state with
  | code => rfl
  | blockComment => rfl
  | slash => exact inBlockComment_read_slash afresh.1 afresh.2
  | star => exact inBlockComment_read_star afresh
  | literal quote => exact unopened rfl (by simp) afresh
  | escape quote => exact unopened rfl (by simp) afresh
  | lineComment => exact unopened rfl (by simp) afresh

/-- Joined to the next line or not, a line leaves the same comment open. -/
theorem inBlockComment_read_spliceLine (state : ReaderState) (line : Text) :
    (state.read (spliceLine line)).inBlockComment = (state.read line).inBlockComment := by
  -- Neither the backslash nor the newline is part of a mark.
  unfold spliceLine
  split
  next joined =>
    obtain ⟨front, rfl⟩ := List.getLast?_eq_some_iff.1 joined
    rw [List.dropLast_concat, read_append, read_cons, read_nil,
      inBlockComment_next (by decide) (by decide)]
  next whole =>
    rw [read_append, read_cons, read_nil, inBlockComment_next (by decide) (by decide)]

/-- As long as each line may be read by itself, the classification knows whether a block comment
is open. -/
theorem inBlockComment_atSplicedLine
    {sourceLines : List Text} {number : Nat}
    (noNewline : ∀ line ∈ sourceLines, '\n' ∉ line)
    (afresh : ∀ earlier line, earlier < number → sourceLines[earlier]? = some line →
      (atSplicedLine sourceLines earlier).MayStartAfresh line) :
    (atSplicedLine sourceLines number).inBlockComment =
      (Carry.none.afterAll (sourceLines.take number)).inComment := by
  induction number with
  | zero => rfl
  | succ number inductionHypothesis =>
      have before := inductionHypothesis fun earlier line sooner =>
        afresh earlier line (Nat.lt_succ_of_lt sooner)
      cases at_ : sourceLines[number]? with
      | none =>
          have ended : sourceLines.length ≤ number := List.getElem?_eq_none_iff.1 at_
          unfold atSplicedLine at before ⊢
          rw [List.take_of_length_le ended] at before
          rw [List.take_of_length_le (Nat.le_succ_of_le ended)]
          exact before
      | some line =>
          have taken : sourceLines.take (number + 1) = sourceLines.take number ++ [line] := by
            rw [List.take_add_one, at_]
            rfl
          have step : atSplicedLine sourceLines (number + 1) =
              (atSplicedLine sourceLines number).read (spliceLine line) := by
            rw [atSplicedLine, taken, List.flatMap_append, read_append]
            simp [atSplicedLine]
          have alone := (afresh number line (Nat.lt_succ_self number) at_).inBlockComment_read
          rw [step, inBlockComment_read_spliceLine, alone, before, taken, Carry.afterAll_append]
          exact inBlockComment_read_lineStart (noNewline line (List.mem_of_getElem? at_)) _

end ReaderState

theorem getElem?_of_mem_declarationsFrom
    {afterTemplate : Bool} {number : Nat} {entries : List (Text × LineKind)}
    {declaration : Declaration}
    (member : declaration ∈ declarationsFrom afterTemplate number entries) :
    number ≤ declaration.line ∧
      ∃ line, entries[declaration.line - number]? = some (line, .code) := by
  induction entries generalizing afterTemplate number with
  | nil => simp [declarationsFrom] at member
  | cons entry rest inductionHypothesis =>
      obtain ⟨line, kind⟩ := entry
      have later {flag : Bool}
          (below : declaration ∈ declarationsFrom flag (number + 1) rest) :
          number ≤ declaration.line ∧
            ∃ text, ((line, kind) :: rest)[declaration.line - number]? = some (text, .code) := by
        obtain ⟨after, text, at_⟩ := inductionHypothesis below
        have next : declaration.line - number = declaration.line - (number + 1) + 1 := by omega
        refine ⟨by omega, text, ?_⟩
        rw [next, List.getElem?_cons_succ, at_]
      unfold declarationsFrom at member
      cases kind with
      | code =>
          rcases List.mem_append.1 member with here | below
          · have same : declaration.line = number := by
              split at here
              · simp at here
              · obtain ⟨_, _, rfl⟩ := List.mem_map.1 here
                rfl
            exact ⟨Nat.le_of_eq same.symm, line, by simp [same]⟩
          · exact later below
      | blank => exact later member
      | comment => exact later member
      | preprocessor => exact later member
      | continuation => exact later member

theorem classify_of_mem_scan
    {content : Text} {declaration : Declaration}
    (member : declaration ∈ scan content) :
    (classify (lines content))[declaration.line]? = some .code := by
  obtain ⟨_, line, at_⟩ := getElem?_of_mem_declarationsFrom member
  exact (List.getElem?_zip_eq_some.1 at_).2

theorem newline_notMem_of_mem_lines
    {content line : Text}
    (member : line ∈ lines content) :
    '\n' ∉ line := by
  rw [lines_eq_map_body] at member
  obtain ⟨segment, inside, rfl⟩ := List.mem_map.1 member
  exact ((isCut_cut content).proper_of_mem inside).1

/-- A line that lies inside a block comment once lines are joined over a backslash is a comment,
as long as each line before it may be read by itself.  So no rule edits it and no declaration is
read from it. -/
theorem comment_of_reader_inside
    {content : Text} {number : Nat} {line : Text}
    (afresh : ∀ earlier text, earlier < number → (lines content)[earlier]? = some text →
      (ReaderState.atSplicedLine (lines content) earlier).MayStartAfresh text)
    (inside : (ReaderState.atSplicedLine (lines content) number).inBlockComment = true)
    (at_ : (lines content)[number]? = some line) :
    (classify (lines content))[number]? = some .comment ∧
      (∀ (rule : Rule) (path : Text) (candidate : Candidate),
        rule.kind = .code ∨ rule.kind = .preprocessor →
        candidate ∈ rule.candidates path content → candidate.line ≠ number) ∧
      ∀ declaration ∈ scan content, declaration.line ≠ number := by
  rw [ReaderState.inBlockComment_atSplicedLine (fun _ => newline_notMem_of_mem_lines) afresh]
    at inside
  have comment : (classify (lines content))[number]? = some .comment := by
    rw [classify, getElem?_classifyFrom, at_]
    exact congrArg some
      (Carry.kind_of_inComment inside (Carry.continued_afterAll_of_inComment inside) line)
  refine ⟨comment, ?_, ?_⟩
  · rintro rule path candidate editable member rfl
    have kind := (Rule.mem_candidates_iff.1 member).2.2.1
    rw [comment, Option.some.injEq] at kind
    rcases editable with isCode | isDirective
    · rw [isCode] at kind
      simp at kind
    · rw [isDirective] at kind
      simp at kind
  · rintro declaration member rfl
    have kind := classify_of_mem_scan member
    rw [comment] at kind
    simp at kind

/-- A string runs on over a backslash into a line that opens no comment, and a comment follows
below. -/
def commentBelowLiteral : Text :=
  "auto s = \"a \\\n// b\"; int i;\n/* c\nclass Widget;\n*/\n".toList

theorem comment_of_reader_inside_commentBelowLiteral :
    (ReaderState.atSplicedLine (lines commentBelowLiteral) 1) = .literal '"' ∧
      (ReaderState.atSplicedLine (lines commentBelowLiteral) 3).inBlockComment = true ∧
      (classify (lines commentBelowLiteral))[3]? = some .comment := by
  have runsOn : ReaderState.atSplicedLine (lines commentBelowLiteral) 1 = .literal '"' := by
    decide +kernel
  have inside :
      (ReaderState.atSplicedLine (lines commentBelowLiteral) 3).inBlockComment = true := by
    decide +kernel
  have fourth : (lines commentBelowLiteral)[3]? = some "class Widget;".toList := by
    decide +kernel
  refine ⟨runsOn, inside, (comment_of_reader_inside ?_ inside fourth).1⟩
  intro earlier text sooner at_
  have which : earlier = 0 ∨ earlier = 1 ∨ earlier = 2 := by omega
  rcases which with rfl | rfl | rfl
  · trivial
  · have second : (lines commentBelowLiteral)[1]? = some "// b\"; int i;".toList := by
      decide +kernel
    obtain rfl : text = "// b\"; int i;".toList := Option.some.inj (at_.symm.trans second)
    rw [runsOn, ReaderState.MayStartAfresh, ← occursIn_iff]
    decide +kernel
  · have atRest : ReaderState.atSplicedLine (lines commentBelowLiteral) 2 = .code := by
      decide +kernel
    rw [atRest]
    trivial

/-- A string that runs on over a backslash ends where its second line seems to open one, so that
the comment behind it goes unseen. -/
def continuedLiteral : Text :=
  "auto s = \"a \\\nb\"; /* c\nclass Widget;\n*/\n".toList

theorem code_inside_comment_after_continuedLiteral :
    (ReaderState.atSplicedLine (lines continuedLiteral) 2).inBlockComment = true ∧
      classify (lines continuedLiteral) = [.code, .continuation, .code, .code] ∧
      scan continuedLiteral = [⟨"Widget".toList, .classType, 2⟩] := by
  decide +kernel

end Upkeep
