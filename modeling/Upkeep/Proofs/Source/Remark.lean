import Upkeep.Proofs.Source.Insert
import Upkeep.Proofs.Source.Splice
import Upkeep.Proofs.Source.Template

/-!
Blank lines and comments between and behind lines of code.  What is put between lines moves the
declarations below it and does nothing else, and a comment behind the code of a line does nothing
at all.
-/

namespace Upkeep

open Unicode

variable {line remark : Text} {waits : Bool} {number place : Nat}
  {above below entries : List (Text × LineKind)} {declaration : Declaration}

/-- The number that a line has once another one is put in at a place. -/
def numberAfterInsert (place number : Nat) : Nat :=
  if number < place then number else number + 1

/-- A declaration once a line is put in at a place. -/
def Declaration.makeRoom (place : Nat) (declaration : Declaration) : Declaration :=
  { declaration with line := numberAfterInsert place declaration.line }

theorem numberAfterInsert_inj {first second : Nat} :
    numberAfterInsert place first = numberAfterInsert place second ↔ first = second := by
  unfold numberAfterInsert
  split <;> split <;> omega

/-- What is read of some lines is read of each line where the lines before it leave off. -/
theorem declarationsFrom_append (above below : List (Text × LineKind)) :
    declarationsFrom waits number (above ++ below) =
      declarationsFrom waits number above ++
        declarationsFrom (above.foldl waitsBelow waits) (number + above.length) below := by
  induction above generalizing waits number with
  | nil => rfl
  | cons entry above inductionHypothesis =>
      rw [List.cons_append, declarationsFrom_cons, inductionHypothesis, declarationsFrom_cons,
        List.append_assoc, List.foldl_cons, List.length_cons]
      congr 3
      omega

theorem declaredOn_makeRoom (entry : Text × LineKind) :
    declaredOn waits (number + 1) entry =
      (declaredOn waits number entry).map (Declaration.makeRoom number) := by
  obtain ⟨line, kind⟩ := entry
  cases kind with
  | code =>
      simp only [declaredOn]
      split
      · rfl
      · simp [Declaration.makeRoom, numberAfterInsert]
  | _ => rfl

theorem makeRoom_eq_self
    (before : declaration.line < place) :
    declaration.makeRoom place = declaration := by
  simp [Declaration.makeRoom, numberAfterInsert, before]

theorem makeRoom_eq_of_le
    {first second : Nat}
    (firstBefore : first ≤ declaration.line)
    (secondBefore : second ≤ declaration.line) :
    declaration.makeRoom first = declaration.makeRoom second := by
  simp [Declaration.makeRoom, numberAfterInsert, Nat.not_lt.2 firstBefore,
    Nat.not_lt.2 secondBefore]

/-- One line further down the same is declared. -/
theorem declarationsFrom_succ :
    declarationsFrom waits (number + 1) entries =
      (declarationsFrom waits number entries).map (Declaration.makeRoom number) := by
  induction entries generalizing waits number with
  | nil => rfl
  | cons entry entries inductionHypothesis =>
      have later : (declarationsFrom (waitsBelow waits entry) (number + 1) entries).map
          (Declaration.makeRoom (number + 1)) =
            (declarationsFrom (waitsBelow waits entry) (number + 1) entries).map
              (Declaration.makeRoom number) := by
        apply List.map_congr_left
        intro declaration member
        have below := (getElem?_of_mem_declarationsFrom member).1
        exact makeRoom_eq_of_le below (Nat.le_of_succ_le below)
      rw [declarationsFrom_cons, declarationsFrom_cons, List.map_append, declaredOn_makeRoom,
        inductionHypothesis, later]

theorem map_makeRoom_declarationsFrom
    (within : number + entries.length ≤ place) :
    (declarationsFrom waits number entries).map (Declaration.makeRoom place) =
      declarationsFrom waits number entries := by
  have unmoved : ∀ declaration ∈ declarationsFrom waits number entries,
      declaration.makeRoom place = declaration := by
    intro declaration member
    obtain ⟨after, line, at_⟩ := getElem?_of_mem_declarationsFrom member
    have inside := (List.getElem?_eq_some_iff.1 at_).1
    exact makeRoom_eq_self (by omega)
  exact (List.map_congr_left unmoved).trans (List.map_id _)

/-- A line that is passed over moves what is declared below it. -/
theorem declarationsFrom_insert
    {entry : Text × LineKind}
    (passed : IsPassedOver entry) (above below : List (Text × LineKind)) :
    declarationsFrom waits number (above ++ entry :: below) =
      (declarationsFrom waits number (above ++ below)).map
        (Declaration.makeRoom (number + above.length)) := by
  have silent : ∀ flag at_, declaredOn flag at_ entry = [] ∧ waitsBelow flag entry = flag := by
    obtain ⟨line, kind⟩ := entry
    intro flag at_
    rcases passed with blank | comment
    · obtain rfl : kind = .blank := blank
      exact ⟨rfl, rfl⟩
    · obtain rfl : kind = .comment := comment
      exact ⟨rfl, rfl⟩
  rw [declarationsFrom_append, declarationsFrom_append, declarationsFrom_cons, (silent _ _).1,
    (silent _ 0).2, List.nil_append, List.map_append, map_makeRoom_declarationsFrom (Nat.le_refl _),
    declarationsFrom_succ]

namespace ReaderState

/-- What the reader of a text is inside of when the reader of the code is in this state. -/
def ofQuote : Option Char → ReaderState
  | none => .code
  | some quote => .literal quote

/-- Whether the reader is in a literal. -/
def InLiteral (state : ReaderState) : Prop :=
  ∃ quote, state = .literal quote ∨ state = .escape quote

theorem next_literal
    {c quote : Char}
    (notEscape : c ≠ '\\')
    (notNewline : c ≠ '\n') :
    next (.literal quote) c = ofQuote (if c = quote then none else some quote) := by
  by_cases closes : c = quote
  · subst closes
    simp [next, notEscape, ofQuote]
  · simp [next, notEscape, notNewline, closes, ofQuote]

theorem next_code
    {c : Char}
    (notSlash : c ≠ '/') :
    next .code c = ofQuote (if isQuote c then some c else none) := by
  by_cases opens : c = '"' ∨ c = '\''
  · simp [next, nextInCode, notSlash, opens, isQuote, ofQuote]
  · simp [next, nextInCode, notSlash, opens, isQuote, ofQuote]

end ReaderState

/-- Whether nothing at the end of a line can go on in a comment that is put behind it: no block
comment opens in the line, and no half of a mark ends it. -/
structure EndsClear (line : Text) : Prop where
  noNewline : '\n' ∉ line
  noOpener : ¬ "/*".toList <:+: line
  noSlash : line.getLast? ≠ some '/'

theorem EndsClear.of_isSuffix
    {rest : Text}
    (clear : EndsClear line)
    (isSuffix : rest <:+ line) :
    EndsClear rest where
  noNewline := fun member => clear.noNewline (isSuffix.mem member)
  noOpener := fun opens => clear.noOpener (opens.trans isSuffix.isInfix)
  noSlash := by
    obtain ⟨front, rfl⟩ := isSuffix
    intro ends
    apply clear.noSlash
    rw [List.getLast?_append, ends]
    rfl

/-- A slash that is read as itself is followed by something that makes no mark of it. -/
theorem EndsClear.exists_of_slash
    {rest : Text}
    (clear : EndsClear ('/' :: rest))
    (noComment : ∀ tail, rest = '/' :: tail → False) :
    ∃ c tail, rest = c :: tail ∧ c ≠ '/' ∧ c ≠ '*' := by
  cases rest with
  | nil => exact absurd rfl clear.noSlash
  | cons c tail =>
      refine ⟨c, tail, rfl, ?_, ?_⟩
      · rintro rfl
        exact noComment tail rfl
      · rintro rfl
        exact clear.noOpener ⟨[], tail, rfl⟩

/-- A comment put behind a line is not part of its code, unless the line ends within a literal. -/
theorem codeFrom_append_comment
    (quote : Option Char)
    (clear : EndsClear line)
    (closed : ¬ ((ReaderState.ofQuote quote).read line).InLiteral) (remark : Text) :
    codeFrom quote (line ++ ("//".toList ++ remark)) = codeFrom quote line := by
  fun_induction codeFrom quote line with
  | case1 quote =>
      cases quote with
      | none => rfl
      | some quote => exact absurd ⟨quote, .inl rfl⟩ closed
  | case2 quote => exact absurd ⟨quote, .inr rfl⟩ closed
  | case3 quote c rest inductionHypothesis =>
      have later := inductionHypothesis (clear.of_isSuffix ⟨['\\', c], rfl⟩) closed
      rw [List.cons_append, List.cons_append, codeFrom, later]
  | case4 quote c rest notLast notEscape inductionHypothesis =>
      have plain := ne_backslash notLast notEscape
      have noBreak : c ≠ '\n' := fun isBreak => clear.noNewline (by simp [isBreak])
      have goesOn : ((ReaderState.ofQuote (some quote)).read (c :: rest)) =
          (ReaderState.ofQuote (if c = quote then none else some quote)).read rest :=
        congrArg (ReaderState.read · rest) (ReaderState.next_literal plain noBreak)
      rw [goesOn] at closed
      have later := inductionHypothesis (clear.of_isSuffix (List.suffix_cons c rest)) closed
      rw [List.cons_append, codeFrom, later]
      · exact fun isBackslash _ => plain isBackslash
      · exact fun _ _ isBackslash _ => plain isBackslash
  | case5 rest => simp [codeFrom]
  | case6 c rest noComment inductionHypothesis =>
      have goesOn : ((ReaderState.ofQuote none).read (c :: rest)) =
          (ReaderState.ofQuote (if isQuote c then some c else none)).read rest := by
        by_cases isSlash : c = '/'
        · subst isSlash
          obtain ⟨d, tail, rfl, notSlash, notStar⟩ :=
            clear.exists_of_slash fun tail => noComment tail rfl
          exact congrArg (ReaderState.read · tail) (ReaderState.next_slash notSlash notStar)
        · exact congrArg (ReaderState.read · rest) (ReaderState.next_code isSlash)
      rw [goesOn] at closed
      have later := inductionHypothesis (clear.of_isSuffix (List.suffix_cons c rest)) closed
      rw [List.cons_append, codeFrom, later]
      intro tail isSlash starts
      subst isSlash
      obtain ⟨d, more, rfl, notSlash, _⟩ :=
        clear.exists_of_slash fun tail => noComment tail rfl
      exact notSlash (List.cons.inj starts).1

theorem endsInBackslash_append_comment
    (whole : endsInBackslash remark = false) (line : Text) :
    endsInBackslash (line ++ ("//".toList ++ remark)) = false := by
  have visible : trimEnd ("//".toList ++ remark) ≠ [] := by
    intro empty
    rw [trimEnd_eq_nil_iff] at empty
    simp [trimStart, show isBlank '/' = false by decide] at empty
  rw [endsInBackslash_append visible]
  by_cases blank : trimEnd remark = []
  · rw [endsInBackslash, trimEnd, dropEnd_append_of_forall (dropEnd_eq_nil_iff.1 blank)]
    decide
  · rw [endsInBackslash_append blank, whole]

/-- A line of code stays one when something is put behind it. -/
theorem kindByStart_append
    (clear : EndsClear line)
    (isCode : kindByStart line = .code) (back : Text) :
    kindByStart (line ++ back) = .code := by
  obtain ⟨blanks, split, _⟩ := exists_blanks_append_trimStart line
  cases starts : trimStart line with
  | nil => simp [kindByStart, starts] at isCode
  | cons c rest =>
      have startsToo : trimStart (line ++ back) = c :: (rest ++ back) := by
        rw [trimStart_append_of_ne_nil (by simp [starts]), starts, List.cons_append]
      by_cases isSlash : c = '/'
      · subst isSlash
        have clearRest : EndsClear ('/' :: rest) := by
          rw [← starts]
          exact clear.of_isSuffix ⟨blanks, split.symm⟩
        obtain ⟨d, tail, rfl, notSlash, notStar⟩ := clearRest.exists_of_slash (by
          rintro tail rfl
          simp [kindByStart, starts] at isCode)
        have plain : ¬ StartsComment (line ++ back) := by
          rw [StartsComment, startsToo]
          rintro (⟨more, same⟩ | ⟨more, same⟩)
          · exact notSlash (List.cons.inj (List.cons.inj same).2).1.symm
          · exact notStar (List.cons.inj (List.cons.inj same).2).1.symm
        rw [kindByStart_of_not_startsComment plain, startsToo]
        rfl
      · rw [kindByStart_of_trimStart starts isSlash] at isCode
        rw [kindByStart_of_trimStart startsToo isSlash, isCode]

/-- A line of code behind which a comment can be put: the line opens no comment, leaves no literal
open, and ends neither in a slash nor, its last blanks aside, in a backslash. -/
structure TakesComment (line : Text) : Prop where
  noOpener : ¬ "/*".toList <:+: line
  closed : ¬ (ReaderState.read .code line).InLiteral
  noSlash : line.getLast? ≠ some '/'
  whole : endsInBackslash line = false

theorem TakesComment.codeOf_append
    (takes : TakesComment line)
    (noNewline : '\n' ∉ line) (remark : Text) :
    codeOf (line ++ ("//".toList ++ remark)) = codeOf line :=
  have clear : EndsClear line := ⟨noNewline, takes.noOpener, takes.noSlash⟩
  codeFrom_append_comment none clear takes.closed remark

theorem TakesComment.leavesNothingOpen
    (takes : TakesComment line) :
    LeavesNothingOpen line :=
  ⟨commentOpenAfter_of_no_opener takes.noOpener, takes.whole⟩

theorem TakesComment.leavesNothingOpen_append
    (takes : TakesComment line)
    (noNewline : '\n' ∉ line)
    (whole : endsInBackslash remark = false) :
    LeavesNothingOpen (line ++ ("//".toList ++ remark)) := by
  refine ⟨?_, endsInBackslash_append_comment whole line⟩
  apply commentOpenAfter_of_codeFrom none
  intro opens
  have same := takes.codeOf_append noNewline remark
  rw [← codeOf, same] at opens
  exact takes.noOpener (opens.trans (codeFrom_isPrefix none line).isInfix)

section

variable {content other added : Text} {front back : List Text}

/-- A remark between two lines moves the declarations below it. -/
theorem scan_insert
    (before : lines content = front ++ back)
    (after : lines other = front ++ added :: back)
    (whole : ∀ last ∈ front.getLast?, endsInBackslash last = false)
    (isRemark : IsRemark (Carry.none.afterAll front).inComment added) :
    scan other = (scan content).map (Declaration.makeRoom front.length) := by
  have alone := Carry.continued_afterAll whole
  have passed : IsPassedOver (added, (Carry.none.afterAll front).kind added) :=
    Carry.kind_remark alone isRemark
  have length : (front.zip (classify front)).length = front.length := by simp
  rw [scan, after, zip_classify_insert (Carry.after_remark alone isRemark),
    declarationsFrom_insert passed, length, Nat.zero_add, ← zip_classify_append, scan, before]

/-- The line that a head hides is hidden where it has been moved to. -/
theorem line_ne_of_hidden
    {above between below : List (Text × LineKind)} {head : Text}
    (moved : scan other = (scan content).map (Declaration.makeRoom place))
    (layout : classifiedLines content =
      above ++ (head, .code) :: (between ++ (line, .code) :: below))
    (bare : IsBareHead (codeOf head))
    (quiet : ∀ entry ∈ between, IsPassedOver entry) :
    ∀ declaration ∈ scan other,
      declaration.line ≠ numberAfterInsert place (above.length + between.length + 1) := by
  intro declaration member there
  rw [moved, List.mem_map] at member
  obtain ⟨hidden, found, rfl⟩ := member
  have at_ : hidden.line = (above ++ (head, .code) :: between).length := by
    have same := numberAfterInsert_inj.1 there
    simpa [Nat.add_assoc] using same
  have split : classifiedLines content =
      (above ++ (head, .code) :: between) ++ (line, .code) :: below := by
    rw [layout, List.append_assoc, List.cons_append]
  exact ((mem_scan_iff_of_append split at_).1 found).1 ⟨above, head, between, rfl, bare, quiet⟩

/-- A comment behind a line of code changes nothing. -/
theorem scan_append_comment
    (before : lines content = front ++ line :: back)
    (after : lines other = front ++ (line ++ ("//".toList ++ remark)) :: back)
    (isCode : (classify (lines content))[front.length]? = some .code)
    (takes : TakesComment line)
    (whole : endsInBackslash remark = false) :
    scan other = scan content := by
  have noNewline : '\n' ∉ line := by
    have member : line ∈ lines content := by simp [before]
    exact newline_notMem_of_mem_lines member
  rw [before] at isCode
  obtain ⟨nothingOpen, kind⟩ := nothingOpen_of_isCode isCode
  have kindToo : kindByStart (line ++ ("//".toList ++ remark)) = .code :=
    kindByStart_append ⟨noNewline, takes.noOpener, takes.noSlash⟩ kind _
  have closed := takes.leavesNothingOpen
  have closedToo := takes.leavesNothingOpen_append noNewline whole
  rw [scan, after, zip_classify_append_cons nothingOpen closedToo, kindToo, scan, before,
    zip_classify_append_cons nothingOpen closed, kind, declarationsFrom_append,
    declarationsFrom_append, declarationsFrom_cons, declarationsFrom_cons, declaredOn, waitsBelow,
    takes.codeOf_append noNewline remark, declaredOn, waitsBelow]

end

/-- Blank lines and comments do not influence what is found.  Where no line runs on over a
backslash, a blank line or, outside of block comments, a line comment that does not run on itself
moves the declarations below it by one line; the line that a template head hides stays hidden.  A
comment behind the code of a line that opens no comment, leaves no literal open and ends neither
in a slash nor in a backslash changes nothing. -/
theorem scan_passes_over_remarks (content other : Text) :
    (∀ (front back : List Text) (added : Text),
      lines content = front ++ back →
      lines other = front ++ added :: back →
      (∀ last ∈ front.getLast?, endsInBackslash last = false) →
      IsRemark (Carry.none.afterAll front).inComment added →
        scan other = (scan content).map (Declaration.makeRoom front.length) ∧
        ∀ above head between line below,
          classifiedLines content =
            above ++ (head, .code) :: (between ++ (line, .code) :: below) →
          IsBareHead (codeOf head) →
          (∀ entry ∈ between, IsPassedOver entry) →
            ∀ declaration ∈ scan other,
              declaration.line ≠
                numberAfterInsert front.length (above.length + between.length + 1)) ∧
    ∀ (front back : List Text) (line remark : Text),
      lines content = front ++ line :: back →
      lines other = front ++ (line ++ ("//".toList ++ remark)) :: back →
      (classify (lines content))[front.length]? = some .code →
      TakesComment line →
      endsInBackslash remark = false →
        scan other = scan content := by
  constructor
  · intro front back added before after whole isRemark
    have moved := scan_insert before after whole isRemark
    exact ⟨moved, fun above head between line below => line_ne_of_hidden moved⟩
  · intro front back line remark before after isCode takes whole
    exact scan_append_comment before after isCode takes whole

/-- A template over a class, and a class of its own. -/
def hiddenAndFound : Text :=
  "template<typename T>\nclass Widget \x7b\nclass Gadget;\n".toList

/-- The same with a line comment below the head. -/
def noteBelowHead : Text :=
  "template<typename T>\n  // note\nclass Widget \x7b\nclass Gadget;\n".toList

/-- The same with a comment behind the class of its own. -/
def noteBehindCode : Text :=
  "template<typename T>\nclass Widget \x7b\nclass Gadget;// note\n".toList

theorem scan_passes_over_remarks_of_hiddenAndFound :
    scan hiddenAndFound = [⟨"Gadget".toList, .classType, 2⟩] ∧
      scan noteBelowHead = [⟨"Gadget".toList, .classType, 3⟩] ∧
      (∀ declaration ∈ scan noteBelowHead, declaration.line ≠ 2) ∧
      scan noteBehindCode = scan hiddenAndFound := by
  have found : scan hiddenAndFound = [⟨"Gadget".toList, .classType, 2⟩] := by
    decide +kernel
  have insertion :=
    (scan_passes_over_remarks hiddenAndFound noteBelowHead).1
      ["template<typename T>".toList] ["class Widget \x7b".toList, "class Gadget;".toList]
      "  // note".toList (by decide +kernel) (by decide +kernel) (by decide)
      (.comment (by decide) ⟨" note".toList, by decide⟩ (by decide))
  refine ⟨found, ?_, ?_, ?_⟩
  · rw [insertion.1, found]
    rfl
  · apply insertion.2 [] "template<typename T>".toList [] "class Widget \x7b".toList
      [("class Gadget;".toList, .code)]
    · decide +kernel
    · have code : codeOf "template<typename T>".toList = "template<typename T>".toList := by
        decide +kernel
      rw [code]
      exact ⟨⟨[], "<typename T>".toList, rfl, by simp⟩, by simp⟩
    · simp
  · apply (scan_passes_over_remarks hiddenAndFound noteBehindCode).2
      ["template<typename T>".toList, "class Widget \x7b".toList] [] "class Gadget;".toList
      " note".toList
    · decide +kernel
    · decide +kernel
    · decide +kernel
    · have ends : ReaderState.read .code "class Gadget;".toList = .code := by decide +kernel
      constructor
      case noOpener => decide +kernel
      case closed =>
        rw [ends]
        rintro ⟨quote, inside | inside⟩ <;> cases inside
      case noSlash => decide
      case whole => decide
    · decide

end Upkeep
