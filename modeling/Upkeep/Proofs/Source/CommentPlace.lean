import Upkeep.Proofs.Source.Comment
import Upkeep.Proofs.Text.Bytes

/-!
Where the code of a line ends.  It ends where the first `//` begins that no literal hides, for a
reader that goes through the characters one by one.  A search through the bytes of the line finds
the same place, although it may pass from inside of a character to the next one, and this place
lies between two characters.
-/

namespace Upkeep

/-- What a reader that looks for line comments is inside of. -/
inductive LiteralState where
  | outside
  | inside (quote : Char)
  | escape (quote : Char)
  deriving DecidableEq, Repr

namespace LiteralState

/-- A literal ends with the quote that opened it, and a backslash in it hides the next
character. -/
def next : LiteralState → Char → LiteralState
  | .outside, c => if isQuote c then .inside c else .outside
  | .inside quote, c =>
      if c = '\\' then .escape quote
      else if c = quote then .outside
      else .inside quote
  | .escape quote, _ => .inside quote

/-- Whether a reader of a line meets a `//` outside literals at a place of the line. -/
def MeetsComment (state : LiteralState) (line : Text) (place : Nat) : Prop :=
  (line.take place).foldl next state = .outside ∧ "//".toList <+: line.drop place

/-- Whether a reader goes through the start of a line that is so many characters long without
meeting a comment. -/
def ReadsOn (state : LiteralState) (line : Text) (length : Nat) : Prop :=
  ∀ place < length, ¬ state.MeetsComment line place

def ofQuote : Option Char → LiteralState
  | none => .outside
  | some quote => .inside quote

variable {state : LiteralState} {c : Char} {rest : Text} {length : Nat}

theorem readsOn_zero (state : LiteralState) (line : Text) : state.ReadsOn line 0 := by
  intro place before
  exact absurd before (Nat.not_lt_zero place)

theorem readsOn_succ_iff :
    state.ReadsOn (c :: rest) (length + 1) ↔
      ¬ (state = .outside ∧ "//".toList <+: c :: rest) ∧ (state.next c).ReadsOn rest length := by
  constructor
  · intro reads
    exact ⟨reads 0 (Nat.zero_lt_succ length), fun place before =>
      reads (place + 1) (Nat.succ_lt_succ before)⟩
  · rintro ⟨first, later⟩ place before
    cases place with
    | zero => exact first
    | succ place => exact later place (Nat.lt_of_succ_lt_succ before)

/-- A character that begins no comment is read, and the reader goes on behind it. -/
theorem readsOn_cons_iff_isPrefix
    {start kept : Text}
    (isStart : start <+: c :: rest)
    (noComment : ¬ (state = .outside ∧ "//".toList <+: c :: rest))
    (later : ∀ {start : Text}, start <+: rest →
      ((state.next c).ReadsOn rest start.length ↔ start <+: kept)) :
    state.ReadsOn (c :: rest) start.length ↔ start <+: c :: kept := by
  cases start with
  | nil => simp [readsOn_zero]
  | cons d start =>
      obtain ⟨rfl, inRest⟩ := List.cons_prefix_cons.1 isStart
      rw [List.length_cons, readsOn_succ_iff, List.cons_prefix_cons, later inRest,
        and_iff_right noComment, and_iff_right rfl]

theorem next_inside
    {quote : Char}
    (plain : c ≠ '\\') :
    (LiteralState.inside quote).next c = ofQuote (if c = quote then none else some quote) := by
  rw [next, if_neg plain]
  split <;> rfl

theorem next_outside (c : Char) :
    LiteralState.outside.next c = ofQuote (if isQuote c then some c else none) := by
  rw [next]
  split <;> rfl

end LiteralState

open LiteralState

/-- The code of a line is the longest start of it that is read without meeting a comment. -/
theorem readsOn_iff_isPrefix_codeFrom
    {start line : Text}
    (isStart : start <+: line) (quote : Option Char) :
    (ofQuote quote).ReadsOn line start.length ↔ start <+: codeFrom quote line := by
  fun_induction codeFrom quote line generalizing start with
  | case1 quote =>
      obtain rfl := List.prefix_nil.1 isStart
      simp [readsOn_zero]
  | case2 quote =>
      apply readsOn_cons_iff_isPrefix isStart (by simp [ofQuote])
      intro start isStart
      obtain rfl := List.prefix_nil.1 isStart
      simp [readsOn_zero]
  | case3 quote c rest inductionHypothesis =>
      apply readsOn_cons_iff_isPrefix isStart (by simp [ofQuote])
      intro start isStart
      exact readsOn_cons_iff_isPrefix isStart (by simp [ofQuote, next]) inductionHypothesis
  | case4 quote c rest notLast notEscape inductionHypothesis =>
      apply readsOn_cons_iff_isPrefix isStart (by simp [ofQuote])
      rw [ofQuote, next_inside (ne_backslash notLast notEscape)]
      exact inductionHypothesis
  | case5 rest =>
      cases start with
      | nil => simp [readsOn_zero]
      | cons c start => simp [readsOn_succ_iff, ofQuote]
  | case6 c rest noComment inductionHypothesis =>
      apply readsOn_cons_iff_isPrefix isStart
      · rintro ⟨-, tail, starts⟩
        obtain ⟨rfl, more⟩ := List.cons.inj starts
        exact noComment tail rfl more.symm
      · rw [ofQuote, next_outside]
        exact inductionHypothesis

/-- The place of the first `//` outside literals, looked for byte by byte from a place on, with
the quote of the literal that is open there.  A backslash in a literal hides one byte, which may
leave the search inside of a character or behind the end. -/
def commentPlace? (bytes : List UInt8) (quote : Option UInt8) (place : Nat) : Option Nat :=
  if inside : place < bytes.length then
    match quote with
    | some opener =>
        if bytes[place] = '\\'.toUInt8 then commentPlace? bytes (some opener) (place + 2)
        else commentPlace? bytes (if bytes[place] = opener then none else some opener) (place + 1)
    | none =>
        if bytes[place] = '/'.toUInt8 ∧ bytes[place + 1]? = some '/'.toUInt8 then some place
        else
          commentPlace? bytes
            (if bytes[place] = '"'.toUInt8 ∨ bytes[place] = '\''.toUInt8 then some bytes[place]
              else none)
            (place + 1)
  else none
termination_by bytes.length - place

/-- The code of a line by the place of its comment.  Where this place were not between two
characters, the whole line would count as code. -/
def codeByPlace (line : Text) : Text :=
  match commentPlace? (bytesOf line) none 0 with
  | some place => (textBefore? line place).getD line
  | none => line

section

variable {bytes skipped rest : List UInt8} {byte opener : UInt8} {quote : Option UInt8}
  {place : Nat}

theorem commentPlace?_of_drop_nil (ends : bytes.drop place = []) :
    commentPlace? bytes quote place = none := by
  rw [commentPlace?, dif_neg (Nat.not_lt.2 (List.drop_eq_nil_iff.1 ends))]

theorem getElem?_of_drop
    (here : bytes.drop place = byte :: rest) :
    bytes[place]? = some byte ∧ bytes[place + 1]? = rest.head? ∧ bytes.drop (place + 1) = rest := by
  refine ⟨?_, ?_, ?_⟩
  · rw [← List.head?_drop, here, List.head?_cons]
  · rw [← List.head?_drop, ← List.drop_drop, here, List.drop_one, List.tail_cons]
  · rw [← List.drop_drop, here, List.drop_one, List.tail_cons]

theorem commentPlace?_inside (here : bytes.drop place = byte :: rest) :
    commentPlace? bytes (some opener) place =
      if byte = '\\'.toUInt8 then commentPlace? bytes (some opener) (place + 2)
      else commentPlace? bytes (if byte = opener then none else some opener) (place + 1) := by
  obtain ⟨inside, same⟩ := List.getElem?_eq_some_iff.1 (getElem?_of_drop here).1
  rw [commentPlace?, dif_pos inside]
  simp only [same]

theorem commentPlace?_outside (here : bytes.drop place = byte :: rest) :
    commentPlace? bytes none place =
      if byte = '/'.toUInt8 ∧ rest.head? = some '/'.toUInt8 then some place
      else
        commentPlace? bytes
          (if byte = '"'.toUInt8 ∨ byte = '\''.toUInt8 then some byte else none) (place + 1) := by
  obtain ⟨inside, same⟩ := List.getElem?_eq_some_iff.1 (getElem?_of_drop here).1
  rw [commentPlace?, dif_pos inside]
  simp only [same, (getElem?_of_drop here).2.1]

/-- The search passes over bytes that are no characters of their own. -/
theorem commentPlace?_skip
    (wide : ∀ byte ∈ skipped, 128 ≤ byte.toNat)
    (ascii : ∀ opener ∈ quote, opener.toNat < 128)
    (here : bytes.drop place = skipped ++ rest) :
    commentPlace? bytes quote place = commentPlace? bytes quote (place + skipped.length) := by
  induction skipped generalizing place with
  | nil => rfl
  | cons byte skipped inductionHypothesis =>
      rw [List.forall_mem_cons] at wide
      have ne_of_ascii {mark : UInt8} (small : mark.toNat < 128) : byte ≠ mark := by
        rintro rfl
        exact absurd small (Nat.not_lt.2 wide.1)
      have step : commentPlace? bytes quote place = commentPlace? bytes quote (place + 1) := by
        cases quote with
        | some opener =>
            rw [commentPlace?_inside here, if_neg (ne_of_ascii (by decide)),
              if_neg (ne_of_ascii (ascii opener rfl))]
        | none =>
            rw [commentPlace?_outside here, if_neg fun both => ne_of_ascii (by decide) both.1,
              if_neg (not_or.2 ⟨ne_of_ascii (by decide), ne_of_ascii (by decide)⟩)]
      rw [step, inductionHypothesis wide.2 (getElem?_of_drop here).2.2, List.length_cons,
        Nat.add_assoc, Nat.add_comm 1]

end

theorem isQuote_iff {c : Char} : isQuote c = true ↔ c = '"' ∨ c = '\'' := by
  simp [isQuote]

theorem toNat_lt_of_isQuote {c : Char} (quote : isQuote c = true) : c.toNat < 128 := by
  rcases isQuote_iff.1 quote with rfl | rfl <;> decide

/-- The quote of a literal that is open behind a character. -/
theorem isQuote_of_mem_inside
    {quote : Char}
    (isOpener : isQuote quote = true) (c : Char) :
    ∀ d ∈ (if c = quote then none else some quote), isQuote d = true := by
  intro d member
  split at member
  · cases member
  · obtain rfl := Option.mem_some_iff.1 member
    exact isOpener

theorem isQuote_of_mem_outside (c : Char) :
    ∀ d ∈ (if isQuote c then some c else none), isQuote d = true := by
  intro d member
  split at member
  next isOpener =>
    obtain rfl := Option.mem_some_iff.1 member
    exact isOpener
  next => cases member

theorem toNat_lt_of_mem_openers
    {quote : Option Char}
    (quotes : ∀ c ∈ quote, isQuote c = true) :
    ∀ opener ∈ quote.map Char.toUInt8, opener.toNat < 128 := by
  intro opener member
  obtain ⟨c, isOpen, rfl⟩ := Option.map_eq_some_iff.1 member
  have ascii := toNat_lt_of_isQuote (quotes c isOpen)
  rwa [(eq_toUInt8_iff ascii).1 rfl]

section

variable {bytes : List UInt8} {place : Nat} {c quote : Char} {line : Text}

theorem drop_behind_char (here : bytes.drop place = bytesOf (c :: line)) :
    bytes.drop (place + (String.utf8EncodeChar c).length) = bytesOf line := by
  rw [← List.drop_drop, here, bytesOf_cons, List.drop_left]

theorem drop_eq_cons
    {first : UInt8} {others : List UInt8}
    (here : bytes.drop place = bytesOf (c :: line))
    (encoded : String.utf8EncodeChar c = first :: others) :
    bytes.drop place = first :: (others ++ bytesOf line) := by
  rw [here, bytesOf_cons, encoded, List.cons_append]

/-- Behind the first byte of a character the search goes on as behind the character. -/
theorem commentPlace?_behind
    {opener : Option UInt8}
    (ascii : ∀ mark ∈ opener, mark.toNat < 128)
    (here : bytes.drop place = bytesOf (c :: line)) :
    commentPlace? bytes opener (place + 1) =
      commentPlace? bytes opener (place + (String.utf8EncodeChar c).length) := by
  obtain ⟨first, others, encoded, wide, -⟩ := utf8EncodeChar_eq_cons c
  have others_ := (getElem?_of_drop (drop_eq_cons here encoded)).2.2
  rw [commentPlace?_skip wide ascii others_, encoded, List.length_cons, Nat.add_assoc,
    Nat.add_comm 1]

theorem commentPlace?_escape
    (here : bytes.drop place = bytesOf ('\\' :: line)) (opener : UInt8) :
    commentPlace? bytes (some opener) place = commentPlace? bytes (some opener) (place + 2) := by
  rw [commentPlace?_inside (here.trans (bytesOf_cons _ _))]
  exact if_pos rfl

theorem commentPlace?_inside_char
    (isOpener : isQuote quote = true)
    (plain : c ≠ '\\')
    (here : bytes.drop place = bytesOf (c :: line)) :
    commentPlace? bytes (some quote.toUInt8) place =
      commentPlace? bytes ((if c = quote then none else some quote).map Char.toUInt8)
        (place + (String.utf8EncodeChar c).length) := by
  have ascii := toNat_lt_of_mem_openers (isQuote_of_mem_inside isOpener c)
  obtain ⟨first, others, encoded, -, same⟩ := utf8EncodeChar_eq_cons c
  rw [← commentPlace?_behind ascii here, commentPlace?_inside (drop_eq_cons here encoded),
    if_neg ((same '\\' (by decide)).not.2 plain)]
  simp only [same quote (toNat_lt_of_isQuote isOpener)]
  by_cases closes : c = quote
  · rw [if_pos closes, if_pos closes]
    rfl
  · rw [if_neg closes, if_neg closes]
    rfl

theorem head?_bytesOf_iff
    {d : Char}
    (ascii : d.toNat < 128) :
    (bytesOf line).head? = some d.toUInt8 ↔ line.head? = some d := by
  cases line with
  | nil => simp
  | cons c rest =>
      obtain ⟨first, others, encoded, -, same⟩ := utf8EncodeChar_eq_cons c
      simp [encoded, same d ascii]

theorem commentPlace?_outside_char
    (noComment : ¬ (c = '/' ∧ line.head? = some '/'))
    (here : bytes.drop place = bytesOf (c :: line)) :
    commentPlace? bytes none place =
      commentPlace? bytes ((if isQuote c then some c else none).map Char.toUInt8)
        (place + (String.utf8EncodeChar c).length) := by
  have ascii := toNat_lt_of_mem_openers (isQuote_of_mem_outside c)
  obtain ⟨first, others, encoded, -, same⟩ := utf8EncodeChar_eq_cons c
  have noMark : ¬ (first = '/'.toUInt8 ∧ (others ++ bytesOf line).head? = some '/'.toUInt8) := by
    rintro ⟨slash, more⟩
    obtain rfl := (same '/' (by decide)).1 slash
    have alone : others = [] := (List.cons.inj encoded).2.symm
    rw [alone, List.nil_append, head?_bytesOf_iff (by decide)] at more
    exact noComment ⟨rfl, more⟩
  rw [← commentPlace?_behind ascii here, commentPlace?_outside (drop_eq_cons here encoded),
    if_neg noMark]
  simp only [same '"' (by decide), same '\'' (by decide), ← isQuote_iff]
  by_cases opens : isQuote c = true
  · rw [if_pos opens, if_pos opens, (same c (toNat_lt_of_isQuote opens)).2 rfl]
    rfl
  · rw [if_neg opens, if_neg opens]
    rfl

end

/-- The place behind the code of a line whose first byte is at a place, if a comment ends it. -/
def endOfCode? (code line : Text) (place : Nat) : Option Nat :=
  if code = line then none else some (place + (bytesOf code).length)

theorem endOfCode?_cons (c : Char) (code line : Text) (place : Nat) :
    endOfCode? (c :: code) (c :: line) place =
      endOfCode? code line (place + (String.utf8EncodeChar c).length) := by
  simp [endOfCode?, Nat.add_assoc]

/-- Byte by byte the search finds the place behind the code, whatever place of the bytes the line
stands at. -/
theorem commentPlace?_eq_endOfCode?
    {bytes : List UInt8} {place : Nat} {line : Text} {quote : Option Char}
    (quotes : ∀ c ∈ quote, isQuote c = true)
    (here : bytes.drop place = bytesOf line) :
    commentPlace? bytes (quote.map Char.toUInt8) place =
      endOfCode? (codeFrom quote line) line place := by
  fun_induction codeFrom quote line generalizing place with
  | case1 quote =>
      rw [bytesOf_nil] at here
      rw [commentPlace?_of_drop_nil here, endOfCode?, if_pos rfl]
  | case2 quote =>
      -- The byte that the backslash hides is the one behind the end.
      have ends : bytes.drop (place + 2) = [] := by
        rw [← List.drop_drop, here]
        rfl
      rw [Option.map_some, commentPlace?_escape here, commentPlace?_of_drop_nil ends, endOfCode?,
        if_pos rfl]
  | case3 quote c rest inductionHypothesis =>
      -- The search may go on inside of the hidden character, but it leaves it as a reader does.
      have hidden : bytes.drop (place + 1) = bytesOf (c :: rest) := drop_behind_char here
      have ascii := toNat_lt_of_mem_openers quotes
      have behind := commentPlace?_behind ascii hidden
      rw [inductionHypothesis quotes (drop_behind_char hidden)] at behind
      rw [endOfCode?_cons, endOfCode?_cons, Option.map_some, commentPlace?_escape here]
      exact behind
  | case4 quote c rest notLast notEscape inductionHypothesis =>
      have plain := ne_backslash notLast notEscape
      have isOpener := quotes quote rfl
      rw [endOfCode?_cons,
        ← inductionHypothesis (isQuote_of_mem_inside isOpener c) (drop_behind_char here)]
      exact commentPlace?_inside_char isOpener plain here
  | case5 rest =>
      rw [Option.map_none, commentPlace?_outside (here.trans (bytesOf_cons _ _)),
        if_pos ⟨rfl, by rw [bytesOf_cons]; rfl⟩]
      simp [endOfCode?]
  | case6 c rest noComment inductionHypothesis =>
      rw [endOfCode?_cons, ← inductionHypothesis (isQuote_of_mem_outside c) (drop_behind_char here)]
      apply commentPlace?_outside_char _ here
      rintro ⟨isSlash, starts⟩
      obtain ⟨tail, rfl⟩ := List.head?_eq_some_iff.1 starts
      exact noComment tail isSlash rfl

/-- The place that the search finds is the one behind the code, between two characters. -/
theorem commentPlace?_eq (line : Text) :
    commentPlace? (bytesOf line) none 0 =
      if codeOf line = line then none else some (bytesOf (codeOf line)).length := by
  have found : commentPlace? (bytesOf line) none 0 = endOfCode? (codeOf line) line 0 :=
    commentPlace?_eq_endOfCode? (by simp : ∀ c ∈ (none : Option Char), isQuote c = true) rfl
  rw [found, endOfCode?, Nat.zero_add]

theorem textBefore?_of_commentPlace?
    {line : Text} {place : Nat}
    (found : commentPlace? (bytesOf line) none 0 = some place) :
    String.Pos.Raw.IsValid (String.ofList line) ⟨place⟩ ∧
      textBefore? line place = some (codeOf line) := by
  rw [commentPlace?_eq] at found
  split at found
  · cases found
  · obtain rfl := Option.some.inj found
    obtain ⟨comment, whole⟩ := codeFrom_isPrefix none line
    have split : line = codeOf line ++ comment := whole.symm
    constructor
    · conv => arg 1; rw [split]
      exact isValid_append (codeOf line) comment
    · conv => lhs; arg 1; rw [split]
      exact textBefore?_append (codeOf line) comment

/-- The code of a line is the longest start of it that a reader of its characters goes through
without meeting a `//` outside literals, where a `//` is met as soon as it begins.  The search
through its bytes ends at the place behind that start, which lies between two characters, so that
it never has to take the whole line instead.  What was found to be code stays code. -/
theorem codeOf_ends_at_first_comment (line : Text) :
    codeOf line <+: line ∧
    (∀ start, start <+: line →
      (LiteralState.outside.ReadsOn line start.length ↔ start <+: codeOf line)) ∧
    commentPlace? (bytesOf line) none 0 =
      (if codeOf line = line then none else some (bytesOf (codeOf line)).length) ∧
    (∀ place, commentPlace? (bytesOf line) none 0 = some place →
      String.Pos.Raw.IsValid (String.ofList line) ⟨place⟩ ∧
        textBefore? line place = some (codeOf line)) ∧
    codeByPlace line = codeOf line ∧
    codeOf (codeOf line) = codeOf line := by
  refine ⟨codeFrom_isPrefix none line, fun start isStart => ?_, commentPlace?_eq line,
    fun place => textBefore?_of_commentPlace?, ?_, codeOf_codeOf line⟩
  · exact readsOn_iff_isPrefix_codeFrom isStart none
  · unfold codeByPlace
    split
    next place found => rw [(textBefore?_of_commentPlace? found).2, Option.getD_some]
    next none_ =>
      rw [commentPlace?_eq] at none_
      split at none_
      next whole => exact whole.symm
      · cases none_

/-- A backslash hides the first byte of a character of two, and the quote in the comment is not
closed. -/
def accentedLine : Text :=
  "f(\"\\é//\", 'ß'); // \"é".toList

theorem codeOf_ends_at_first_comment_of_accentedLine :
    codeOf accentedLine = "f(\"\\é//\", 'ß'); ".toList ∧
      LiteralState.outside.ReadsOn accentedLine 16 ∧
      ¬ LiteralState.outside.ReadsOn accentedLine 17 ∧
      commentPlace? (bytesOf accentedLine) none 0 = some 18 ∧
      String.Pos.Raw.IsValid (String.ofList accentedLine) ⟨18⟩ ∧
      textBefore? accentedLine 18 = some "f(\"\\é//\", 'ß'); ".toList := by
  have code : codeOf accentedLine = "f(\"\\é//\", 'ß'); ".toList := by decide +kernel
  have size : (bytesOf "f(\"\\é//\", 'ß'); ".toList).length = 18 := by decide +kernel
  have commented : ¬ "f(\"\\é//\", 'ß'); ".toList = accentedLine := by decide +kernel
  obtain ⟨-, longest, place, between, -, -⟩ := codeOf_ends_at_first_comment accentedLine
  rw [code, if_neg commented, size] at place
  obtain ⟨valid, before⟩ := between 18 place
  rw [code] at longest before
  refine ⟨code, ?_, ?_, place, valid, before⟩
  · exact (longest (accentedLine.take 16) (List.take_prefix _ _)).2 (by decide +kernel)
  · intro reads
    have more := (longest (accentedLine.take 17) (List.take_prefix _ _)).1 reads
    exact absurd more (by decide +kernel)

end Upkeep
