import Upkeep.Proofs.Text.Parts
import Upkeep.Rule.Constify.Declarator

/-!
The head of a prototype as it is read for a declaration: a type, what separates it from a name, and
the list that follows the name in parentheses.
-/

namespace Upkeep

open Unicode

variable {text rest name place : Text}

/-- What can stand between a type and a name: blanks, or stars and ampersands with blanks around
them. -/
def IsSeparator (text : Text) : Prop :=
  IsGap text ∨ ∃ before marks behind, text = before ++ (marks ++ behind) ∧
    (∀ c ∈ before, isBlank c = true) ∧ (marks ≠ [] ∧ ∀ c ∈ marks, isIndirection c = true) ∧
      ∀ c ∈ behind, isBlank c = true

theorem isWord_eq_false_of_isIndirection
    {c : Char}
    (isMark : isIndirection c = true) :
    isWord c = false := by
  simp only [isIndirection, Bool.or_eq_true, beq_iff_eq] at isMark
  rcases isMark with rfl | rfl <;> decide

theorem isBlank_eq_false_of_isIndirection
    {c : Char}
    (isMark : isIndirection c = true) :
    isBlank c = false := by
  simp only [isIndirection, Bool.or_eq_true, beq_iff_eq] at isMark
  rcases isMark with rfl | rfl <;> decide

/-- Behind a separator the name is read. -/
theorem IsSeparator.separator?_append
    {separator : Text}
    (isSeparator : IsSeparator separator)
    (isIdent : IsIdent name) (rest : Text) :
    separator? (separator ++ (name ++ rest)) = some (name ++ rest) := by
  have solid := isIdent.trimStart_append rest
  obtain ⟨c, more, rfl, starts, _⟩ := isIdent
  have noMark : isIndirection c = false := by
    by_contra isMark
    rw [Bool.not_eq_false] at isMark
    have outside := isWord_eq_false_of_isIndirection isMark
    simp [isWord_of_isIdentStart starts] at outside
  rcases isSeparator with isGap | ⟨before, marks, behind, rfl, blankBefore, areMarks, blankBehind⟩
  · have read := gap?_complete isGap ((c :: more) ++ rest)
    rw [solid] at read
    rw [separator?, trimStart_append_of_isBlank isGap.2, solid, List.cons_append]
    dsimp only
    rw [if_neg (by simp [noMark]), ← List.cons_append, read]
  · obtain ⟨mark, others, rfl⟩ := List.exists_cons_of_ne_nil areMarks.1
    have isMark := areMarks.2 mark (by simp)
    have trimmed : trimStart (before ++ ((mark :: others) ++ (behind ++ ((c :: more) ++ rest)))) =
        (mark :: others) ++ (behind ++ ((c :: more) ++ rest)) := by
      rw [trimStart_append_of_isBlank blankBefore]
      exact trimStart_eq_self (by simpa using isBlank_eq_false_of_isIndirection isMark)
    have dropped : (behind ++ ((c :: more) ++ rest)).dropWhile isIndirection =
        behind ++ ((c :: more) ++ rest) := by
      cases behind with
      | nil => rw [List.nil_append, List.cons_append, List.dropWhile_cons_of_neg (by simp [noMark])]
      | cons blank behind =>
          rw [List.cons_append, List.dropWhile_cons_of_neg]
          intro isMark
          have solidMark := isBlank_eq_false_of_isIndirection isMark
          simp [blankBehind blank (by simp)] at solidMark
    rw [List.append_assoc, List.append_assoc, separator?, trimmed, List.cons_append]
    dsimp only
    rw [if_pos isMark, ← List.cons_append, List.dropWhile_append_of_pos areMarks.2, dropped,
      trimStart_append_of_isBlank blankBehind, solid]

theorem IsSeparator.mem
    {separator : Text} {c : Char}
    (isSeparator : IsSeparator separator)
    (member : c ∈ separator) :
    isBlank c = true ∨ isIndirection c = true := by
  rcases isSeparator with isGap | ⟨before, marks, behind, rfl, blankBefore, areMarks, blankBehind⟩
  · exact .inl (isGap.2 c member)
  · simp only [List.mem_append] at member
    rcases member with inFront | inMarks | inBack
    · exact .inl (blankBefore c inFront)
    · exact .inr (areMarks.2 c inMarks)
    · exact .inl (blankBehind c inBack)

theorem IsSeparator.head?_trimStart
    {separator : Text}
    (isSeparator : IsSeparator separator)
    (isIdent : IsIdent name) (rest : Text) :
    ∀ c ∈ (trimStart (separator ++ (name ++ rest))).head?,
      isIdentStart c = true ∨ isIndirection c = true := by
  rcases isSeparator with isGap | ⟨before, marks, behind, rfl, blankBefore, areMarks, blankBehind⟩
  · rw [trimStart_append_of_isBlank isGap.2, isIdent.trimStart_append]
    obtain ⟨c, more, rfl, starts, _⟩ := isIdent
    simp [starts]
  · obtain ⟨mark, others, rfl⟩ := List.exists_cons_of_ne_nil areMarks.1
    have isMark := areMarks.2 mark (by simp)
    rw [List.append_assoc, trimStart_append_of_isBlank blankBefore, List.append_assoc,
      List.cons_append, trimStart_eq_self (by simpa using isBlank_eq_false_of_isIndirection isMark)]
    simp [isMark]

theorem IsSeparator.head?_append
    {separator : Text}
    (isSeparator : IsSeparator separator) (rest : Text) :
    ∀ c ∈ (separator ++ rest).head?, isBlank c = true ∨ isIndirection c = true := by
  have nonempty : separator ≠ [] := by
    rcases isSeparator with isGap | ⟨before, marks, behind, rfl, _, areMarks, _⟩
    · exact isGap.1
    · simp [areMarks.1]
  intro c first
  rw [List.head?_append_of_ne_nil _ nonempty] at first
  exact isSeparator.mem (List.mem_of_head? first)

/-- Type arguments between angle brackets, with the blanks in front of them, if there are any. -/
def argumentText : Option (Text × Text) → Text
  | none => []
  | some (blanks, inner) => blanks ++ ('<' :: (inner ++ ['>']))

theorem head?_argumentText_append
    {arguments : Option (Text × Text)}
    (blank : ∀ entry ∈ arguments, ∀ c ∈ entry.1, isBlank c = true) (rest : Text) :
    ∀ c ∈ (argumentText arguments ++ rest).head?,
      (isBlank c = true ∨ c = '<') ∨ c ∈ rest.head? := by
  intro c first
  cases arguments with
  | none => exact .inr first
  | some entry =>
      obtain ⟨blanks, inner⟩ := entry
      cases blanks with
      | nil => exact .inl (.inr (by simpa [argumentText, eq_comm] using first))
      | cons d blanks =>
          obtain rfl : d = c := by simpa [argumentText] using first
          exact .inl (.inl (blank _ rfl d (by simp)))

/-- The name of a type ends at its arguments or at the separator behind it. -/
theorem head?_behind_type
    {arguments : Option (Text × Text)} {separator : Text}
    (blank : ∀ entry ∈ arguments, ∀ c ∈ entry.1, isBlank c = true)
    (isSeparator : IsSeparator separator) (rest : Text) :
    ∀ c ∈ (argumentText arguments ++ (separator ++ rest)).head?, isWord c = false ∧ c ≠ ':' := by
  intro c first
  rcases head?_argumentText_append blank _ c first with (isBlank | rfl) | first
  · exact ⟨isWord_eq_false_of_isBlank isBlank, ne_of_isBlank isBlank (by decide)⟩
  · decide
  · rcases isSeparator.head?_append rest c first with isBlank | isMark
    · exact ⟨isWord_eq_false_of_isBlank isBlank, ne_of_isBlank isBlank (by decide)⟩
    · refine ⟨isWord_eq_false_of_isIndirection isMark, ?_⟩
      rintro rfl
      exact absurd isMark (by decide)

section

variable {allowed : Char → Bool} {front behind : Text}

/-- The bracket behind an allowed text is found, and only those behind it come earlier. -/
theorem afterClosings_append
    (inside : ∀ c ∈ front, allowed c = true)
    (closing : allowed '>' = true) (behind : Text) :
    ∃ inner, afterClosings allowed (front ++ '>' :: behind) =
      afterClosings allowed behind ++ behind :: inner := by
  induction front with
  | nil => exact ⟨[], by simp [afterClosings, closing]⟩
  | cons c front inductionHypothesis =>
      rw [List.forall_mem_cons] at inside
      obtain ⟨inner, places⟩ := inductionHypothesis inside.2
      rw [List.cons_append, afterClosings, if_pos inside.1, places]
      exact ⟨inner ++ if c = '>' then [front ++ '>' :: behind] else [], by simp⟩

theorem isSuffix_of_notMem
    {c : Char}
    (outside : c ∉ front)
    (suffix : c :: place <:+ front ++ behind) :
    c :: place <:+ behind := by
  obtain ⟨before, same⟩ := suffix
  rcases List.append_eq_append_iff.1 same with ⟨middle, split, rest⟩ | ⟨middle, rfl, rest⟩
  · cases middle with
    | nil => exact ⟨[], rest⟩
    | cons d middle =>
        obtain ⟨rfl, _⟩ := List.cons.inj rest
        exact absurd (by simp [split]) outside
  · exact ⟨middle, rest.symm⟩

theorem isSuffix_of_mem_afterClosings
    (member : place ∈ afterClosings allowed text) :
    '>' :: place <:+ text := by
  induction text with
  | nil => simp [afterClosings] at member
  | cons c text inductionHypothesis =>
      rw [afterClosings, List.mem_append] at member
      rcases member with later | here
      · split at later
        · exact (inductionHypothesis later).trans (List.suffix_cons c text)
        · simp at later
      · split at here
        next closing =>
          obtain rfl := List.mem_singleton.1 here
          exact closing ▸ List.suffix_rfl
        · simp at here

/-- Beyond a character that is not allowed no bracket is found. -/
theorem exists_append_of_mem_afterClosings
    {stop : Char}
    (refused : allowed stop = false)
    (noClosing : stop ≠ '>')
    (member : place ∈ afterClosings allowed (front ++ stop :: behind)) :
    ∃ inner, '>' :: inner <:+ front ∧ place = inner ++ stop :: behind := by
  induction front with
  | nil => simp [afterClosings, refused, noClosing] at member
  | cons c front inductionHypothesis =>
      rw [List.cons_append, afterClosings, List.mem_append] at member
      rcases member with later | here
      · split at later
        · obtain ⟨inner, suffix, same⟩ := inductionHypothesis later
          exact ⟨inner, suffix.trans (List.suffix_cons c front), same⟩
        · simp at later
      · split at here
        next closing => exact ⟨front, closing ▸ List.suffix_rfl, List.mem_singleton.1 here⟩
        · simp at here

theorem afterArguments_of_head?
    (noArguments : (trimStart text).head? ≠ some '<') :
    afterArguments allowed text = [text] := by
  rw [afterArguments]
  split
  next inner starts => simp [starts] at noArguments
  · rfl

theorem trimStart_argumentText_append
    {blanks : Text}
    (blank : ∀ c ∈ blanks, isBlank c = true) (inner rest : Text) :
    trimStart (argumentText (some (blanks, inner)) ++ rest) = '<' :: (inner ++ '>' :: rest) := by
  rw [argumentText, List.append_assoc, trimStart_append_of_isBlank blank, List.cons_append,
    List.append_assoc]
  exact trimStart_eq_self (by simp; decide)

theorem afterArguments_some
    (allowed : Char → Bool) {blanks : Text}
    (blank : ∀ c ∈ blanks, isBlank c = true) (inner rest : Text) :
    afterArguments allowed (argumentText (some (blanks, inner)) ++ rest) =
      afterClosings allowed (inner ++ '>' :: rest) ++
        [argumentText (some (blanks, inner)) ++ rest] := by
  rw [afterArguments, trimStart_argumentText_append blank]
  rfl

/-- The end of the arguments is among the places that are read. -/
theorem mem_afterArguments
    {arguments : Option (Text × Text)}
    (blank : ∀ entry ∈ arguments, ∀ c ∈ entry.1, isBlank c = true)
    (inside : ∀ entry ∈ arguments, ∀ c ∈ entry.2, allowed c = true)
    (closing : allowed '>' = true) (rest : Text) :
    rest ∈ afterArguments allowed (argumentText arguments ++ rest) := by
  cases arguments with
  | none =>
      rw [argumentText, List.nil_append, afterArguments]
      split <;> simp
  | some entry =>
      obtain ⟨others, places⟩ := afterClosings_append (inside entry rfl) closing rest
      rw [afterArguments_some allowed (blank entry rfl), places]
      simp

end

/-- What is read of a declaration behind the arguments of its type. -/
def declarator? (text : Text) : Option Text :=
  (separator? text).bind fun rest => (ident? rest).bind fun (_, rest) => initializer? rest

theorem declaratorAfterType?_eq (text : Text) :
    declaratorAfterType? text = (afterArguments (· != ';') text).findSome? declarator? :=
  rfl

/-- A separator, a name and one of the marks that can follow the name of a variable. -/
def IsDeclarator (text : Text) : Prop :=
  ∃ separator name blanks mark rest, text = separator ++ (name ++ (blanks ++ mark :: rest)) ∧
    IsSeparator separator ∧ IsIdent name ∧ (∀ c ∈ blanks, isBlank c = true) ∧
      (mark ∈ "=;([,".toList ∨ mark = '{')

theorem separator?_sound
    (read : separator? text = some rest) :
    ∃ separator, text = separator ++ rest ∧ IsSeparator separator := by
  unfold separator? at read
  split at read
  · simp at read
  next c tail trimmed =>
    split at read
    next isMark =>
      obtain ⟨before, split, blankBefore⟩ := exists_blanks_append_trimStart text
      have marks : (c :: tail).takeWhile isIndirection ++ (c :: tail).dropWhile isIndirection =
          c :: tail := List.takeWhile_append_dropWhile
      generalize behindIs : (c :: tail).dropWhile isIndirection = behind at read marks
      obtain ⟨blanks, splitBehind, blankBehind⟩ := exists_blanks_append_trimStart behind
      refine ⟨before ++ ((c :: tail).takeWhile isIndirection ++ blanks), ?_,
        .inr ⟨_, _, _, rfl, blankBefore, ⟨by simp [isMark], List.all_eq_true.1 List.all_takeWhile⟩,
          blankBehind⟩⟩
      rw [Option.some.injEq] at read
      rw [← read, List.append_assoc, List.append_assoc, ← splitBehind, marks, ← trimmed, ← split]
    · obtain ⟨gap, split, isGap⟩ := gap?_split read
      exact ⟨gap, split, .inl isGap⟩

theorem initializer?_sound
    (read : initializer? text = some rest) :
    ∃ blanks mark tail, text = blanks ++ mark :: tail ∧ (∀ c ∈ blanks, isBlank c = true) ∧
      (mark ∈ "=;([,".toList ∨ mark = '{') := by
  unfold initializer? at read
  split at read
  · simp at read
  next mark tail trimmed =>
    split at read
    next isMark =>
      obtain ⟨blanks, split, blank⟩ := exists_blanks_append_trimStart text
      rw [trimmed] at split
      exact ⟨blanks, mark, tail, split, blank, isMark.imp_left List.contains_iff_mem.1⟩
    · simp at read

theorem declarator?_sound
    (read : declarator? text = some rest) :
    IsDeclarator text := by
  obtain ⟨behind, separated, readBehind⟩ := Option.bind_eq_some_iff.1 read
  obtain ⟨⟨name, after⟩, named, readAfter⟩ := Option.bind_eq_some_iff.1 readBehind
  obtain ⟨separator, rfl, isSeparator⟩ := separator?_sound separated
  obtain ⟨rfl, isIdent, _⟩ := ident?_sound named
  obtain ⟨blanks, mark, tail, rfl, blank, isMark⟩ := initializer?_sound readAfter
  exact ⟨separator, name, blanks, mark, tail, rfl, isSeparator, isIdent, blank, isMark⟩

theorem declarator?_eq_none
    {c : Char}
    (starts : trimStart text = c :: rest)
    (noMark : isIndirection c = false)
    (noName : isIdentStart c = false) :
    declarator? text = none := by
  have unnamed : ident? (c :: rest) = none := ident?_eq_none (by simpa using noName)
  rw [declarator?, separator?, starts]
  dsimp only
  rw [if_neg (by simp [noMark])]
  cases gap : gap? text with
  | none => rfl
  | some behind => rw [eq_trimStart_of_gap? gap, starts, Option.bind_some, unnamed, Option.bind_none]

/-- A name and a list behind it, up to the parenthesis that opens the list. -/
def callText (name blanks rest : Text) : Text :=
  name ++ (blanks ++ '(' :: rest)

section

variable {blanks list : Text}

theorem trimStart_open
    (blank : ∀ c ∈ blanks, isBlank c = true) (list : Text) :
    trimStart (blanks ++ '(' :: list) = '(' :: list := by
  rw [trimStart_append_of_isBlank blank]
  exact trimStart_eq_self (by simp; decide)

theorem endsWord_open
    (blank : ∀ c ∈ blanks, isBlank c = true) (list : Text) :
    EndsWord (blanks ++ '(' :: list) :=
  endsWord_append_of_isBlank blank (endsWord_cons (by decide) list)

theorem declarator?_complete
    {separator : Text}
    (isSeparator : IsSeparator separator)
    (isIdent : IsIdent name)
    (blank : ∀ c ∈ blanks, isBlank c = true)
    (oneLine : '\n' ∉ list) :
    declarator? (separator ++ callText name blanks list) = some ('(' :: list) := by
  have opens : initializer? (blanks ++ '(' :: list) = some ('(' :: list) := by
    rw [initializer?, trimStart_open blank]
    dsimp only
    rw [if_pos (by decide), if_neg (by simpa using oneLine)]
  rw [declarator?, callText, isSeparator.separator?_append isIdent, Option.bind_some,
    ident?_complete isIdent (endsWord_open blank list), Option.bind_some]
  exact opens

/-- No scope mark is read where blanks are followed by something else than a colon. -/
theorem scopeMark?_eq_none
    (noColon : (trimStart text).head? ≠ some ':') :
    scopeMark? text = none := by
  rw [scopeMark?, Option.map_eq_none_iff, Option.eq_none_iff_forall_ne_some]
  intro rest read
  rw [after?_eq_some_iff.1 read] at noColon
  exact noColon rfl

theorem isIdent_of_mem_specifierWords : ∀ word ∈ specifierWords, IsIdent word := by
  decide

/-- A place at which no name begins is the only place that is read, and no declaration is found
there. -/
theorem variableAt?_eq_none_of_head?
    (outside : ∀ c ∈ text.head?, isIdentStart c = false) :
    ∀ place ∈ afterKeywords specifierWords text, variableAt? place = none := by
  have unnamed := ident?_eq_none outside
  have unread : anyKeyword? specifierWords text = none := by
    rw [anyKeyword?, List.findSome?_eq_none_iff]
    intro word isKeyword
    obtain ⟨c, rest, rfl, starts, _⟩ := isIdent_of_mem_specifierWords word isKeyword
    rw [Option.eq_none_iff_forall_ne_some]
    intro next read
    obtain ⟨gap, rfl, _⟩ := keyword?_split read
    simp [starts] at outside
  intro place member
  rw [afterKeywords_eq, unread, List.mem_singleton] at member
  rw [member, variableAt?, qualifiedName?_eq, unnamed, Option.map_none, Option.bind_none]

/-- A place behind specifiers is the start of the text or a place behind its first word. -/
theorem eq_or_mem_of_mem_afterKeywords
    (member : place ∈ afterKeywords specifierWords text) :
    place = text ∨ place ∈ afterKeywords specifierWords (trimStart (afterWord text)) := by
  rw [afterKeywords_eq] at member
  cases read : anyKeyword? specifierWords text with
  | none =>
      rw [read, List.mem_singleton] at member
      exact .inl member
  | some rest =>
      obtain ⟨_, gap⟩ := anyKeyword?_sound
        (fun word isKeyword => (isIdent_of_mem_specifierWords word isKeyword).isWord) read
      rw [read, eq_trimStart_of_gap? gap, List.mem_append, List.mem_singleton] at member
      exact member.symm

/-- No declaration begins with the name in front of a list. -/
theorem variableAt?_eq_none_of_callText
    (isIdent : IsIdent name)
    (blank : ∀ c ∈ blanks, isBlank c = true) (list : Text) :
    ∀ place ∈ afterKeywords specifierWords (callText name blanks list),
      variableAt? place = none := by
  have opens := trimStart_open blank list
  intro place member
  rcases eq_or_mem_of_mem_afterKeywords member with rfl | behind
  · have named : qualifiedName? (callText name blanks list) =
        some ([name], blanks ++ '(' :: list) := by
      apply (QualifiedName.single isIdent).qualifiedName?_append (endsWord_open blank list)
      rw [scopeMark?_eq_none (by simp [opens]), Option.bind_none]
    have unread : declarator? (blanks ++ '(' :: list) = none :=
      declarator?_eq_none opens (by decide) (by decide)
    have noArguments : afterArguments (· != ';') (blanks ++ '(' :: list) =
        [blanks ++ '(' :: list] :=
      afterArguments_of_head? (by simp [opens])
    rw [variableAt?, named, Option.bind_some]
    dsimp only
    rw [declaratorAfterType?_eq, noArguments, List.findSome?_singleton, unread, Option.map_none]
  · rw [callText, afterWord_append isIdent.isWord (endsWord_open blank list), opens] at behind
    exact variableAt?_eq_none_of_head? (by simp; decide) place behind

/-- The head of a prototype, from its type to the parenthesis that opens the list. -/
structure PrototypeHead where
  typeName : List Text
  typeToken : Text
  arguments : Option (Text × Text)
  separator : Text
  name : Text
  gap : Text
  isTypeName : QualifiedName typeName typeToken
  blankArguments : ∀ entry ∈ arguments, ∀ c ∈ entry.1, isBlank c = true
  isSeparator : IsSeparator separator
  isIdent : IsIdent name
  blankGap : ∀ c ∈ gap, isBlank c = true

namespace PrototypeHead

variable (head : PrototypeHead)

/-- What stands behind the name of the type. -/
def declaratorText (list : Text) : Text :=
  argumentText head.arguments ++ (head.separator ++ callText head.name head.gap list)

/-- The head with a list behind it. -/
def textBefore (list : Text) : Text :=
  head.typeToken ++ head.declaratorText list

/-- Whether no other closing angle bracket than that of the arguments has the name of a variable
behind it.  Otherwise the arguments are taken to end there.  The bracket is looked for in the list
or, as far as a semicolon, in the arguments. -/
def IsOwnDeclarator (list : Text) : Prop :=
  ∀ entry ∈ head.arguments,
    if ';' ∈ entry.2 then
      ∀ inner, '>' :: inner <:+ entry.2 →
        ¬ IsDeclarator (inner ++ '>' :: (head.separator ++ callText head.name head.gap list))
    else ∀ place, '>' :: place <:+ list → ¬ IsDeclarator place

theorem head?_trimStart_separator (list : Text) :
    ∀ c ∈ (trimStart (head.separator ++ callText head.name head.gap list)).head?,
      isIdentStart c = true ∨ isIndirection c = true :=
  head.isSeparator.head?_trimStart head.isIdent _

theorem head?_trimStart_declaratorText (list : Text) :
    ∀ c ∈ (trimStart (head.declaratorText list)).head?,
      c = '<' ∨ isIdentStart c = true ∨ isIndirection c = true := by
  unfold declaratorText
  cases arguments : head.arguments with
  | none => exact fun c first => .inr (head.head?_trimStart_separator list c first)
  | some entry =>
      rw [argumentText, List.append_assoc,
        trimStart_append_of_isBlank (head.blankArguments entry arguments), List.cons_append,
        trimStart_eq_self (by simp; decide)]
      simp

/-- The bracket of a place behind the head is one of the list. -/
theorem isSuffix_list
    (suffix : '>' :: place <:+ head.separator ++ callText head.name head.gap list) :
    '>' :: place <:+ list := by
  have outside : '>' ∉ head.separator ++ (head.name ++ (head.gap ++ ['('])) := by
    have notBlank : isBlank '>' = false := by decide
    have notWord : isWord '>' = false := by decide
    simp only [List.mem_append, List.mem_singleton, not_or]
    refine ⟨fun member => ?_, fun member => ?_, fun member => ?_, by decide⟩
    · rcases head.isSeparator.mem member with blank | isMark
      · simp [blank] at notBlank
      · exact absurd isMark (by decide)
    · simp [head.isIdent.isWord _ member] at notWord
    · simp [head.blankGap _ member] at notBlank
  apply isSuffix_of_notMem outside
  simpa [callText] using suffix

theorem head?_trimStart_separator_ne_angle (list : Text) :
    (trimStart (head.separator ++ callText head.name head.gap list)).head? ≠ some '<' := by
  intro starts
  rcases head.head?_trimStart_separator list '<' starts with isStart | isMark
  · exact absurd isStart (by decide)
  · exact absurd isMark (by decide)

/-- Behind the type the list is all that can be found. -/
theorem rest_of_declaratorAfterType?
    (oneLine : '\n' ∉ list)
    (own : head.IsOwnDeclarator list)
    (read : declaratorAfterType? (head.declaratorText list) = some rest) :
    rest = '(' :: list := by
  have complete :=
    declarator?_complete head.isSeparator head.isIdent head.blankGap oneLine
  have unread : ∀ {text : Text}, ¬ IsDeclarator text → declarator? text = none := by
    intro text notNamed
    exact Option.eq_none_iff_forall_ne_some.2 fun rest read => notNamed (declarator?_sound read)
  rw [declaratorAfterType?_eq, declaratorText] at read
  cases arguments : head.arguments with
  | none =>
      rw [arguments, argumentText, List.nil_append,
        afterArguments_of_head? (head.head?_trimStart_separator_ne_angle list), List.findSome?_singleton,
        complete, Option.some.injEq] at read
      exact read.symm
  | some entry =>
      have blank := head.blankArguments entry arguments
      have ownHere := own entry arguments
      rw [arguments, afterArguments_some _ blank, List.findSome?_append] at read
      split at ownHere
      next stopped =>
        -- The bracket is looked for in front of the semicolon, where no name follows it.
        obtain ⟨front, back, whole⟩ := List.append_of_mem stopped
        have beforeStop : (afterClosings (· != ';') (entry.2 ++ '>' ::
            (head.separator ++ callText head.name head.gap list))).findSome? declarator? = none := by
          rw [List.findSome?_eq_none_iff]
          intro place member
          rw [whole, List.append_assoc, List.cons_append] at member
          obtain ⟨inner, suffix, rfl⟩ :=
            exists_append_of_mem_afterClosings (by decide) (by decide) member
          have inArguments : '>' :: (inner ++ ';' :: back) <:+ entry.2 := by
            obtain ⟨start, same⟩ := suffix
            exact ⟨start, by rw [whole, ← same]; simp⟩
          have notNamed := unread (ownHere _ inArguments)
          rwa [List.append_assoc, List.cons_append] at notNamed
        have atArguments := declarator?_eq_none (trimStart_argumentText_append blank entry.2
          (head.separator ++ callText head.name head.gap list)) (by decide) (by decide)
        rw [beforeStop, List.findSome?_singleton, atArguments] at read
        simp at read
      next whole =>
        have inside : ∀ c ∈ entry.2, (c != ';') = true := by
          intro c member
          rw [bne_iff_ne]
          rintro rfl
          exact whole member
        obtain ⟨others, places⟩ := afterClosings_append inside (by decide)
          (head.separator ++ callText head.name head.gap list)
        have further : (afterClosings (· != ';')
            (head.separator ++ callText head.name head.gap list)).findSome? declarator? = none := by
          rw [List.findSome?_eq_none_iff]
          intro place member
          exact unread (ownHere place (head.isSuffix_list (isSuffix_of_mem_afterClosings member)))
        rw [places, List.findSome?_append, further, List.findSome?_cons, complete] at read
        simpa using read.symm

theorem endsWord_declaratorText (list : Text) : EndsWord (head.declaratorText list) :=
  fun c first => (head?_behind_type head.blankArguments head.isSeparator _ c first).1

theorem rest_of_variableAt?
    {declared : VariableDeclaration}
    (oneLine : '\n' ∉ list)
    (own : head.IsOwnDeclarator list)
    (read : variableAt? (head.textBefore list) = some declared) :
    declared.rest = '(' :: list := by
  have noColon : (trimStart (head.declaratorText list)).head? ≠ some ':' := by
    intro starts
    rcases head.head?_trimStart_declaratorText list ':' starts with opens | isStart | isMark
    · exact absurd opens (by decide)
    · exact absurd isStart (by decide)
    · exact absurd isMark (by decide)
  have named : qualifiedName? (head.textBefore list) =
      some (head.typeName, head.declaratorText list) := by
    apply head.isTypeName.qualifiedName?_append (head.endsWord_declaratorText list)
    rw [scopeMark?_eq_none noColon, Option.bind_none]
  rw [variableAt?, named, Option.bind_some] at read
  obtain ⟨rest, found, rfl⟩ := Option.map_eq_some_iff.1 read
  exact head.rest_of_declaratorAfterType? oneLine own found

theorem variableAt?_behind_separator
    {place : Text}
    (member : place ∈ afterKeywords specifierWords
      (trimStart (head.separator ++ callText head.name head.gap list))) :
    variableAt? place = none := by
  rcases head.isSeparator with isGap | ⟨before, marks, behind, split, blank, areMarks, _⟩
  · rw [trimStart_append_of_isBlank isGap.2, callText, head.isIdent.trimStart_append,
      ← callText] at member
    exact variableAt?_eq_none_of_callText head.isIdent head.blankGap list place member
  · obtain ⟨mark, others, rfl⟩ := List.exists_cons_of_ne_nil areMarks.1
    have isMark := areMarks.2 mark (by simp)
    have noStart : isIdentStart mark = false := by
      by_contra isStart
      rw [Bool.not_eq_false] at isStart
      have outside := isWord_eq_false_of_isIndirection isMark
      simp [isWord_of_isIdentStart isStart] at outside
    rw [split, List.append_assoc, List.append_assoc, List.cons_append,
      trimStart_append_of_isBlank blank,
      trimStart_eq_self (by simpa using isBlank_eq_false_of_isIndirection isMark)] at member
    exact variableAt?_eq_none_of_head? (by simpa using noStart) place member

/-- If the type could be a specifier, no declaration is found behind it. -/
theorem variableAt?_behind_typeToken
    {place : Text}
    (member : place ∈ afterKeywords specifierWords
      (trimStart (afterWord (head.textBefore list)))) :
    variableAt? place = none := by
  have ended := head.endsWord_declaratorText list
  have isTypeName := head.isTypeName
  rw [textBefore] at member
  generalize head.typeToken = token at member isTypeName
  generalize head.typeName = names at isTypeName
  cases isTypeName with
  | within isIdent blankBefore _ _ =>
      rw [List.append_assoc, afterWord_append isIdent.isWord, List.append_assoc,
        trimStart_append_of_isBlank blankBefore, List.append_assoc,
        trimStart_eq_self (by simp; decide)] at member
      · exact variableAt?_eq_none_of_head? (by simp; decide) place member
      · rw [List.append_assoc, List.append_assoc]
        exact endsWord_append_of_isBlank blankBefore (endsWord_cons (by decide) _)
  | single isIdent =>
      rw [afterWord_append isIdent.isWord ended, declaratorText] at member
      cases arguments : head.arguments with
      | none =>
          rw [arguments, argumentText, List.nil_append] at member
          exact head.variableAt?_behind_separator member
      | some entry =>
          rw [arguments, argumentText, List.append_assoc,
            trimStart_append_of_isBlank (head.blankArguments entry arguments), List.cons_append,
            trimStart_eq_self (by simp; decide)] at member
          exact variableAt?_eq_none_of_head? (by simp; decide) place member

/-- Read as a declaration, the head has the list as what follows its name. -/
theorem rest_of_variableDeclaration?
    {declared : VariableDeclaration}
    (oneLine : '\n' ∉ list)
    (own : head.IsOwnDeclarator list)
    (read : variableDeclaration? (head.textBefore list) = some declared) :
    declared.rest = '(' :: list := by
  obtain ⟨place, member, read⟩ := List.exists_of_findSome?_eq_some read
  rcases eq_or_mem_of_mem_afterKeywords member with rfl | behind
  · exact head.rest_of_variableAt? oneLine own read
  · rw [head.variableAt?_behind_typeToken behind] at read
    simp at read

end PrototypeHead

end

end Upkeep
