import Mathlib.Data.List.Infix
import Upkeep.Proofs.Rule.Declarator
import Upkeep.Proofs.Text.Trim
import Upkeep.Rule.Constify.Proposal

/-!
Prototypes with a named parameter.  The list of a prototype is cut at its commas into parameters,
and one part that has the form of a named parameter rules `const` out for the line.
-/

namespace Upkeep

open Unicode

section

variable {front back : Text} {parts : List Text} {depth : Nat}

/-- The depth of the brackets behind one more character. -/
def bracketStep (depth : Nat) (c : Char) : Nat :=
  if c = '(' ∨ c = '<' ∨ c = '[' ∨ c = '{' then depth + 1
  else if c = ')' ∨ c = '>' ∨ c = ']' ∨ c = '}' then depth - 1
  else depth

/-- The depth of the brackets behind a text. -/
def bracketDepth (depth : Nat) (text : Text) : Nat :=
  text.foldl bracketStep depth

/-- The parts with a text put in front of the first. -/
def extendFirst (front : Text) : List Text → List Text
  | [] => [front]
  | part :: parts => (front ++ part) :: parts

theorem extendFirst_extendFirst (first second : Text) (parts : List Text) :
    extendFirst first (extendFirst second parts) = extendFirst (first ++ second) parts := by
  cases parts with
  | nil => rfl
  | cons part parts => rw [extendFirst, extendFirst, extendFirst, List.append_assoc]

theorem extendFirst_append
    (some_ : parts ≠ []) (front : Text) (others : List Text) :
    extendFirst front (parts ++ others) = extendFirst front parts ++ others := by
  cases parts with
  | nil => exact absurd rfl some_
  | cons part parts => rfl

theorem topLevelParts_cons (depth : Nat) (c : Char) (rest : Text) :
    topLevelParts depth (c :: rest) =
      if c = ',' ∧ depth = 0 then [] :: topLevelParts 0 rest
      else extendFirst [c] (topLevelParts (bracketStep depth c) rest) :=
  rfl

theorem topLevelParts_ne_nil (depth : Nat) (text : Text) : topLevelParts depth text ≠ [] := by
  cases text with
  | nil => simp [topLevelParts]
  | cons c rest =>
      rw [topLevelParts_cons]
      split
      · simp
      · cases topLevelParts (bracketStep depth c) rest <;> simp [extendFirst]

/-- The characters that cut a list or change the depth of its brackets. -/
def listMarks : Text :=
  "(<[\x7b)>]\x7d,".toList

theorem bracketStep_of_notMem
    {c : Char}
    (plain : c ∉ listMarks) (depth : Nat) :
    bracketStep depth c = depth := by
  have apart : ∀ mark ∈ listMarks, c ≠ mark := by
    rintro mark isMark rfl
    exact plain isMark
  have opening : ¬ (c = '(' ∨ c = '<' ∨ c = '[' ∨ c = '{') := by
    rintro (rfl | rfl | rfl | rfl) <;> exact apart _ (by decide) rfl
  have closing : ¬ (c = ')' ∨ c = '>' ∨ c = ']' ∨ c = '}') := by
    rintro (rfl | rfl | rfl | rfl) <;> exact apart _ (by decide) rfl
  rw [bracketStep, if_neg opening, if_neg closing]

theorem topLevelParts_append_of_notMem
    (plain : ∀ c ∈ front, c ∉ listMarks) (depth : Nat) (back : Text) :
    topLevelParts depth (front ++ back) = extendFirst front (topLevelParts depth back) := by
  induction front with
  | nil =>
      obtain ⟨part, parts, split⟩ := List.exists_cons_of_ne_nil (topLevelParts_ne_nil depth back)
      rw [List.nil_append, split]
      rfl
  | cons c front inductionHypothesis =>
      rw [List.forall_mem_cons] at plain
      have noComma : c ≠ ',' := by
        rintro rfl
        exact plain.1 (by decide)
      rw [List.cons_append, topLevelParts_cons, if_neg (fun cut => noComma cut.1),
        bracketStep_of_notMem plain.1, inductionHypothesis plain.2, extendFirst_extendFirst]
      rfl

/-- As long as a bracket is open, nothing is cut. -/
theorem topLevelParts_append_of_open
    (inside : ∀ start, start <+: front → 0 < bracketDepth depth start) (back : Text) :
    topLevelParts depth (front ++ back) =
      extendFirst front (topLevelParts (bracketDepth depth front) back) := by
  induction front generalizing depth with
  | nil =>
      obtain ⟨part, parts, split⟩ := List.exists_cons_of_ne_nil (topLevelParts_ne_nil depth back)
      rw [List.nil_append, bracketDepth, List.foldl_nil, split]
      rfl
  | cons c front inductionHypothesis =>
      have open_ : 0 < depth := inside [] List.nil_prefix
      have later : ∀ start, start <+: front → 0 < bracketDepth (bracketStep depth c) start :=
        fun start isStart => inside (c :: start) (List.cons_prefix_cons.2 ⟨rfl, isStart⟩)
      rw [List.cons_append, topLevelParts_cons, if_neg (by omega), inductionHypothesis later,
        extendFirst_extendFirst]
      rfl

/-- A comma outside of all brackets cuts the list. -/
theorem topLevelParts_append_comma
    (closed : bracketDepth depth front = 0) (back : Text) :
    topLevelParts depth (front ++ ',' :: back) = topLevelParts depth front ++ topLevelParts 0 back := by
  induction front generalizing depth with
  | nil =>
      obtain rfl : depth = 0 := closed
      rfl
  | cons c front inductionHypothesis =>
      rw [List.cons_append, topLevelParts_cons, topLevelParts_cons]
      by_cases cut : c = ',' ∧ depth = 0
      · obtain ⟨rfl, rfl⟩ := cut
        have later : topLevelParts 0 (front ++ ',' :: back) =
            topLevelParts 0 front ++ topLevelParts 0 back :=
          inductionHypothesis closed
        rw [if_pos ⟨rfl, rfl⟩, if_pos ⟨rfl, rfl⟩, later, List.cons_append]
      · rw [if_neg cut, if_neg cut, inductionHypothesis closed,
          extendFirst_append (topLevelParts_ne_nil _ _)]

theorem notMem_listMarks_of_kind
    (kind : Char → Bool) {c : Char}
    (apart : listMarks.all (fun mark => !kind mark) = true)
    (isKind : kind c = true) :
    c ∉ listMarks := by
  intro isMark
  have other := List.all_eq_true.1 apart c isMark
  simp [isKind] at other

theorem notMem_listMarks_of_isBlank
    {c : Char}
    (blank : isBlank c = true) :
    c ∉ listMarks :=
  notMem_listMarks_of_kind isBlank (by decide) blank

theorem notMem_listMarks_of_isWord
    {c : Char}
    (inWord : isWord c = true) :
    c ∉ listMarks :=
  notMem_listMarks_of_kind isWord (by decide) inWord

theorem IsSeparator.notMem_listMarks
    {separator : Text}
    (isSeparator : IsSeparator separator) :
    ∀ c ∈ separator, c ∉ listMarks := by
  intro c member
  rcases isSeparator.mem member with blank | isMark
  · exact notMem_listMarks_of_isBlank blank
  · exact notMem_listMarks_of_kind isIndirection (by decide) isMark

/-- Blanks at the end of a list are blanks at the end of its last part. -/
theorem map_trimEnd_topLevelParts_append
    (blank : ∀ c ∈ back, isBlank c = true) (depth : Nat) (text : Text) :
    (topLevelParts depth (text ++ back)).map trimEnd = (topLevelParts depth text).map trimEnd := by
  induction text generalizing depth with
  | nil =>
      have plain := topLevelParts_append_of_notMem
        (fun c member => notMem_listMarks_of_isBlank (blank c member)) depth []
      rw [List.append_nil] at plain
      have dropped : trimEnd back = [] := dropEnd_eq_nil_iff.2 blank
      simp [plain, topLevelParts, extendFirst, dropped]
  | cons c text inductionHypothesis =>
      rw [List.cons_append, topLevelParts_cons, topLevelParts_cons]
      split
      · rw [List.map_cons, List.map_cons, inductionHypothesis]
      · have same := inductionHypothesis (bracketStep depth c)
        obtain ⟨part, parts, split⟩ :=
          List.exists_cons_of_ne_nil (topLevelParts_ne_nil (bracketStep depth c) text)
        obtain ⟨other, others, splitOther⟩ :=
          List.exists_cons_of_ne_nil (topLevelParts_ne_nil (bracketStep depth c) (text ++ back))
        rw [split, splitOther, List.map_cons, List.map_cons, List.cons.injEq] at same
        rw [split, splitOther]
        simp only [extendFirst, List.map_cons, List.singleton_append, trimEnd_cons, same]

/-- The blanks around a list are blanks around its parts. -/
theorem map_trim_topLevelParts_trim (text : Text) :
    (topLevelParts 0 (trim text)).map trim = (topLevelParts 0 text).map trim := by
  obtain ⟨front, back, whole, blankFront, blankBack⟩ := exists_append_trim text
  have atEnd : (topLevelParts 0 (trim text ++ back)).map trim =
      (topLevelParts 0 (trim text)).map trim := by
    have same := congrArg (List.map trim) (map_trimEnd_topLevelParts_append blankBack 0 (trim text))
    simpa only [List.map_map, Function.comp_def, trim_trimEnd] using same
  have atStart : (topLevelParts 0 text).map trim =
      (topLevelParts 0 (trim text ++ back)).map trim := by
    conv => lhs; rw [whole]
    rw [topLevelParts_append_of_notMem
      (fun c member => notMem_listMarks_of_isBlank (blankFront c member))]
    obtain ⟨part, parts, split⟩ :=
      List.exists_cons_of_ne_nil (topLevelParts_ne_nil 0 (trim text ++ back))
    have trimmed : trim (front ++ part) = trim part := by
      rw [trim, trimStart_append_of_isBlank blankFront, trim]
    rw [split, extendFirst, List.map_cons, List.map_cons, trimmed]
  rw [atStart, atEnd]

end

/-- A text between angle brackets whose own brackets are closed within it. -/
structure IsBracketed (inner : Text) : Prop where
  stays : ∀ start, start <+: inner → 0 < bracketDepth 1 start
  closes : bracketDepth 1 inner = 1

/-- A parameter up to its name: words such as `unsigned`, a type with arguments that hold no
parentheses, a separator and the name. -/
structure NamedParameter where
  words : Text
  typeName : Text
  arguments : Option (Text × Text)
  separator : Text
  name : Text
  areWords : KeywordRun parameterWords words
  isTypeName : ∃ c rest, typeName = c :: rest ∧ isIdentStart c = true ∧
    ∀ d ∈ rest, (isWord d || d == ':') = true
  areArguments : ∀ entry ∈ arguments, (∀ c ∈ entry.1, isBlank c = true) ∧
    IsBracketed entry.2 ∧ ∀ c ∈ entry.2, (c != '(' && c != ')') = true
  isSeparator : IsSeparator separator
  isIdent : IsIdent name

theorem isIdent_of_mem_parameterWords : ∀ word ∈ parameterWords, IsIdent word := by
  decide

theorem topLevelParts_argumentText_append
    {arguments : Option (Text × Text)}
    (areArguments : ∀ entry ∈ arguments,
      (∀ c ∈ entry.1, isBlank c = true) ∧ IsBracketed entry.2)
    (back : Text) :
    topLevelParts 0 (argumentText arguments ++ back) =
      extendFirst (argumentText arguments) (topLevelParts 0 back) := by
  cases arguments with
  | none => exact topLevelParts_append_of_notMem (by simp [argumentText]) 0 back
  | some entry =>
      obtain ⟨blank, bracketed⟩ := areArguments entry rfl
      have closing : topLevelParts 1 ('>' :: back) = extendFirst ['>'] (topLevelParts 0 back) := rfl
      have opening : topLevelParts 0 ('<' :: (entry.2 ++ '>' :: back)) =
          extendFirst ['<'] (topLevelParts 1 (entry.2 ++ '>' :: back)) := rfl
      rw [argumentText, List.append_assoc, List.cons_append, List.append_assoc,
        List.singleton_append, topLevelParts_append_of_notMem
          (fun c member => notMem_listMarks_of_isBlank (blank c member)),
        opening, topLevelParts_append_of_open bracketed.stays, bracketed.closes, closing,
        extendFirst_extendFirst, extendFirst_extendFirst, extendFirst_extendFirst]
      simp

theorem endsWord_of_endsParameter
    {text : Text}
    (ends : endsParameter text = true) :
    EndsWord text := by
  cases text with
  | nil => exact endsWord_nil
  | cons c rest =>
      by_cases blank : isBlank c = true
      · exact endsWord_cons (isWord_eq_false_of_isBlank blank) rest
      · rw [endsParameter, trimStart_eq_self (by simpa using blank)] at ends
        · split at ends
          next same =>
            obtain ⟨rfl, _⟩ := List.cons.inj same
            exact endsWord_cons (by decide) rest
          · simp at ends
        · simp

namespace NamedParameter

variable (parameter : NamedParameter)

/-- What stands from the type on. -/
def typedText : Text :=
  parameter.typeName ++ (argumentText parameter.arguments ++ (parameter.separator ++ parameter.name))

def text : Text :=
  parameter.words ++ parameter.typedText

/-- No parameter is cut before its name. -/
theorem topLevelParts_text_append (back : Text) :
    topLevelParts 0 (parameter.text ++ back) =
      extendFirst parameter.text (topLevelParts 0 back) := by
  have inWords : ∀ c ∈ parameter.words, c ∉ listMarks := by
    intro c member
    rcases parameter.areWords.isWord_or_isBlank isIdent_of_mem_parameterWords c member with
      inWord | blank
    · exact notMem_listMarks_of_isWord inWord
    · exact notMem_listMarks_of_isBlank blank
  have inType : ∀ c ∈ parameter.typeName, c ∉ listMarks := by
    obtain ⟨c, rest, same, starts, inside⟩ := parameter.isTypeName
    rw [same, List.forall_mem_cons]
    refine ⟨notMem_listMarks_of_isWord (isWord_of_isIdentStart starts), fun d member => ?_⟩
    exact notMem_listMarks_of_kind (fun d => isWord d || d == ':') (by decide) (inside d member)
  have inName : ∀ c ∈ parameter.name, c ∉ listMarks := fun c member =>
    notMem_listMarks_of_isWord (parameter.isIdent.isWord c member)
  rw [text, typedText]
  simp only [List.append_assoc]
  rw [topLevelParts_append_of_notMem inWords, topLevelParts_append_of_notMem inType,
    topLevelParts_argumentText_append fun entry isEntry =>
      ⟨(parameter.areArguments entry isEntry).1, (parameter.areArguments entry isEntry).2.1⟩,
    topLevelParts_append_of_notMem parameter.isSeparator.notMem_listMarks,
    topLevelParts_append_of_notMem inName]
  simp only [extendFirst_extendFirst]

theorem trimStart_typedText_append (back : Text) :
    trimStart (parameter.typedText ++ back) = parameter.typedText ++ back := by
  obtain ⟨c, rest, same, starts, _⟩ := parameter.isTypeName
  apply trimStart_eq_self
  simpa [typedText, same] using isBlank_eq_false_of_isIdentStart starts

theorem trimStart_text_append (back : Text) :
    trimStart (parameter.text ++ back) = parameter.text ++ back := by
  have solid := parameter.trimStart_typedText_append back
  rw [text, List.append_assoc]
  have run := parameter.areWords
  generalize parameter.words = words at run
  cases run with
  | nil => exact solid
  | cons isKeyword _ _ =>
      rw [List.append_assoc]
      exact (isIdent_of_mem_parameterWords _ isKeyword).trimStart_append _

theorem trimEnd_text_append (back : Text) :
    trimEnd (parameter.text ++ back) = parameter.text ++ trimEnd back := by
  have split : ∀ rest, parameter.text ++ rest =
      (parameter.words ++ (parameter.typeName ++
        (argumentText parameter.arguments ++ parameter.separator))) ++
          (parameter.name ++ rest) := by
    intro rest
    simp [text, typedText]
  have kept : dropEnd isBlank (parameter.name ++ back) = parameter.name ++ trimEnd back :=
    parameter.isIdent.trimEnd_append back
  rw [split, split, trimEnd, dropEnd_append_of_ne_nil, kept]
  rw [kept]
  simp [parameter.isIdent.ne_nil]

/-- What follows the type is no longer part of its name. -/
theorem typeToken?_typedText_append (back : Text) :
    typeToken? (parameter.typedText ++ back) =
      some (argumentText parameter.arguments ++
        (parameter.separator ++ (parameter.name ++ back))) := by
  have behind : ∀ c ∈ (argumentText parameter.arguments ++
      (parameter.separator ++ (parameter.name ++ back))).head?,
        isWord c = false ∧ c ≠ ':' :=
    head?_behind_type (fun entry isEntry => (parameter.areArguments entry isEntry).1)
      parameter.isSeparator _
  obtain ⟨c, rest, same, starts, inside⟩ := parameter.isTypeName
  rw [typedText, same, List.append_assoc, List.append_assoc, List.append_assoc, List.cons_append,
    typeToken?, if_pos starts, List.dropWhile_append_of_pos inside]
  congr 1
  cases ahead : argumentText parameter.arguments ++
      (parameter.separator ++ (parameter.name ++ back)) with
  | nil => rfl
  | cons d more =>
      rw [ahead] at behind
      obtain ⟨outside, noColon⟩ := behind d rfl
      rw [List.dropWhile_cons_of_neg (by simp [outside, noColon])]

/-- A parameter is recognised, whatever its default value. -/
theorem isNamedParameter_text_append
    {back : Text}
    (ends : endsParameter back = true) :
    isNamedParameter (parameter.text ++ back) = true := by
  have places := parameter.areWords.mem_afterKeywords isIdent_of_mem_parameterWords
    (parameter.trimStart_typedText_append back)
  rw [isNamedParameter, List.any_eq_true]
  refine ⟨_, by rwa [text, List.append_assoc], ?_⟩
  rw [parameter.typeToken?_typedText_append]
  dsimp only
  rw [List.any_eq_true]
  refine ⟨parameter.separator ++ (parameter.name ++ back), ?_, ?_⟩
  · exact mem_afterArguments (fun entry isEntry => (parameter.areArguments entry isEntry).1)
      (fun entry isEntry => (parameter.areArguments entry isEntry).2.2) (by decide) _
  · rw [parameter.isSeparator.separator?_append parameter.isIdent, Option.bind_some,
      ident?_complete parameter.isIdent (endsWord_of_endsParameter ends)]
    exact ends

end NamedParameter

theorem mem_of_mem_topLevelParts
    {text part : Text} {depth : Nat} {c : Char}
    (isPart : part ∈ topLevelParts depth text)
    (member : c ∈ part) :
    c ∈ text := by
  induction text generalizing depth part with
  | nil =>
      obtain rfl := List.mem_singleton.1 isPart
      simp at member
  | cons d rest inductionHypothesis =>
      rw [topLevelParts_cons] at isPart
      split at isPart
      · rcases List.mem_cons.1 isPart with rfl | later
        · simp at member
        · exact List.mem_cons_of_mem d (inductionHypothesis later member)
      · obtain ⟨first, others, split⟩ :=
          List.exists_cons_of_ne_nil (topLevelParts_ne_nil (bracketStep depth d) rest)
        rw [split, extendFirst, List.mem_cons] at isPart
        rcases isPart with rfl | later
        · rw [List.singleton_append, List.mem_cons] at member
          rcases member with rfl | inFirst
          · exact List.mem_cons_self
          · exact List.mem_cons_of_mem d (inductionHypothesis (split ▸ List.mem_cons_self) inFirst)
        · exact List.mem_cons_of_mem d
            (inductionHypothesis (split ▸ List.mem_cons_of_mem first later) member)

/-- What is cut off behind the name of a parameter is blank or a default value. -/
theorem exists_part_behind_name
    {tail : Text}
    (oneLine : '\n' ∉ tail)
    (ends : ∀ c ∈ (trimStart tail).head?, c = ',' ∨ c = '=') :
    ∃ part parts, topLevelParts 0 tail = part :: parts ∧ endsParameter (trimEnd part) = true := by
  obtain ⟨blanks, split, blank⟩ := exists_blanks_append_trimStart tail
  have cut := topLevelParts_append_of_notMem
    (fun c member => notMem_listMarks_of_isBlank (blank c member)) 0 (trimStart tail)
  rw [← split] at cut
  have noValue : endsParameter (trimEnd (blanks ++ [])) = true := by
    rw [List.append_nil, trimEnd, dropEnd_eq_nil_iff.2 blank]
    rfl
  cases ahead : trimStart tail with
  | nil =>
      rw [ahead] at cut
      exact ⟨blanks ++ [], [], cut, noValue⟩
  | cons c rest =>
      rw [ahead] at cut ends split
      rcases ends c rfl with rfl | rfl
      · exact ⟨blanks ++ [], topLevelParts 0 rest, cut, noValue⟩
      · obtain ⟨value, others, splitValue⟩ :=
          List.exists_cons_of_ne_nil (topLevelParts_ne_nil 0 rest)
        have atSign : topLevelParts 0 ('=' :: rest) = ('=' :: value) :: others := by
          rw [topLevelParts_cons, if_neg (by simp),
            bracketStep_of_notMem (by decide), splitValue]
          rfl
        rw [atSign, extendFirst] at cut
        refine ⟨blanks ++ '=' :: value, others, cut, ?_⟩
        have solid : trimEnd ('=' :: value) = '=' :: trimEnd value :=
          trimEnd_cons_of_not_isBlank (by decide) value
        have noNewline : '\n' ∉ trimEnd value := by
          intro member
          apply oneLine
          have inRest := mem_of_mem_topLevelParts (splitValue ▸ List.mem_cons_self)
            ((dropEnd_isPrefix isBlank value).mem member)
          rw [split]
          simp [inRest]
        have trimmed : trimStart (blanks ++ '=' :: trimEnd value) = '=' :: trimEnd value := by
          rw [trimStart_append_of_isBlank blank]
          exact trimStart_eq_self (by simp; decide)
        rw [trimEnd, dropEnd_append_of_ne_nil (by rw [← trimEnd, solid]; simp), ← trimEnd, solid,
          endsParameter, trimmed]
        · simpa using noNewline
        · simp

/-- A list of parameters of which one has a name: it stands at the start or behind a comma outside
of all brackets, and the end of the list, a comma or a default value follows the name. -/
def HasNamedParameter (parameters : Text) : Prop :=
  ∃ (before blanks tail : Text) (parameter : NamedParameter),
    parameters = before ++ (blanks ++ (parameter.text ++ tail)) ∧
    (before = [] ∨ ∃ front, before = front ++ [','] ∧ bracketDepth 0 front = 0) ∧
    (∀ c ∈ blanks, isBlank c = true) ∧
    ∀ c ∈ (trimStart tail).head?, c = ',' ∨ c = '='

theorem HasNamedParameter.exists_part
    {parameters : Text}
    (named : HasNamedParameter parameters)
    (oneLine : '\n' ∉ parameters) :
    ∃ part ∈ topLevelParts 0 parameters, isNamedParameter (trim part) = true := by
  obtain ⟨before, blanks, tail, parameter, rfl, starts, blank, ends⟩ := named
  simp only [List.mem_append, not_or] at oneLine
  obtain ⟨behind, others, cut, isEnd⟩ := exists_part_behind_name oneLine.2.2.2 ends
  have first : topLevelParts 0 (blanks ++ (parameter.text ++ tail)) =
      (blanks ++ (parameter.text ++ behind)) :: others := by
    rw [topLevelParts_append_of_notMem
      (fun c member => notMem_listMarks_of_isBlank (blank c member)),
      parameter.topLevelParts_text_append, cut]
    rfl
  refine ⟨blanks ++ (parameter.text ++ behind), ?_, ?_⟩
  · rcases starts with rfl | ⟨front, rfl, closed⟩
    · rw [List.nil_append, first]
      exact List.mem_cons_self
    · rw [List.append_assoc, List.singleton_append, topLevelParts_append_comma closed, first]
      simp
  · rw [trim, trimStart_append_of_isBlank blank, parameter.trimStart_text_append,
      parameter.trimEnd_text_append]
    exact parameter.isNamedParameter_text_append isEnd

/-- A list with a named parameter, closed by the last parenthesis of a statement, is a prototype's. -/
theorem isPrototype_of_hasNamedParameter
    {parameters spacing : Text}
    (index : SymbolIndex)
    (blank : ∀ c ∈ spacing, isBlank c = true)
    (oneLine : '\n' ∉ parameters)
    (named : HasNamedParameter parameters) :
    isPrototype index ('(' :: (parameters ++ ')' :: (spacing ++ [';']))) = true := by
  obtain ⟨part, isPart, isNamed⟩ := named.exists_part oneLine
  have inParts : trim part ∈ (topLevelParts 0 (trim parameters)).map trim := by
    rw [map_trim_topLevelParts_trim]
    exact List.mem_map_of_mem isPart
  obtain ⟨other, isOther, same⟩ := List.mem_map.1 inParts
  have inTail : ∀ c ∈ ';' :: spacing.reverse, (c != ')') = true := by
    rw [List.forall_mem_cons]
    refine ⟨by decide, fun c member => ?_⟩
    simpa using ne_of_isBlank (blank c (List.mem_reverse.1 member)) (by decide)
  have reversed : (parameters ++ ')' :: (spacing ++ [';'])).reverse =
      (';' :: spacing.reverse) ++ ')' :: parameters.reverse := by
    simp
  have closing : ((parameters ++ ')' :: (spacing ++ [';'])).reverse).dropWhile (· != ')') =
      ')' :: parameters.reverse := by
    rw [reversed, List.dropWhile_append_of_pos inTail, List.dropWhile_cons_of_neg (by decide)]
  have tail : (((parameters ++ ')' :: (spacing ++ [';'])).reverse).takeWhile (· != ')')).reverse =
      spacing ++ [';'] := by
    rw [reversed, List.takeWhile_append_of_pos inTail, List.takeWhile_cons_of_neg (by decide)]
    simp
  have ended : trim (spacing ++ [';']) = [';'] := by
    rw [trim, trimStart_append_of_isBlank blank]
    rfl
  rw [isPrototype, closing]
  dsimp only
  rw [tail, ended, List.reverse_reverse, if_neg (by simp), Bool.or_eq_true]
  refine .inr (List.any_eq_true.2 ⟨other, isOther, ?_⟩)
  rw [same, isTypedParameter, isNamed]
  simp

/-- A prototype by its parts: the head, the list of its parameters and a semicolon. -/
structure Prototype extends PrototypeHead where
  indent : Text
  parameters : Text
  spacing : Text
  blankIndent : ∀ c ∈ indent, isBlank c = true
  blankSpacing : ∀ c ∈ spacing, isBlank c = true

namespace Prototype

variable (prototype : Prototype)

/-- The parameters with what follows them. -/
def list : Text :=
  prototype.parameters ++ ')' :: (prototype.spacing ++ [';'])

def text : Text :=
  prototype.indent ++ prototype.textBefore prototype.list

theorem trimStart_text : trimStart prototype.text = prototype.textBefore prototype.list := by
  rw [text, trimStart_append_of_isBlank prototype.blankIndent]
  exact prototype.isTypeName.trimStart_append _

end Prototype

/-- `const` is not put before the type of a prototype with a named parameter, for any index and
whatever its other parameters are. -/
theorem propose?_eq_none_of_prototype
    (index : SymbolIndex) {line : Text} (prototype : Prototype)
    (code : statement line = prototype.text)
    (oneLine : '\n' ∉ line)
    (named : HasNamedParameter prototype.parameters)
    (own : prototype.IsOwnDeclarator prototype.list) :
    propose? index line = none := by
  have inLine : ∀ c ∈ prototype.list, c ∈ line := by
    intro c member
    have inText : c ∈ statement line := by
      rw [code, Prototype.text, PrototypeHead.textBefore, PrototypeHead.declaratorText, callText]
      simp [member]
    exact ((dropEnd_isPrefix _ _).trans (codeFrom_isPrefix _ _)).mem inText
  have listOneLine : '\n' ∉ prototype.list := fun member => oneLine (inLine _ member)
  have parametersOneLine : '\n' ∉ prototype.parameters := fun member =>
    listOneLine (List.mem_append_left _ member)
  have isFunction := isPrototype_of_hasNamedParameter index prototype.blankSpacing
    parametersOneLine named
  have refused : constifiable? index (prototype.textBefore prototype.list) = none := by
    unfold constifiable?
    split
    · rfl
    · split
      · rfl
      · rw [Option.bind_eq_none_iff]
        intro declared read
        have rest := prototype.rest_of_variableDeclaration? listOneLine own read
        rw [rest, Prototype.list, isFunction, Bool.not_true, Bool.and_false, if_neg (by simp)]
  rw [propose?, insertionPoint?, code, prototype.trimStart_text, refused, Option.map_none,
    Option.map_none]

/-- A parameter with arguments that hold a comma. -/
def countsParameter : NamedParameter where
  words := []
  typeName := "std::map".toList
  arguments := some ([], "int, Widget".toList)
  separator := " &".toList
  name := "counts".toList
  areWords := .nil
  isTypeName := ⟨'s', "td::map".toList, rfl, by decide, List.all_eq_true.1 (by decide)⟩
  areArguments := by
    rintro entry ⟨⟩
    have inside : ∀ start ∈ "int, Widget".toList.inits, 0 < bracketDepth 1 start := by decide +kernel
    exact ⟨by simp, ⟨fun start isStart => inside start ((List.mem_inits _ _).2 isStart), by decide⟩,
      List.all_eq_true.1 (by decide)⟩
  isSeparator := .inr ⟨" ".toList, "&".toList, [], rfl, List.all_eq_true.1 (by decide),
    ⟨by decide, List.all_eq_true.1 (by decide)⟩, by simp⟩
  isIdent := by decide

def mergePrototype : Prototype where
  indent := "\t".toList
  typeName := ["ui".toList, "Widget".toList]
  typeToken := "ui::Widget".toList
  arguments := none
  separator := " *".toList
  name := "merge".toList
  gap := "\t ".toList
  parameters := "f(0, 1), std::map<int, Widget> &counts = none(), 2".toList
  spacing := " \t".toList
  isTypeName := by
    have isScope : IsIdent "ui".toList := by decide
    have isName : IsIdent "Widget".toList := by decide
    have noBlanks : ∀ c ∈ ([] : Text), isBlank c = true := by simp
    exact .within isScope noBlanks noBlanks (.single isName)
  blankArguments := by simp
  isSeparator := .inr ⟨" ".toList, "*".toList, [], rfl, List.all_eq_true.1 (by decide),
    ⟨by decide, List.all_eq_true.1 (by decide)⟩, by simp⟩
  isIdent := by decide
  blankGap := List.all_eq_true.1 (by decide)
  blankIndent := List.all_eq_true.1 (by decide)
  blankSpacing := List.all_eq_true.1 (by decide)

def vectorIndex : SymbolIndex :=
  (SymbolIndex.ofPairs [("Widget".toList, "ui".toList), ("Vector".toList, "ui".toList)]).insertScope
    "ui".toList

def mergeLine : Text :=
  "\tui::Widget *merge\t (f(0, 1), std::map<int, Widget> &counts = none(), 2) \t; // old".toList

theorem propose?_eq_none_of_mergePrototype :
    statement mergeLine = mergePrototype.text ∧ propose? vectorIndex mergeLine = none := by
  have code : statement mergeLine = mergePrototype.text := by decide +kernel
  have sign : (trimStart " = none(), 2".toList).head? = some '=' := by decide
  have named : HasNamedParameter mergePrototype.parameters :=
    ⟨"f(0, 1),".toList, " ".toList, " = none(), 2".toList, countsParameter, by decide +kernel,
      .inr ⟨"f(0, 1)".toList, by decide, by decide⟩, List.all_eq_true.1 (by decide), by
        rw [sign]
        simp⟩
  exact ⟨code, propose?_eq_none_of_prototype vectorIndex mergePrototype code (by decide +kernel) named
    (by simp [PrototypeHead.IsOwnDeclarator, mergePrototype])⟩

/-- Prototypes with a named parameter that is not recognised: it is an array, its type holds
parentheses or blanks or begins with a scope mark, its marks stand apart, a comparison in front of
it opens a bracket, or the arguments of the declared type are taken to reach into the list. -/
def misreadPrototypes : List Text :=
  ["Widget make(int values[]);",
    "Widget make(std::function<void(int)> callback);",
    "Widget make(std :: string name);",
    "Widget make(::std::string name);",
    "Widget make(int* &name);",
    "Widget make(int* = a < b, int c);",
    "Vector<int> merge(std::vector<int> a, int b);"].map String.toList

/-- `const` is put in front of each of these. -/
theorem propose?_misreadPrototypes :
    misreadPrototypes.map (propose? vectorIndex) =
      misreadPrototypes.map fun line => some (constWord ++ line) := by
  decide +kernel

end Upkeep
