import Upkeep.Text.Basic

/-!
Names made of several identifiers: qualified names, and the upper-case macros
that may stand between a keyword and the name it introduces.
-/

namespace Upkeep

open Unicode

theorem length_dropWhile_le
    (predicate : Char → Bool)
    (text : Text) :
    (text.dropWhile predicate).length ≤ text.length :=
  (List.dropWhile_sublist predicate).length_le

theorem length_gap?_lt
    {text rest : Text}
    (read : gap? text = some rest) :
    rest.length < text.length := by
  unfold gap? at read
  split at read
  · simp at read
  · split at read
    · simp only [Option.some.injEq] at read
      subst read
      simpa [trimStart] using Nat.lt_succ_of_le (length_dropWhile_le _ _)
    · simp at read

theorem isWord_of_isIdentStart
    {c : Char}
    (starts : isIdentStart c = true) :
    isWord c = true := by
  simp only [isIdentStart, Bool.or_eq_true] at starts
  rcases starts with letter | underscore
  · simp [isWord, Char.isAlphanum, letter]
  · simp [isWord, underscore]

theorem length_ident?_lt
    {text name rest : Text}
    (read : ident? text = some (name, rest)) :
    rest.length < text.length := by
  unfold ident? at read
  split at read
  · simp at read
  next c tail =>
    split at read
    next starts =>
      simp only [Option.some.injEq, Prod.mk.injEq] at read
      rw [← read.2]
      simp only [afterWord, List.dropWhile_cons, isWord_of_isIdentStart starts, if_true,
        List.length_cons]
      exact Nat.lt_succ_of_le (length_dropWhile_le _ _)
    · simp at read

theorem length_after?_le
    {start text rest : Text}
    (read : after? start text = some rest) :
    rest.length ≤ text.length := by
  rw [after?_eq_some_iff] at read
  simp [read]

/-- Read the `::` between two parts of a qualified name, with the blanks around it. -/
def scopeMark? (text : Text) : Option Text :=
  (after? "::".toList (trimStart text)).map trimStart

theorem length_scopeMark?_le
    {text rest : Text}
    (read : scopeMark? text = some rest) :
    rest.length ≤ text.length := by
  obtain ⟨next, marked, rfl⟩ := Option.map_eq_some_iff.1 read
  exact Nat.le_trans (length_dropWhile_le _ _)
    (Nat.le_trans (length_after?_le marked) (length_dropWhile_le _ _))

/-- Read a qualified name: identifiers with `::` between them.  A `::` that no
identifier follows is left unread. -/
def qualifiedName? (text : Text) : Option (List Text × Text) :=
  match _first : ident? text with
  | none => none
  | some (name, rest) =>
      match _mark : scopeMark? rest with
      | none => some ([name], rest)
      | some next =>
          match qualifiedName? next with
          | none => some ([name], rest)
          | some (names, rest) => some (name :: names, rest)
termination_by text.length
decreasing_by
  have shorter := length_ident?_lt _first
  have noLonger := length_scopeMark?_le _mark
  omega

/-- Upper-case ASCII letters and the underscore begin a macro name. -/
def isMacroStart (c : Char) : Bool :=
  c.isUpper || c == '_'

/-- Upper-case ASCII letters, ASCII digits and the underscore make up a macro name. -/
def isMacroChar (c : Char) : Bool :=
  c.isUpper || c.isDigit || c == '_'

/-- Read a macro name and the gap after it. -/
def macro? (text : Text) : Option Text :=
  match text with
  | [] => none
  | c :: _ => if isMacroStart c then gap? (text.dropWhile isMacroChar) else none

theorem length_macro?_lt
    {text rest : Text}
    (read : macro? text = some rest) :
    rest.length < text.length := by
  unfold macro? at read
  split at read
  · simp at read
  · split at read
    · exact Nat.lt_of_lt_of_le (length_gap?_lt read) (length_dropWhile_le _ _)
    · simp at read

/-- The places after any number of steps, the place after the most steps first. -/
def afterMany
    (step? : Text → Option Text)
    (shrinks : ∀ text rest, step? text = some rest → rest.length < text.length)
    (text : Text) : List Text :=
  match _read : step? text with
  | none => [text]
  | some rest => afterMany step? shrinks rest ++ [text]
termination_by text.length
decreasing_by exact shrinks _ _ _read

/-- The name after as many macros as possible, where the given test decides
whether what follows a name is acceptable. -/
def nameAfterMacros? (accepts : Text → Bool) (text : Text) : Option Text :=
  (afterMany macro? (fun _ _ => length_macro?_lt) text).findSome? fun start =>
    (ident? start).bind fun (name, rest) => if accepts rest then some name else none

/-- Read one of the given words and the gap after it. -/
def anyKeyword? (keywords : List Text) (text : Text) : Option Text :=
  keywords.findSome? fun word => keyword? word text

theorem length_anyKeyword?_lt
    {keywords : List Text}
    {text rest : Text}
    (read : anyKeyword? keywords text = some rest) :
    rest.length < text.length := by
  obtain ⟨word, _, read⟩ := List.exists_of_findSome?_eq_some read
  obtain ⟨next, started, gap⟩ := Option.bind_eq_some_iff.1 read
  exact Nat.lt_of_lt_of_le (length_gap?_lt gap) (length_after?_le started)

/-- The places after any number of the given words, the most words first. -/
def afterKeywords (keywords : List Text) : Text → List Text :=
  afterMany (anyKeyword? keywords) fun _ _ => length_anyKeyword?_lt

/-- Some of the given words, each with a gap behind it. -/
inductive KeywordRun (keywords : List Text) : Text → Prop where
  | nil : KeywordRun keywords []
  | cons {word gap rest : Text} :
      word ∈ keywords → IsGap gap → KeywordRun keywords rest →
      KeywordRun keywords (word ++ (gap ++ rest))

/-- What stands before each place that is read behind some keywords. -/
theorem keywordRun_of_mem_afterKeywords
    {keywords : List Text}
    {text place : Text}
    (member : place ∈ afterKeywords keywords text) :
    ∃ lead, text = lead ++ place ∧ KeywordRun keywords lead := by
  unfold afterKeywords at member
  fun_induction afterMany (anyKeyword? keywords) (fun _ _ => length_anyKeyword?_lt) text with
  | case1 text unread =>
      rw [List.mem_singleton] at member
      exact ⟨[], by simp [member], .nil⟩
  | case2 text next read inductionHypothesis =>
      rcases List.mem_append.1 member with later | here
      · obtain ⟨lead, split, run⟩ := inductionHypothesis later
        obtain ⟨word, isKeyword, read⟩ := List.exists_of_findSome?_eq_some read
        obtain ⟨gap, rfl, isGap⟩ := keyword?_split read
        exact ⟨word ++ (gap ++ lead), by simp [split], .cons isKeyword isGap run⟩
      · rw [List.mem_singleton] at here
        exact ⟨[], by simp [here], .nil⟩

end Upkeep
