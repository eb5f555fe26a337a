import Upkeep.Unicode.Blank
import Upkeep.Unicode.Word

/-!
Texts as lists of characters, and the reading steps that every analysis shares:
trimming, runs of word characters, and identifiers.
-/

namespace Upkeep

open Unicode

/-- A text is the list of its characters. -/
abbrev Text := List Char

/-- Drop the longest end whose characters all satisfy the predicate. -/
def dropEnd (drop : Char → Bool) : Text → Text
  | [] => []
  | c :: rest =>
      match dropEnd drop rest with
      | [] => if drop c then [] else [c]
      | kept => c :: kept

/-- Drop the blanks at the start. -/
def trimStart (text : Text) : Text :=
  text.dropWhile isBlank

/-- Drop the blanks at the end. -/
def trimEnd (text : Text) : Text :=
  dropEnd isBlank text

/-- Drop the blanks on both sides. -/
def trim (text : Text) : Text :=
  trimEnd (trimStart text)

/-- What follows a given start, if the text has that start. -/
def after? (start : Text) : Text → Option Text
  | text =>
      match start, text with
      | [], rest => some rest
      | _ :: _, [] => none
      | s :: start, c :: rest => if s = c then after? start rest else none

/-- The word at the start of a text: its longest run of word characters. -/
def firstWord (text : Text) : Text :=
  text.takeWhile isWord

/-- What follows the word at the start of a text. -/
def afterWord (text : Text) : Text :=
  text.dropWhile isWord

/-- The texts between the characters that belong to no word. -/
def words (text : Text) : List Text :=
  text.splitOnP fun c => !isWord c

/-- ASCII letters and the underscore can begin an identifier. -/
def isIdentStart (c : Char) : Bool :=
  c.isAlpha || c == '_'

/-- Read an identifier: a word that begins with an ASCII letter or an underscore. -/
def ident? (text : Text) : Option (Text × Text) :=
  match text with
  | [] => none
  | c :: _ => if isIdentStart c then some (firstWord text, afterWord text) else none

/-- Read at least one blank, and all that follow it. -/
def gap? (text : Text) : Option Text :=
  match text with
  | [] => none
  | c :: rest => if isBlank c then some (trimStart rest) else none

/-- Blanks, at least one of them. -/
def IsGap (gap : Text) : Prop :=
  gap ≠ [] ∧ ∀ c ∈ gap, isBlank c = true

/-- Whether a text occurs within another one. -/
def occursIn (part : Text) : Text → Bool
  | [] => part.isEmpty
  | c :: rest => part.isPrefixOf (c :: rest) || occursIn part rest

/-- Read a given word followed by at least one blank. -/
def keyword? (word text : Text) : Option Text :=
  (after? word text).bind gap?

@[simp]
theorem dropEnd_nil (drop : Char → Bool) : dropEnd drop [] = [] :=
  rfl

theorem dropEnd_cons_of_kept
    {drop : Char → Bool}
    {c : Char}
    (kept : drop c = false) (rest : Text) :
    dropEnd drop (c :: rest) = c :: dropEnd drop rest := by
  rw [dropEnd]
  split
  next empty => simp [kept, empty]
  · rfl

theorem dropEnd_append_of_ne_nil
    {drop : Char → Bool}
    {back : Text}
    (kept : dropEnd drop back ≠ []) (front : Text) :
    dropEnd drop (front ++ back) = front ++ dropEnd drop back := by
  induction front with
  | nil => rfl
  | cons c front inductionHypothesis =>
      rw [List.cons_append, dropEnd, inductionHypothesis]
      split
      next empty => simp_all
      · simp

/-- Dropping at the end leaves a start of the text. -/
theorem dropEnd_isPrefix (drop : Char → Bool) (text : Text) : dropEnd drop text <+: text := by
  induction text with
  | nil => exact List.prefix_rfl
  | cons c rest inductionHypothesis =>
      rw [dropEnd]
      split
      next empty =>
        split
        · exact List.nil_prefix
        · exact List.cons_prefix_cons.2 ⟨rfl, List.nil_prefix⟩
      next kept => exact List.cons_prefix_cons.2 ⟨rfl, inductionHypothesis⟩

theorem firstWord_append_afterWord (text : Text) :
    firstWord text ++ afterWord text = text := by
  simp [firstWord, afterWord]

theorem after?_eq_some_iff {start text rest : Text} :
    after? start text = some rest ↔ text = start ++ rest := by
  induction start generalizing text with
  | nil => simp [after?]
  | cons s start inductionHypothesis =>
      cases text with
      | nil => simp [after?]
      | cons c text =>
          by_cases same : s = c
          · simp [after?, same, inductionHypothesis]
          · simp [after?, same, Ne.symm same]

theorem occursIn_iff {part text : Text} : occursIn part text = true ↔ part <:+: text := by
  induction text with
  | nil => simp [occursIn]
  | cons c rest inductionHypothesis =>
      simp [occursIn, inductionHypothesis, List.infix_cons_iff]

theorem ident?_split
    {text name rest : Text}
    (read : ident? text = some (name, rest)) :
    name ++ rest = text := by
  unfold ident? at read
  split at read
  · simp at read
  · split at read
    · simp only [Option.some.injEq, Prod.mk.injEq] at read
      rw [← read.1, ← read.2, firstWord_append_afterWord]
    · simp at read

/-- What stands before the place after a gap is made of blanks. -/
theorem gap?_split
    {text rest : Text}
    (read : gap? text = some rest) :
    ∃ gap, text = gap ++ rest ∧ IsGap gap := by
  unfold gap? at read
  split at read
  · simp at read
  next c tail =>
    split at read
    next blank =>
      simp only [Option.some.injEq] at read
      refine ⟨c :: tail.takeWhile isBlank, ?_, by simp, ?_⟩
      · rw [← read, trimStart, List.cons_append, List.takeWhile_append_dropWhile]
      · rw [List.forall_mem_cons]
        exact ⟨blank, List.all_eq_true.1 List.all_takeWhile⟩
    · simp at read

theorem keyword?_split
    {word text rest : Text}
    (read : keyword? word text = some rest) :
    ∃ gap, text = word ++ (gap ++ rest) ∧ IsGap gap := by
  obtain ⟨next, started, read⟩ := Option.bind_eq_some_iff.1 read
  obtain ⟨gap, rfl, isGap⟩ := gap?_split read
  exact ⟨gap, after?_eq_some_iff.1 started, isGap⟩

end Upkeep
