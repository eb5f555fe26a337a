import Mathlib.Data.List.Induction
import Upkeep.Proofs.Text.Parts
import Upkeep.Source.Scan

/-!
Heads of templates and what is declared below them.  A head hides what its own first line declares,
and the next line of code over blank lines and comments.  That line settles anew what is hidden, so
that a head on more than one line of code does not hide the declaration that it belongs to.
-/

namespace Upkeep

open Unicode

variable {text code line head : Text} {waits : Bool} {number : Nat}
  {above between below entries : List (Text × LineKind)} {declaration : Declaration}

/-- The lines of a text with their kinds. -/
def classifiedLines (text : Text) : List (Text × LineKind) :=
  (lines text).zip (classify (lines text))

/-- A line of code that begins a template. -/
def BeginsTemplate (code : Text) : Prop :=
  ∃ blanks rest, code = blanks ++ ("template".toList ++ rest) ∧ ∀ c ∈ blanks, isBlank c = true

/-- The head of a template on a line of its own: neither a brace nor a semicolon follows it. -/
def IsBareHead (code : Text) : Prop :=
  BeginsTemplate code ∧ ∀ c ∈ code, c ≠ '{' ∧ c ≠ ';'

theorem opensTemplate_iff : opensTemplate code = true ↔ BeginsTemplate code := by
  rw [opensTemplate, Option.isSome_iff_exists]
  constructor
  · rintro ⟨rest, read⟩
    obtain ⟨blanks, split, blank⟩ := exists_blanks_append_trimStart code
    rw [after?_eq_some_iff.1 read] at split
    exact ⟨blanks, rest, split, blank⟩
  · rintro ⟨blanks, rest, rfl, blank⟩
    have isIdent : IsIdent "template".toList := by decide
    rw [trimStart_append_of_isBlank blank, isIdent.trimStart_append, after?_self_append]
    exact ⟨rest, rfl⟩

theorem opensTemplate_eq_false_iff : opensTemplate code = false ↔ ¬ BeginsTemplate code := by
  rw [← opensTemplate_iff, Bool.not_eq_true]

theorem templatePending_iff : templatePending code = true ↔ IsBareHead code := by
  simp [templatePending, IsBareHead, opensTemplate_iff]

/-- Whether a template head waits for its declaration below one more line. -/
def waitsBelow (waits : Bool) : Text × LineKind → Bool
  | (line, .code) => templatePending (codeOf line)
  | (_, .blank) | (_, .comment) => waits
  | (_, .preprocessor) | (_, .continuation) => false

/-- A line that is neither code nor part of a directive. -/
def IsPassedOver (entry : Text × LineKind) : Prop :=
  entry.2 = .blank ∨ entry.2 = .comment

/-- The last line of code is the head of a template, and nothing but blank lines and comments
follows it. -/
def EndInHead (entries : List (Text × LineKind)) : Prop :=
  ∃ above head passed, entries = above ++ (head, .code) :: passed ∧
    IsBareHead (codeOf head) ∧ ∀ entry ∈ passed, IsPassedOver entry

theorem endInHead_concat_iff
    {entry : Text × LineKind} :
    EndInHead (entries ++ [entry]) ↔
      (entry.2 = .code ∧ IsBareHead (codeOf entry.1)) ∨
        (IsPassedOver entry ∧ EndInHead entries) := by
  constructor
  · rintro ⟨above, head, passed, split, waiting, quiet⟩
    rcases List.eq_nil_or_concat passed with rfl | ⟨passed, last, rfl⟩
    · obtain ⟨_, same⟩ := List.append_inj' split rfl
      obtain rfl : entry = (head, .code) := by simpa using same
      exact .inl ⟨rfl, waiting⟩
    · rw [List.concat_eq_append, ← List.cons_append, ← List.append_assoc] at split
      obtain ⟨same, lastSame⟩ := List.append_inj' split rfl
      obtain rfl : entry = last := by simpa using lastSame
      rw [List.concat_eq_append, List.forall_mem_append, List.forall_mem_singleton] at quiet
      exact .inr ⟨quiet.2, above, head, passed, same, waiting, quiet.1⟩
  · rintro (⟨isCode, waiting⟩ | ⟨isQuiet, above, head, passed, rfl, waiting, quiet⟩)
    · obtain ⟨line, kind⟩ := entry
      obtain rfl : kind = .code := isCode
      exact ⟨entries, line, [], rfl, waiting, by simp⟩
    · refine ⟨above, head, passed ++ [entry], by simp, waiting, ?_⟩
      rw [List.forall_mem_append, List.forall_mem_singleton]
      exact ⟨quiet, isQuiet⟩

/-- A head waits below some lines if they end in one. -/
theorem foldl_waitsBelow_iff :
    entries.foldl waitsBelow false = true ↔ EndInHead entries := by
  induction entries using List.reverseRecOn with
  | nil =>
      refine iff_of_false Bool.false_ne_true ?_
      rintro ⟨above, head, passed, split, _⟩
      simp at split
  | append_singleton entries entry inductionHypothesis =>
      rw [endInHead_concat_iff, ← inductionHypothesis, List.foldl_append, List.foldl_cons,
        List.foldl_nil]
      obtain ⟨line, kind⟩ := entry
      cases kind <;> simp [waitsBelow, IsPassedOver, templatePending_iff]

/-- What is found on one line. -/
def declaredOn (waits : Bool) (number : Nat) : Text × LineKind → List Declaration
  | (line, .code) =>
      if waits || opensTemplate (codeOf line) then []
      else (declaredBy (codeOf line)).map fun found => ⟨found.2, found.1, number⟩
  | _ => []

theorem declarationsFrom_cons (entry : Text × LineKind) :
    declarationsFrom waits number (entry :: entries) =
      declaredOn waits number entry ++
        declarationsFrom (waitsBelow waits entry) (number + 1) entries := by
  obtain ⟨line, kind⟩ := entry
  cases kind <;> rfl

theorem mem_declaredOn_iff
    {entry : Text × LineKind} :
    declaration ∈ declaredOn waits number entry ↔
      entry.2 = .code ∧ declaration.line = number ∧ waits = false ∧
        opensTemplate (codeOf entry.1) = false ∧
        (declaration.kind, declaration.name) ∈ declaredBy (codeOf entry.1) := by
  obtain ⟨line, kind⟩ := entry
  obtain ⟨name, which, at_⟩ := declaration
  cases kind with
  | code =>
      simp only [declaredOn]
      split
      next hidden =>
        simp only [Bool.or_eq_true] at hidden
        rcases hidden with waiting | opens
        · simp [waiting]
        · simp [opens]
      next shown =>
        simp only [Bool.or_eq_true, not_or, Bool.not_eq_true] at shown
        simp only [List.mem_map, Prod.exists, Declaration.mk.injEq, shown, true_and]
        constructor
        · rintro ⟨_, _, member, rfl, rfl, rfl⟩
          exact ⟨rfl, member⟩
        · rintro ⟨rfl, member⟩
          exact ⟨_, _, member, rfl, rfl, rfl⟩
  | _ => simp [declaredOn]

/-- What is declared on a line of code is found there, unless the line begins a template or a head
waits above it. -/
theorem mem_declarationsFrom_iff :
    declaration ∈ declarationsFrom waits number entries ↔
      ∃ above line below, entries = above ++ (line, .code) :: below ∧
        declaration.line = number + above.length ∧
        above.foldl waitsBelow waits = false ∧ opensTemplate (codeOf line) = false ∧
        (declaration.kind, declaration.name) ∈ declaredBy (codeOf line) := by
  induction entries generalizing waits number with
  | nil => simp [declarationsFrom]
  | cons entry entries inductionHypothesis =>
      rw [declarationsFrom_cons, List.mem_append, mem_declaredOn_iff, inductionHypothesis]
      constructor
      · rintro (⟨isCode, here, free, opens, declared⟩ |
          ⟨above, line, below, rfl, later, free, opens, declared⟩)
        · obtain ⟨line, kind⟩ := entry
          obtain rfl : kind = .code := isCode
          exact ⟨[], line, entries, rfl, here, free, opens, declared⟩
        · refine ⟨entry :: above, line, below, rfl, ?_, free, opens, declared⟩
          rw [later, List.length_cons]
          omega
      · rintro ⟨above, line, below, split, there, free, opens, declared⟩
        cases above with
        | nil =>
            obtain ⟨rfl, rfl⟩ := List.cons.inj split
            exact .inl ⟨rfl, there, free, opens, declared⟩
        | cons first above =>
            obtain ⟨rfl, rfl⟩ := List.cons.inj split
            refine .inr ⟨above, line, below, rfl, ?_, free, opens, declared⟩
            rw [there, List.length_cons]
            omega

/-- The declarations of a text: what a line of code declares, unless the line begins a template or
the lines above it end in a head. -/
theorem mem_scan_iff :
    declaration ∈ scan text ↔
      ∃ above line below, classifiedLines text = above ++ (line, .code) :: below ∧
        declaration.line = above.length ∧ ¬ EndInHead above ∧
        ¬ BeginsTemplate (codeOf line) ∧
        (declaration.kind, declaration.name) ∈ declaredBy (codeOf line) := by
  have waits_iff : ∀ above : List (Text × LineKind),
      above.foldl waitsBelow false = false ↔ ¬ EndInHead above := by
    intro above
    rw [← foldl_waitsBelow_iff, Bool.not_eq_true]
  simp only [scan, classifiedLines, mem_declarationsFrom_iff, Nat.zero_add, waits_iff,
    opensTemplate_eq_false_iff]

theorem mem_scan_iff_of_append
    (layout : classifiedLines text = above ++ (line, .code) :: below)
    (at_ : declaration.line = above.length) :
    declaration ∈ scan text ↔
      ¬ EndInHead above ∧ ¬ BeginsTemplate (codeOf line) ∧
        (declaration.kind, declaration.name) ∈ declaredBy (codeOf line) := by
  rw [mem_scan_iff]
  constructor
  · rintro ⟨others, code, rest, split, there, free, opens, declared⟩
    obtain ⟨rfl, same⟩ := List.append_inj (layout.symm.trans split) (at_.symm.trans there)
    rw [List.cons.injEq, Prod.mk.injEq] at same
    obtain ⟨⟨rfl, _⟩, _⟩ := same
    exact ⟨free, opens, declared⟩
  · rintro ⟨free, opens, declared⟩
    exact ⟨above, line, below, layout, at_, free, opens, declared⟩

/-- Nothing is found on the line on which a template begins, nor below it up to the next line of
code, if the line itself has neither a brace nor a semicolon.  What a line further below declares
is found, whether or not the head goes on up to it, unless that line begins a template too or is
the next line of code below one that does. -/
theorem scan_below_template
    (layout : classifiedLines text =
      above ++ (head, .code) :: (between ++ (line, .code) :: below))
    (begins : BeginsTemplate (codeOf head)) :
    (∀ declaration ∈ scan text, declaration.line ≠ above.length) ∧
      ((∀ c ∈ codeOf head, c ≠ '{' ∧ c ≠ ';') → (∀ entry ∈ between, IsPassedOver entry) →
        ∀ declaration ∈ scan text,
          declaration.line < above.length ∨
            above.length + between.length + 1 < declaration.line) ∧
      ∀ name kind,
        (⟨name, kind, above.length + between.length + 1⟩ : Declaration) ∈ scan text ↔
          ¬ EndInHead (above ++ (head, .code) :: between) ∧ ¬ BeginsTemplate (codeOf line) ∧
            (kind, name) ∈ declaredBy (codeOf line) := by
  have atLine : classifiedLines text =
      (above ++ (head, .code) :: between) ++ (line, .code) :: below := by
    rw [layout, List.append_assoc, List.cons_append]
  have onHead : ∀ declaration ∈ scan text, declaration.line ≠ above.length := by
    intro declaration member here
    obtain ⟨_, beginsNone, _⟩ := (mem_scan_iff_of_append layout here).1 member
    exact beginsNone begins
  refine ⟨onHead, ?_, ?_⟩
  · intro plain quiet declaration member
    by_contra within
    rw [not_or, Nat.not_lt, Nat.not_lt] at within
    rcases Nat.eq_or_lt_of_le within.2 with last | earlier
    · have waits : EndInHead (above ++ (head, .code) :: between) :=
        ⟨above, head, between, rfl, ⟨begins, plain⟩, quiet⟩
      have free := (mem_scan_iff_of_append atLine (by rw [last]; simp; omega)).1 member
      exact free.1 waits
    · -- The line is one of those between, none of which is code.
      obtain ⟨others, code, rest, split, there, _⟩ := mem_scan_iff.1 member
      have found : (classifiedLines text)[declaration.line]? = some (code, .code) := by
        rw [split, there, List.getElem?_append_right (Nat.le_refl _), Nat.sub_self,
          List.getElem?_cons_zero]
      obtain ⟨place, isPlace⟩ : ∃ place, declaration.line = above.length + (place + 1) := by
        have offHead := onHead declaration member
        exact ⟨declaration.line - above.length - 1, by omega⟩
      rw [layout, isPlace, List.getElem?_append_right (Nat.le_add_right _ _),
        Nat.add_sub_cancel_left, List.getElem?_cons_succ,
        List.getElem?_append_left (by omega)] at found
      have isQuiet := quiet _ (List.mem_of_getElem? found)
      simp [IsPassedOver] at isQuiet
  · intro name kind
    exact mem_scan_iff_of_append atLine (by simp; omega)

/-- A head with a blank line and a comment below it. -/
def remarkBelowHead : Text :=
  "#include <a>\ntemplate<typename T>\n\n// note\nclass Widget \x7b\n".toList

theorem scan_below_template_remarkBelowHead :
    classifiedLines remarkBelowHead =
        [("#include <a>".toList, .preprocessor)] ++ ("template<typename T>".toList, .code) ::
          ([([], .blank), ("// note".toList, .comment)] ++ ("class Widget \x7b".toList, .code) :: []) ∧
      BeginsTemplate (codeOf "template<typename T>".toList) ∧
      ∀ declaration ∈ scan remarkBelowHead, declaration.line < 1 ∨ 4 < declaration.line := by
  have layout : classifiedLines remarkBelowHead =
      [("#include <a>".toList, .preprocessor)] ++ ("template<typename T>".toList, .code) ::
        ([([], .blank), ("// note".toList, .comment)] ++
          ("class Widget \x7b".toList, .code) :: []) := by
    decide +kernel
  have code : codeOf "template<typename T>".toList = "template<typename T>".toList := by decide
  have begins : BeginsTemplate (codeOf "template<typename T>".toList) := by
    rw [code]
    exact ⟨[], "<typename T>".toList, rfl, by simp⟩
  refine ⟨layout, begins, (scan_below_template layout begins).2.1 ?_ ?_⟩
  · rw [code]
    simp
  · simp [IsPassedOver]

/-- A head on several lines, with a parameter on a line of its own. -/
def headOverLines : Text :=
  "template<typename A,\n  typename B,\n  class C\n>\nclass Widget \x7b\n".toList

/-- A head with a semicolon in a comment. -/
def headWithRemark : Text :=
  "template<typename T> /* a; b */\nclass Widget \x7b\n".toList

/-- The declaration below a head on several lines is found, and so is a parameter of the head.  A
semicolon in a comment is taken for the end of a declaration. -/
theorem scan_finds_templates :
    scan headOverLines = [⟨"C".toList, .classType, 2⟩, ⟨"Widget".toList, .classType, 4⟩] ∧
      scan headWithRemark = [⟨"Widget".toList, .classType, 1⟩] := by
  decide +kernel

end Upkeep
