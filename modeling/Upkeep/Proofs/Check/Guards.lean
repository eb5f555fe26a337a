import Upkeep.Check.Guards
import Upkeep.Proofs.Source.DirectiveForm
import Upkeep.Proofs.Source.Insert

/-!
What the check for include guards depends on.  Only the directive lines count, so that other lines
can be put in anywhere; and of these the first conditional and the one behind it decide, unless
there is a `#pragma once`.
-/

namespace Upkeep

variable {content other : Text} {front back before after : List Text}
  {line added ask next asked : Text}

/-- The directive lines among some lines, as they are written. -/
def directiveLines (sourceLines : List Text) : List Text :=
  (sourceLines.zip (classify sourceLines)).filterMap fun (line, kind) =>
    if kind = .preprocessor then some line else none

theorem directives_eq (content : Text) :
    directives content = (directiveLines (lines content)).filterMap Directive.ofLine? := by
  rw [directives, directiveLines, List.filterMap_filterMap]
  apply List.filterMap_congr
  rintro ⟨line, kind⟩ _
  dsimp only
  split <;> rfl

theorem isGuarded_congr
    (same : directiveLines (lines other) = directiveLines (lines content)) :
    isGuarded other = isGuarded content := by
  rw [isGuarded, isGuarded, directives_eq, directives_eq, same]

theorem directiveLines_append
    (nothingOpen : Carry.none.afterAll front = .none) (back : List Text) :
    directiveLines (front ++ back) = directiveLines front ++ directiveLines back := by
  rw [directiveLines, zip_classify_append, nothingOpen, List.filterMap_append]
  rfl

theorem directiveLines_insert
    (nothingOpen : Carry.none.afterAll front = .none)
    (closed : LeavesNothingOpen added) (back : List Text) :
    directiveLines (front ++ added :: back) =
      directiveLines front ++
        ((if kindByStart added = .preprocessor then [added] else []) ++ directiveLines back) := by
  rw [directiveLines, zip_classify_append_cons nothingOpen closed, List.filterMap_append,
    List.filterMap_cons, ← directiveLines, ← directiveLines]
  congr 1
  by_cases isDirective : kindByStart added = .preprocessor
  · simp only [isDirective, if_true, List.singleton_append]
  · simp only [isDirective, if_false, List.nil_append]

theorem exists_ofLine?_of_mem_directiveLines
    {sourceLines : List Text}
    (member : line ∈ directiveLines sourceLines) :
    ∃ directive, Directive.ofLine? line = some directive := by
  obtain ⟨⟨found, kind⟩, inside, same⟩ := List.mem_filterMap.1 member
  dsimp only at same
  split at same
  next isDirective =>
    obtain rfl : found = line := Option.some.inj same
    subst isDirective
    exact Directive.exists_ofLine? (kindByStart_of_mem_zip_classify inside)
  next other => cases same

/-- A directive that opens a conditional part. -/
def OpensConditional (line : Text) : Prop :=
  ∃ keyword operand, keyword ∈ ["if".toList, "ifdef".toList, "ifndef".toList] ∧
    HasDirective keyword operand line

section

variable {directive : Directive}

theorem isPragmaOnce_iff
    (read : Directive.ofLine? line = some directive) :
    directive.isPragmaOnce = true ↔ NamesWord "pragma".toList "once".toList line := by
  rw [namesWord_iff (by decide)]
  simp [read, Directive.isPragmaOnce]

theorem isConditional_iff
    (read : Directive.ofLine? line = some directive) :
    directive.isConditional = true ↔ OpensConditional line := by
  have isKeyword : ∀ keyword ∈ ["if".toList, "ifdef".toList, "ifndef".toList],
      IsWordText keyword := by
    decide
  constructor
  · intro conditional
    refine ⟨directive.keyword, directive.operand, ?_, Directive.hasDirective_of_ofLine? read⟩
    simpa [Directive.isConditional, or_assoc] using conditional
  · rintro ⟨keyword, operand, member, has⟩
    rw [(Directive.ofLine?_eq_some_iff (isKeyword keyword member)).2 has, Option.some.injEq] at read
    subst read
    simpa [Directive.isConditional, or_assoc] using member

/-- The word behind a given keyword. -/
theorem operandWord_of_keyword_iff
    {keyword name : Text}
    (isKeyword : IsWordText keyword)
    (read : Directive.ofLine? line = some directive) :
    (if directive.keyword = keyword ∧ directive.operandWord ≠ [] then some directive.operandWord
      else none) = some name ↔ NamesWord keyword name line := by
  rw [namesWord_iff isKeyword]
  simp only [read, Option.mem_def, Option.some.injEq, exists_eq_left']
  constructor
  · intro found
    split at found
    next both =>
      cases found
      exact ⟨both.1, rfl, both.2⟩
    · cases found
  · rintro ⟨same, rfl, nonempty⟩
    exact if_pos ⟨same, nonempty⟩

theorem asksForAbsence?_eq_some_iff
    {name : Text}
    (read : Directive.ofLine? line = some directive) :
    directive.asksForAbsence? = some name ↔ NamesWord "ifndef".toList name line :=
  operandWord_of_keyword_iff (by decide) read

theorem defines?_eq_some_iff
    {name : Text}
    (read : Directive.ofLine? line = some directive) :
    directive.defines? = some name ↔ NamesWord "define".toList name line :=
  operandWord_of_keyword_iff (by decide) read

end

theorem opensWithGuard_append
    {plain : List Directive}
    (noConditional : ∀ directive ∈ plain, directive.isConditional = false)
    (rest : List Directive) :
    opensWithGuard (plain ++ rest) = opensWithGuard rest := by
  induction plain with
  | nil => rfl
  | cons directive plain inductionHypothesis =>
      rw [List.forall_mem_cons] at noConditional
      rw [List.cons_append, opensWithGuard, if_neg (by simp [noConditional.1])]
      exact inductionHypothesis noConditional.2

/-- Where no line is `#pragma once` and the first conditional asks for the absence of a name, the
line behind it decides. -/
theorem isGuarded_iff_defines
    (split : directiveLines (lines content) = before ++ ask :: next :: after)
    (notOnce : ∀ line ∈ directiveLines (lines content),
      ¬ NamesWord "pragma".toList "once".toList line)
    (noConditional : ∀ line ∈ before, ¬ OpensConditional line)
    (asks : NamesWord "ifndef".toList asked ask) :
    isGuarded content = true ↔ NamesWord "define".toList asked next := by
  have read : ∀ line ∈ directiveLines (lines content),
      ∃ directive, Directive.ofLine? line = some directive :=
    fun line => exists_ofLine?_of_mem_directiveLines
  obtain ⟨first, readAsk⟩ := read ask (by simp [split])
  obtain ⟨second, readNext⟩ := read next (by simp [split])
  have layout : directives content =
      before.filterMap Directive.ofLine? ++
        first :: second :: after.filterMap Directive.ofLine? := by
    rw [directives_eq, split, List.filterMap_append, List.filterMap_cons_some readAsk,
      List.filterMap_cons_some readNext]
  have notOnceRead : (directives content).any Directive.isPragmaOnce = false := by
    rw [directives_eq, List.any_eq_false, List.forall_mem_filterMap]
    intro line inside directive readLine
    rw [isPragmaOnce_iff readLine]
    exact notOnce line inside
  have plain : ∀ directive ∈ before.filterMap Directive.ofLine?,
      directive.isConditional = false := by
    rw [List.forall_mem_filterMap]
    intro line inside directive readLine
    rw [← Bool.not_eq_true, isConditional_iff readLine]
    exact noConditional line inside
  have asksToo : first.asksForAbsence? = some asked := (asksForAbsence?_eq_some_iff readAsk).2 asks
  have conditional : first.isConditional = true := by
    rw [isConditional_iff readAsk]
    obtain ⟨gap, rest, _, _, _, has⟩ := asks
    exact ⟨_, _, by simp, has⟩
  rw [isGuarded, notOnceRead, Bool.false_or, layout, opensWithGuard_append plain, opensWithGuard,
    if_pos conditional, asksToo, ← defines?_eq_some_iff readNext]
  simp

/-- A line that is no directive where nothing is open and that leaves nothing open: a blank line or
a line comment, or code without an opener of a comment, unless it runs on into the next line. -/
inductive IsNoDirective (line : Text) : Prop where
  | remark :
      IsRemark false line →
      IsNoDirective line
  | code :
      kindByStart line = .code →
      ¬ "/*".toList <:+: line →
      endsInBackslash line = false →
      IsNoDirective line

theorem IsNoDirective.leavesNothingOpen
    (isNoDirective : IsNoDirective line) :
    LeavesNothingOpen line := by
  cases isNoDirective with
  | remark remark => exact Carry.after_none_eq_none_iff.1 (Carry.after_remark rfl remark)
  | code _ noOpener whole => exact ⟨commentOpenAfter_of_no_opener noOpener, whole⟩

theorem IsNoDirective.kindByStart_ne
    (isNoDirective : IsNoDirective line) :
    kindByStart line ≠ .preprocessor := by
  cases isNoDirective with
  | remark remark =>
      have kind : Carry.none.kind line = .blank ∨ Carry.none.kind line = .comment :=
        Carry.kind_remark rfl remark
      intro isDirective
      rcases kind with blank | comment
      · cases isDirective.symm.trans blank
      · cases isDirective.symm.trans comment
  | code isCode => simp [isCode]

/-- The directive lines of a header whose first conditional asks for the absence of a name, and
where the next directive gives a meaning to a name. -/
structure AsksAndDefines
    (directiveLines before after : List Text) (ask give asked defined : Text) : Prop where
  split : directiveLines = before ++ ask :: give :: after
  notOnce : ∀ line ∈ directiveLines, ¬ NamesWord "pragma".toList "once".toList line
  noConditional : ∀ line ∈ before, ¬ OpensConditional line
  asks : NamesWord "ifndef".toList asked ask
  defines : NamesWord "define".toList defined give

namespace AsksAndDefines

variable {give defined : Text}

theorem isGuarded_iff
    (guard : AsksAndDefines (directiveLines (lines content)) before after ask give asked defined) :
    isGuarded content = true ↔ asked = defined := by
  have isDefine : IsWordText "define".toList := by decide
  rw [isGuarded_iff_defines guard.split guard.notOnce guard.noConditional guard.asks]
  constructor
  · intro names
    exact names.unique isDefine guard.defines
  · rintro rfl
    exact guard.defines

/-- A directive between the two lines comes to stand behind the first of them. -/
theorem directiveLines_insert_eq
    (guard : AsksAndDefines (directiveLines (front ++ back)) before after ask give asked defined)
    (nothingOpen : Carry.none.afterAll front = .none)
    (above : directiveLines front = before ++ [ask])
    (isDirective : kindByStart added = .preprocessor)
    (closed : LeavesNothingOpen added) :
    directiveLines (front ++ added :: back) = before ++ ask :: added :: give :: after := by
  have below : directiveLines back = give :: after := by
    have all := guard.split
    rw [directiveLines_append nothingOpen, above, List.append_assoc,
      List.append_cancel_left_eq, List.singleton_append, List.cons.injEq] at all
    exact all.2
  rw [directiveLines_insert nothingOpen closed, if_pos isDirective, above, below,
    List.append_assoc]
  rfl

/-- No guard is left when something else stands between the two lines. -/
theorem isGuarded_eq_false_of_between
    (guard : AsksAndDefines (directiveLines (lines content)) before after ask give asked defined)
    (between : directiveLines (lines other) = before ++ ask :: added :: give :: after)
    (notOnce : ¬ NamesWord "pragma".toList "once".toList added)
    (noDefine : ¬ NamesWord "define".toList asked added) :
    isGuarded other = false := by
  have notOnceToo : ∀ line ∈ directiveLines (lines other),
      ¬ NamesWord "pragma".toList "once".toList line := by
    intro line member
    rw [between, List.mem_append, List.mem_cons, List.mem_cons] at member
    have old := guard.notOnce line
    rw [guard.split, List.mem_append, List.mem_cons] at old
    rcases member with above | isAsk | rfl | below
    · exact old (.inl above)
    · exact old (.inr (.inl isAsk))
    · exact notOnce
    · exact old (.inr (.inr below))
  rw [← Bool.not_eq_true, isGuarded_iff_defines between notOnceToo guard.noConditional guard.asks]
  exact noDefine

end AsksAndDefines

/-- Whether a header is guarded depends on its directives alone, and a guard asks for the absence
of the name that the next directive defines. -/
theorem isGuarded_depends_on_directives (content : Text) :
    (∀ other front back added,
      lines content = front ++ back →
      lines other = front ++ added :: back →
      Carry.none.afterAll front = .none →
      IsNoDirective added →
        isGuarded other = isGuarded content) ∧
    ∀ before after ask give asked defined,
      AsksAndDefines (directiveLines (lines content)) before after ask give asked defined →
        (isGuarded content = true ↔ asked = defined) ∧
        ∀ other front back added,
          lines content = front ++ back →
          lines other = front ++ added :: back →
          Carry.none.afterAll front = .none →
          directiveLines front = before ++ [ask] →
          kindByStart added = .preprocessor →
          ¬ "/*".toList <:+: added →
          endsInBackslash added = false →
          ¬ NamesWord "pragma".toList "once".toList added →
          ¬ NamesWord "define".toList asked added →
            isGuarded other = false := by
  constructor
  · intro other front back added split splitToo nothingOpen isNoDirective
    apply isGuarded_congr
    rw [splitToo, directiveLines_insert nothingOpen isNoDirective.leavesNothingOpen,
      if_neg isNoDirective.kindByStart_ne, List.nil_append, split,
      directiveLines_append nothingOpen]
  · intro before after ask give asked defined guard
    refine ⟨guard.isGuarded_iff, ?_⟩
    intro other front back added split splitToo nothingOpen above isDirective noOpener whole
      notOnce noDefine
    have closed : LeavesNothingOpen added := ⟨commentOpenAfter_of_no_opener noOpener, whole⟩
    have between : directiveLines (lines other) = before ++ ask :: added :: give :: after := by
      rw [splitToo]
      exact (split ▸ guard).directiveLines_insert_eq nothingOpen above isDirective closed
    exact guard.isGuarded_eq_false_of_between between notOnce noDefine

/-- A header with a guard below an include. -/
def guardedHeader : Text :=
  "#include <a>\n#ifndef WIDGET_H\n#define WIDGET_H 1\nclass Widget;\n#endif\n".toList

/-- The same with a line of code between the two lines of the guard. -/
def codeInGuard : Text :=
  "#include <a>\n#ifndef WIDGET_H\nclass A;\n#define WIDGET_H 1\nclass Widget;\n#endif\n".toList

/-- The same with another directive there. -/
def directiveInGuard : Text :=
  "#include <a>\n#ifndef WIDGET_H\n#undef A\n#define WIDGET_H 1\nclass Widget;\n#endif\n".toList

theorem isGuarded_depends_on_directives_of_guardedHeader :
    isGuarded guardedHeader = true ∧
      isGuarded codeInGuard = true ∧
      isGuarded directiveInGuard = false := by
  obtain ⟨insertion, guards⟩ := isGuarded_depends_on_directives guardedHeader
  have layout : directiveLines (lines guardedHeader) =
      ["#include <a>".toList] ++ "#ifndef WIDGET_H".toList :: "#define WIDGET_H 1".toList ::
        ["#endif".toList] := by
    decide +kernel
  have guard : AsksAndDefines (directiveLines (lines guardedHeader)) ["#include <a>".toList]
      ["#endif".toList] "#ifndef WIDGET_H".toList "#define WIDGET_H 1".toList
      "WIDGET_H".toList "WIDGET_H".toList := by
    constructor
    case split => exact layout
    case notOnce =>
      rw [layout]
      simp only [namesWord_iff (show IsWordText "pragma".toList by decide)]
      decide +kernel
    case noConditional =>
      intro line member
      obtain rfl := List.mem_singleton.1 member
      rw [← isConditional_iff rfl]
      decide +kernel
    case asks =>
      rw [namesWord_iff (by decide)]
      decide +kernel
    case defines =>
      rw [namesWord_iff (by decide)]
      decide +kernel
  obtain ⟨pairs, others⟩ := guards _ _ _ _ _ _ guard
  have guarded := pairs.2 rfl
  refine ⟨guarded, ?_, ?_⟩
  · rw [← guarded]
    apply insertion codeInGuard ["#include <a>".toList, "#ifndef WIDGET_H".toList]
      ["#define WIDGET_H 1".toList, "class Widget;".toList, "#endif".toList] "class A;".toList
    · decide +kernel
    · decide +kernel
    · decide +kernel
    · exact .code (by decide) (by decide +kernel) (by decide)
  · apply others directiveInGuard ["#include <a>".toList, "#ifndef WIDGET_H".toList]
      ["#define WIDGET_H 1".toList, "class Widget;".toList, "#endif".toList] "#undef A".toList
    · decide +kernel
    · decide +kernel
    · decide +kernel
    · decide +kernel
    · decide
    · decide +kernel
    · decide
    · rw [namesWord_iff (by decide)]
      decide +kernel
    · rw [namesWord_iff (by decide)]
      decide +kernel

/-- A line comment that runs on takes the line below it with it. -/
theorem isGuarded_below_continued_comment :
    lines "#pragma once\n".toList = [] ++ ["#pragma once".toList] ∧
      lines "// a \\\n#pragma once\n".toList =
        [] ++ "// a \\".toList :: ["#pragma once".toList] ∧
      IsLineComment "// a \\".toList ∧
      isGuarded "#pragma once\n".toList = true ∧
      isGuarded "// a \\\n#pragma once\n".toList = false := by
  refine ⟨by decide, by decide, ⟨" a \\".toList, by decide⟩, ?_, ?_⟩
  · decide +kernel
  · decide +kernel

end Upkeep
