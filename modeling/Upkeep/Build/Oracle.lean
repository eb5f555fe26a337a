import Upkeep.Tree.Basic

/-!
Build oracles.  An oracle looks at a tree and answers whether it builds; it may
change the tree on the way, and it may fail to answer.  An answer may depend on
how often the oracle was asked before, so it carries a state along.
-/

namespace Upkeep

/-- What a finished build says about the tree. -/
inductive Verdict where
  | pass
  | fail
  deriving DecidableEq, Repr

/-- Why a build gives no verdict. -/
inductive BuildError where
  | unavailable (program : Text) (fault : Fault)
  | log (path : Text) (fault : Fault)
  deriving DecidableEq, Repr

def BuildError.message : BuildError → String
  | .unavailable program fault =>
      s!"build oracle unavailable: failed to run {String.ofList program}: {fault.message}"
  | .log path fault => s!"failed to open build log {String.ofList path}: {fault.message}"

/-- What an oracle answers. -/
abbrev Answer := Except BuildError Verdict

/-- An oracle with its state at work on a tree. -/
structure World (State : Type) where
  state : State
  tree : Tree

/-- A judge of trees. -/
structure Oracle (State : Type) where
  build : World State → Answer × World State

/-- An oracle that leaves the tree as it is. -/
def Oracle.readOnly {State : Type} (answer : State → Tree → Answer × State) : Oracle State where
  build := fun ⟨state, tree⟩ =>
    let (verdict, state) := answer state tree
    (verdict, ⟨state, tree⟩)

/-- The oracle that gives a sequence of answers, whatever the tree; its state
counts the builds. -/
def Oracle.ofAnswers (answers : Nat → Answer) : Oracle Nat :=
  .readOnly fun calls _ => (answers calls, calls + 1)

/-- The oracle whose verdict is a function of the tree. -/
def Oracle.ofVerdict (verdict : Tree → Verdict) : Oracle Unit :=
  .readOnly fun state tree => (.ok (verdict tree), state)

/-- Verdicts to give in turn, and the verdict to give after them, if any. -/
structure Script where
  verdicts : List Verdict
  fallback : Option Verdict
  deriving DecidableEq, Repr

namespace Script

/-- Every build passes. -/
def passing : Script := ⟨[], some .pass⟩

/-- Every build fails. -/
def failing : Script := ⟨[], some .fail⟩

/-- The answer to a build after the given number of builds. -/
def answer (script : Script) (calls : Nat) : Answer :=
  match script.verdicts[calls]?.or script.fallback with
  | some verdict => .ok verdict
  | none => .error (.unavailable "scripted oracle".toList (.other "script exhausted".toList))

/-- The oracle that follows a script. -/
def oracle (script : Script) : Oracle Nat :=
  .ofAnswers script.answer

end Script

/-- A text that a file must hold or must not hold. -/
structure Expectation where
  path : Text
  text : Text
  deriving DecidableEq, Repr

/-- Whether the file holds the text.  A file that cannot be read counts as empty. -/
def Expectation.isMet (expectation : Expectation) (tree : Tree) : Bool :=
  match tree.readText expectation.path with
  | .ok content => occursIn expectation.text content
  | .error _ => occursIn expectation.text []

/-- What files must hold, and what they must not hold, for a build to pass. -/
structure Condition where
  required : List Expectation
  rejected : List Expectation
  deriving DecidableEq, Repr

def Condition.verdict (condition : Condition) (tree : Tree) : Verdict :=
  if condition.required.all (·.isMet tree) && !condition.rejected.any (·.isMet tree) then .pass
  else .fail

/-- The oracle that checks a condition. -/
def Condition.oracle (condition : Condition) : Oracle Unit :=
  .ofVerdict condition.verdict

end Upkeep
