import Upkeep.Command.Number
import Upkeep.Command.Session

/-!
Tests of texts, numbers and files.
-/

namespace Upkeep

/-- What is wrong with a test. -/
inductive TestFault where
  | badNumber (operand : Text)
  | missingArgument (last : Text)
  | unaryExpected (operator : Text)
  | binaryExpected (operator : Text)
  | closingExpected (found : Option Text)
  | extraArgument (argument : Text)
  | unexpectedOperator (operator : Text)
  | argumentExpected (operator : Text)
  | missingBracket
  deriving DecidableEq, Repr

namespace Tree

/-- Whether a file has bytes. -/
def hasBytes (tree : Tree) (path : Text) : Bool :=
  match tree.node? path with
  | some (.file file) => file.bytes.size > 0
  | some (.folder ..) => true
  | _ => false

/-- Whether a path names a link. -/
def isLink (tree : Tree) (path : Text) : Bool :=
  match tree.locate false path with
  | .ok ⟨_, some (.link _)⟩ => true
  | _ => false

/-- Whether a path names something that may be run. -/
def isExecutable (tree : Tree) (path : Text) : Bool :=
  match tree.mode? path with
  | some mode => mode &&& 0o111 != 0
  | none => false

/-- Whether two paths lead to the same entry. -/
def areSame (tree : Tree) (left right : Text) : Bool :=
  match tree.locate true left, tree.locate true right with
  | .ok ⟨here, some _⟩, .ok ⟨there, some _⟩ => here == there
  | _, _ => false

end Tree

/-- The test that a letter after a dash stands for.  Everything in a tree belongs to
its user, and nothing in it is a device, a pipe, a socket or a terminal. -/
def unaryTest? (tree : Tree) (letter : Char) (operand : Text) : Option Bool :=
  match letter with
  | 'n' => some (!operand.isEmpty)
  | 'z' => some operand.isEmpty
  | 'e' | 'r' | 'w' | 'O' | 'G' => some (tree.node? operand).isSome
  | 'f' => some (tree.isFile operand)
  | 'd' => some (tree.isFolder operand)
  | 's' => some (tree.hasBytes operand)
  | 'x' => some (tree.isExecutable operand)
  | 'L' | 'h' => some (tree.isLink operand)
  | 'b' | 'c' | 'g' | 'k' | 'p' | 'S' | 't' | 'u' => some false
  | _ => none

/-- A comparison of numbers. -/
def comparison? (operator : Text) : Option (Int → Int → Bool) :=
  match operator with
  | ['-', 'e', 'q'] => some fun left right => left == right
  | ['-', 'n', 'e'] => some fun left right => left != right
  | ['-', 'l', 't'] => some fun left right => left < right
  | ['-', 'l', 'e'] => some fun left right => left ≤ right
  | ['-', 'g', 't'] => some fun left right => left > right
  | ['-', 'g', 'e'] => some fun left right => left ≥ right
  | _ => none

/-- Compare two operands as numbers. -/
def compareNumbers
    (compare : Int → Int → Bool) (left right : Text) : Except TestFault Bool :=
  match wholeNumber? left, wholeNumber? right with
  | none, _ => .error (.badNumber left)
  | _, none => .error (.badNumber right)
  | some left, some right => .ok (compare left right)

/-- The test that an operator between two operands stands for. -/
def binaryTest? (tree : Tree) (operator : Text) : Option (Text → Text → Except TestFault Bool) :=
  match operator with
  | ['='] => some fun left right => .ok (left == right)
  | ['!', '='] => some fun left right => .ok (left != right)
  | ['-', 'e', 'f'] => some fun left right => .ok (tree.areSame left right)
  | _ => (comparison? operator).map compareNumbers

/-- The status that a test ends with, after its message if it is malformed. -/
def Session.tested
    (session : Session) (streams : Streams) (message : TestFault → String) :
    Except TestFault Bool → Status × Session
  | .ok value => (if value then 0 else 1, session)
  | .error fault => (2, session.sayLine streams.messages (message fault))

end Upkeep
