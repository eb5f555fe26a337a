import Upkeep.Command.Test.Basic

/-!
The `test` of the shell.  It looks at one argument at a time and asks what it is at
this place: an operator that has nothing to work on is an operand.
-/

namespace Upkeep

namespace ShellTest

/-- What an argument is at its place. -/
inductive Role where
  | missing
  | operand
  | unary (letter : Char)
  | binary (test : Text → Text → Except TestFault Bool)
  | negation
  | both
  | either
  | opening
  | closing

/-- The test that an operator between two operands stands for. -/
def binary? (tree : Tree) (operator : Text) : Option (Text → Text → Except TestFault Bool) :=
  match operator with
  | ['<'] => some fun left right => .ok (left < right)
  | ['>'] => some fun left right => .ok (right < left)
  | ['-', 'n', 't'] | ['-', 'o', 't'] => some fun _ _ => .ok false
  | _ => binaryTest? tree operator

/-- Whether a unary operator stands where an operand does. -/
def isOperandBefore (tree : Tree) : List Text → Bool
  | [] => true
  | [_] => false
  | next :: _ => (binary? tree next).isSome

/-- What the first of some arguments is. -/
def role (tree : Tree) : List Text → Role
  | [] => .missing
  | argument :: rest =>
      match argument with
      | ['!'] => .negation
      | ['('] => if rest = [] then .operand else .opening
      | [')'] => .closing
      | ['-', 'a'] => .both
      | ['-', 'o'] => .either
      | _ =>
          match binary? tree argument with
          | some test => .binary test
          | none =>
              match argument with
              | ['-', letter] =>
                  if (unaryTest? tree letter []).isSome && !isOperandBefore tree rest then
                    .unary letter
                  else .operand
              | _ => .operand

/-- What was read says, and the arguments from the last one that was read. -/
abbrev Reading := Except TestFault (Bool × List Text)

mutual

/-- Read terms joined by `-o`. -/
def disjunction (tree : Tree) : Nat → Role → List Text → Reading
  | 0, _, arguments => .ok (false, arguments)
  | fuel + 1, first, arguments =>
      match conjunction tree fuel first arguments with
      | .error fault => .error fault
      | .ok (value, last) =>
          match role tree last.tail with
          | .either =>
              let rest := last.tail.tail
              (disjunction tree fuel (role tree rest) rest).map fun (next, last) =>
                (value || next, last)
          | _ => .ok (value, last)

/-- Read terms joined by `-a`. -/
def conjunction (tree : Tree) : Nat → Role → List Text → Reading
  | 0, _, arguments => .ok (false, arguments)
  | fuel + 1, first, arguments =>
      match term tree fuel first arguments with
      | .error fault => .error fault
      | .ok (value, last) =>
          match role tree last.tail with
          | .both =>
              let rest := last.tail.tail
              (conjunction tree fuel (role tree rest) rest).map fun (next, last) =>
                (value && next, last)
          | _ => .ok (value, last)

def term (tree : Tree) : Nat → Role → List Text → Reading
  | 0, _, arguments => .ok (false, arguments)
  | fuel + 1, first, arguments =>
      match first with
      | .missing => .ok (false, arguments)
      | .negation =>
          let next := role tree arguments.tail
          let rest := if arguments.tail = [] then arguments else arguments.tail
          (term tree fuel next rest).map fun (value, last) => (!value, last)
      | .opening =>
          match role tree arguments.tail with
          | .closing => .ok (false, arguments.tail)
          | next =>
              match disjunction tree fuel next arguments.tail with
              | .error fault => .error fault
              | .ok (value, last) =>
                  match role tree last.tail with
                  | .closing => .ok (value, last.tail)
                  | _ => .error (.closingExpected none)
      | .unary letter =>
          match arguments.tail with
          | [] => .error (.argumentExpected ['-', letter])
          | operand :: rest =>
              .ok ((unaryTest? tree letter operand).getD false, operand :: rest)
      | _ =>
          match role tree arguments.tail, arguments with
          | .binary test, left :: _ :: right :: rest =>
              (test left right).map fun value => (value, right :: rest)
          | .binary _, [_, operator] => .error (.argumentExpected operator)
          | _, _ => .ok (arguments.head?.any (!·.isEmpty), arguments)

end

def whole (tree : Tree) (first : Role) (arguments : List Text) : Except TestFault Bool :=
  match disjunction tree (4 * arguments.length + 4) first arguments with
  | .error fault => .error fault
  | .ok (_, operator :: _ :: _) => .error (.unexpectedOperator operator)
  | .ok (value, _) => .ok value

/-- What all of the arguments say. -/
def value (tree : Tree) (arguments : List Text) : Except TestFault Bool :=
  let few := arguments.length = 3 ∨ arguments.length = 4
  match arguments with
  | [] => .ok false
  | first :: rest =>
      if arguments.length = 3 ∧ (rest.head?.bind (binary? tree)).isSome then
        whole tree .operand arguments
      else if few ∧ first = ['('] ∧ rest.getLast? = some [')'] then
        whole tree (role tree rest.dropLast) rest.dropLast
      else if few ∧ first = ['!'] then (value tree rest).map (!·)
      else whole tree (role tree arguments) arguments

end ShellTest

/-- The text of a fault in the words of the shell. -/
def TestFault.shellMessage : TestFault → String
  | .badNumber operand => s!"Illegal number: {String.ofList operand}"
  | .missingArgument last => s!"{String.ofList last}: argument expected"
  | .closingExpected _ => "closing paren expected"
  | .missingBracket => "missing ]"
  | .argumentExpected operator => s!"{String.ofList operator}: argument expected"
  | .unexpectedOperator operator | .unaryExpected operator | .binaryExpected operator
  | .extraArgument operator =>
      if operator.isEmpty then "unexpected operator"
      else s!"{String.ofList operator}: unexpected operator"

end Upkeep
