import Upkeep.Command.Test.Basic

/-!
The program `test`.  Up to four arguments are read by their number, more of them as
an expression in which `-a` binds closer than `-o`.
-/

namespace Upkeep

namespace TestExpression

/-- What a part of the arguments says, and the arguments after it. -/
abbrev Reading := Except TestFault (Bool × List Text)

/-- The opposite of what was read. -/
def negate (reading : Reading) : Reading :=
  reading.map fun (value, rest) => (!value, rest)

/-- The test that an operator between two operands stands for. -/
def binary? (tree : Tree) (operator : Text) : Option (Text → Text → Except TestFault Bool) :=
  match operator with
  | ['=', '='] => binaryTest? tree ['=']
  | ['-', 'n', 't'] => some fun left right =>
      .ok ((tree.node? left).isSome && (tree.node? right).isNone)
  | ['-', 'o', 't'] => some fun left right =>
      .ok ((tree.node? left).isNone && (tree.node? right).isSome)
  | _ => binaryTest? tree operator

/-- The test that a letter after a dash stands for. -/
def unary? (tree : Tree) (letter : Char) (operand : Text) : Option Bool :=
  if letter = 'N' then some false else unaryTest? tree letter operand

def unaryFirst (tree : Tree) (last : Text) (letter : Char) : List Text → Reading
  | operand :: rest =>
      match unary? tree letter operand with
      | some value => .ok (value, rest)
      | none => .error (.unaryExpected ['-', letter])
  | [] =>
      .error (if (unary? tree letter []).isSome then .missingArgument last
        else .unaryExpected ['-', letter])

/-- Read one argument: it holds unless it is empty. -/
def one (last : Text) : List Text → Reading
  | operand :: rest => .ok (!operand.isEmpty, rest)
  | [] => .error (.missingArgument last)

/-- Read two arguments. -/
def two (tree : Tree) (last : Text) : List Text → Reading
  | ['!'] :: rest => negate (one last rest)
  | ['-', letter] :: rest => unaryFirst tree last letter rest
  | _ => .error (.missingArgument last)

/-- Read a term without an operator between operands. -/
def single (tree : Tree) (last operand : Text) (rest : List Text) : Reading :=
  match operand with
  | ['-', letter] => unaryFirst tree last letter rest
  | operand => .ok (!operand.isEmpty, rest)

mutual

/-- Read terms joined by `-o`. -/
def disjunction (tree : Tree) (last : Text) : Nat → List Text → Reading
  | 0, _ => .error (.missingArgument last)
  | fuel + 1, arguments =>
      match conjunction tree last fuel arguments with
      | .ok (first, ['-', 'o'] :: rest) =>
          (disjunction tree last fuel rest).map fun (next, rest) => (first || next, rest)
      | other => other

/-- Read terms joined by `-a`. -/
def conjunction (tree : Tree) (last : Text) : Nat → List Text → Reading
  | 0, _ => .error (.missingArgument last)
  | fuel + 1, arguments =>
      match term tree last fuel arguments with
      | .ok (first, ['-', 'a'] :: rest) =>
          (conjunction tree last fuel rest).map fun (next, rest) => (first && next, rest)
      | other => other

def term (tree : Tree) (last : Text) : Nat → List Text → Reading
  | 0, _ => .error (.missingArgument last)
  | fuel + 1, arguments =>
      match arguments with
      | [] => .error (.missingArgument last)
      | ['!'] :: rest => negate (term tree last fuel rest)
      | ['('] :: rest =>
          let inside := 1 + (rest.tail.takeWhile (· != [')'])).length
          match byCount tree last fuel (if inside ≤ 4 then inside else rest.length) rest with
          | .ok (value, [')'] :: rest) => .ok (value, rest)
          | .ok (_, rest) => .error (.closingExpected rest.head?)
          | .error fault => .error fault
      | operand :: rest =>
          match rest with
          | operator :: right :: later =>
              match binary? tree operator with
              | some test => (test operand right).map fun value => (value, later)
              | none => single tree last operand rest
          | rest => single tree last operand rest

def three (tree : Tree) (last : Text) : Nat → List Text → Reading
  | 0, _ => .error (.missingArgument last)
  | fuel + 1, arguments =>
      match arguments with
      | left :: operator :: right :: rest =>
          match binary? tree operator with
          | some test => (test left right).map fun value => (value, rest)
          | none =>
              if left = ['!'] then negate (two tree last (operator :: right :: rest))
              else if left = ['('] ∧ right = [')'] then .ok (!operator.isEmpty, rest)
              else if operator = ['-', 'a'] ∨ operator = ['-', 'o'] then
                disjunction tree last fuel arguments
              else .error (.binaryExpected operator)
      | _ => .error (.missingArgument last)

/-- Read a number of arguments. -/
def byCount (tree : Tree) (last : Text) : Nat → Nat → List Text → Reading
  | 0, _, _ => .error (.missingArgument last)
  | fuel + 1, count, arguments =>
      match count, arguments with
      | 1, arguments => one last arguments
      | 2, arguments => two tree last arguments
      | 3, arguments => three tree last fuel arguments
      | 4, ['!'] :: rest => negate (three tree last fuel rest)
      | 4, ['('] :: first :: second :: [')'] :: rest =>
          (two tree last [first, second]).map fun (value, _) => (value, rest)
      | _, arguments => disjunction tree last fuel arguments

end

/-- What all of the arguments say. -/
def value (tree : Tree) (arguments : List Text) : Except TestFault Bool :=
  match arguments.getLast? with
  | none => .ok false
  | some last =>
      match byCount tree last (4 * arguments.length + 4) arguments.length arguments with
      | .ok (value, []) => .ok value
      | .ok (_, extra :: _) => .error (.extraArgument extra)
      | .error fault => .error fault

end TestExpression

def TestFault.message : TestFault → String
  | .badNumber operand => s!"invalid integer {inQuotes operand}"
  | .missingArgument last => s!"missing argument after {inQuotes last}"
  | .unaryExpected operator => s!"{inQuotes operator}: unary operator expected"
  | .binaryExpected operator => s!"{inQuotes operator}: binary operator expected"
  | .closingExpected none => "')' expected"
  | .closingExpected (some found) => s!"')' expected, found {inQuotes found}"
  | .extraArgument argument => s!"extra argument {inQuotes argument}"
  | .unexpectedOperator operator => s!"{inQuotes operator}: unexpected operator"
  | .argumentExpected operator => s!"{inQuotes operator}: argument expected"
  | .missingBracket => "missing ']'"

namespace Program

def test : Program := fun arguments streams session =>
  session.tested streams (fun fault => s!"test: {fault.message}") (TestExpression.value session.tree arguments)

/-- The program `[`, which wants a closing bracket. -/
def bracketTest : Program := fun arguments streams session =>
  session.tested streams (fun fault => s!"[: {fault.message}")
    (if arguments.getLast? = some [']'] then TestExpression.value session.tree arguments.dropLast
      else .error .missingBracket)

end Program

end Upkeep
