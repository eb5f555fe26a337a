import Upkeep.Command.Number
import Upkeep.Command.Script.Basic
import Upkeep.NameMap

/-!
Arithmetic in scripts: whole numbers of 64 bits, variables, and operators that bind
as they do in most languages.
-/

namespace Upkeep

/-- An expression. -/
inductive Arithmetic where
  | number (value : Int)
  | parameter (name : Text)
  | unary (operator : Char) (operand : Arithmetic)
  | binary (operator : Text) (left right : Arithmetic)
  | choice (condition yes no : Arithmetic)
  | assignment (name operator : Text) (value : Arithmetic)

/-- What is wrong with an expression. -/
inductive ArithmeticFault where
  | primaryExpected
  | endExpected
  | closingExpected
  | colonExpected
  | divisionByZero
  | badNumber (text : Text)
  deriving DecidableEq, Repr

def ArithmeticFault.message (expression : Text) : ArithmeticFault → String
  | .badNumber text => s!"Illegal number: {String.ofList text}"
  | fault =>
      let reason := match fault with
        | .primaryExpected | .badNumber _ => "expecting primary"
        | .endExpected => "expecting EOF"
        | .closingExpected => "expecting ')'"
        | .colonExpected => "expecting ':'"
        | .divisionByZero => "division by zero"
      s!"arithmetic expression: {reason}: \"{String.ofList expression}\""

namespace Arithmetic

/-- The binary operators, those that bind least first. -/
def levels : List (List String) :=
  [["||"], ["&&"], ["|"], ["^"], ["&"], ["==", "!="], ["<=", ">=", "<", ">"], ["<<", ">>"],
    ["+", "-"], ["*", "/", "%"]]

/-- All operators that stand between operands, longer ones before their beginnings. -/
def operators : List String :=
  ["<<=", ">>=", "||", "&&", "==", "!=", "<=", ">=", "<<", ">>", "+=", "-=", "*=", "/=", "%=",
    "|=", "^=", "&=", "|", "^", "&", "<", ">", "+", "-", "*", "/", "%", "=", "?", ":"]

/-- The operators that assign, with what they do before that. -/
def assigning? (operator : String) : Option Text :=
  if operator = "=" then some []
  else if ["<<=", ">>=", "+=", "-=", "*=", "/=", "%=", "|=", "^=", "&="].contains operator then
    some operator.toList.dropLast
  else none

def operator? (text : Text) : Option (String × Text) :=
  operators.findSome? fun operator =>
    (after? operator.toList (trimStart text)).map (operator, ·)

/-- What is read of an expression, and the text after it. -/
abbrev Reading := Except ArithmeticFault (Arithmetic × Text)

mutual

def expression : Nat → Text → Reading
  | 0, _ => .error .primaryExpected
  | bound + 1, text =>
      let start := trimStart text
      let name := start.takeWhile isParameterName
      match if isVariableName name then operator? (start.drop name.length) else none with
      | some (operator, rest) =>
          match assigning? operator with
          | some before =>
              (expression bound rest).map fun (value, rest) => (.assignment name before value, rest)
          | none => conditional bound text
      | none => conditional bound text

/-- Read a choice, or an expression without one. -/
def conditional : Nat → Text → Reading
  | 0, _ => .error .primaryExpected
  | bound + 1, text =>
      match level bound levels text with
      | .error fault => .error fault
      | .ok (condition, rest) =>
          match operator? rest with
          | some ("?", rest) =>
              match expression bound rest with
              | .error fault => .error fault
              | .ok (yes, rest) =>
                  match operator? rest with
                  | some (":", rest) =>
                      (conditional bound rest).map fun (no, rest) =>
                        (.choice condition yes no, rest)
                  | _ => .error .colonExpected
          | _ => .ok (condition, rest)

/-- Read operands joined by the operators of a level. -/
def level : Nat → List (List String) → Text → Reading
  | 0, _, _ => .error .primaryExpected
  | bound + 1, [], text => primary bound text
  | bound + 1, operators :: tighter, text =>
      match level bound tighter text with
      | .error fault => .error fault
      | .ok (left, rest) => levelFrom bound operators tighter left rest

/-- Go on after the operands of a level that were read so far. -/
def levelFrom : Nat → List String → List (List String) → Arithmetic → Text → Reading
  | 0, _, _, left, rest => .ok (left, rest)
  | bound + 1, operators, tighter, left, text =>
      match operator? text with
      | some (operator, rest) =>
          if operators.contains operator then
            match level bound tighter rest with
            | .error fault => .error fault
            | .ok (right, rest) =>
                levelFrom bound operators tighter (.binary operator.toList left right) rest
          else .ok (left, text)
      | none => .ok (left, text)

/-- Read a number, a variable, an expression in parentheses, or one of these after a
sign. -/
def primary : Nat → Text → Reading
  | 0, _ => .error .primaryExpected
  | bound + 1, text =>
      match trimStart text with
      | '(' :: rest =>
          match expression bound rest with
          | .error fault => .error fault
          | .ok (inside, rest) =>
              match trimStart rest with
              | ')' :: rest => .ok (inside, rest)
              | _ => .error .closingExpected
      | [] => .error .primaryExpected
      | c :: rest =>
          if c == '!' || c == '~' || c == '-' || c == '+' then
            (primary bound rest).map fun (operand, rest) => (.unary c operand, rest)
          else if c.isDigit then
            match numberAtStart? (c :: rest) with
            | some (value, rest) => .ok (.number value, rest)
            | none => .error .primaryExpected
          else if isIdentStart c then
            .ok (.parameter ((c :: rest).takeWhile isParameterName),
              (c :: rest).dropWhile isParameterName)
          else .error .primaryExpected

end

/-- Read a whole expression. -/
def ofText (text : Text) : Except ArithmeticFault Arithmetic :=
  match expression (16 * text.length + 16) text with
  | .error fault => .error fault
  | .ok (expression, rest) =>
      if (trimStart rest).isEmpty then .ok expression else .error .endExpected

/-- The number of 64 bits that a number stands for. -/
def wrap (value : Int) : Int :=
  value.bmod wordCount

/-- The number of a truth value. -/
def truth (holds : Bool) : Int :=
  if holds then 1 else 0

/-- What a binary operator makes of two numbers. -/
def apply (operator : Text) (left right : Int) : Except ArithmeticFault Int :=
  let bits := fun (value : Int) => BitVec.ofInt 64 value
  match String.ofList operator with
  | "||" => .ok (truth (left != 0 || right != 0))
  | "&&" => .ok (truth (left != 0 && right != 0))
  | "|" => .ok (bits left ||| bits right).toInt
  | "^" => .ok (bits left ^^^ bits right).toInt
  | "&" => .ok (bits left &&& bits right).toInt
  | "==" => .ok (truth (left == right))
  | "!=" => .ok (truth (left != right))
  | "<=" => .ok (truth (left ≤ right))
  | ">=" => .ok (truth (left ≥ right))
  | "<" => .ok (truth (left < right))
  | ">" => .ok (truth (left > right))
  | "<<" => .ok (bits left <<< (right % 64).toNat).toInt
  | ">>" => .ok ((bits left).sshiftRight (right % 64).toNat).toInt
  | "+" => .ok (wrap (left + right))
  | "-" => .ok (wrap (left - right))
  | "*" => .ok (wrap (left * right))
  | "/" => if right = 0 then .error .divisionByZero else .ok (wrap (left.tdiv right))
  | "%" => if right = 0 then .error .divisionByZero else .ok (left.tmod right)
  | _ => .ok right

/-- The number that a variable holds; one without a value holds zero. -/
def valueIn (values : NameMap Text) (name : Text) : Except ArithmeticFault Int :=
  match NameMap.get? name values with
  | none | some [] => .ok 0
  | some text =>
      match numberAtStart? text with
      | some (value, []) => .ok value
      | _ => .error (.badNumber text)

/-- The value of an expression, and the variables after it. -/
def value : Arithmetic → NameMap Text → Except ArithmeticFault (Int × NameMap Text)
  | .number value, values => .ok (wrap value, values)
  | .parameter name, values => (valueIn values name).map (·, values)
  | .unary operator operand, values =>
      (operand.value values).map fun (value, values) =>
        (match operator with
          | '!' => truth (value == 0)
          | '~' => -value - 1
          | '-' => wrap (-value)
          | _ => value, values)
  | .binary operator left right, values =>
      match left.value values with
      | .error fault => .error fault
      | .ok (first, values) =>
          if operator = ['|', '|'] ∧ first ≠ 0 then .ok (1, values)
          else if operator = ['&', '&'] ∧ first = 0 then .ok (0, values)
          else
            match right.value values with
            | .error fault => .error fault
            | .ok (second, values) => (apply operator first second).map (·, values)
  | .choice condition yes no, values =>
      match condition.value values with
      | .error fault => .error fault
      | .ok (holds, values) => if holds ≠ 0 then yes.value values else no.value values
  | .assignment name operator value, values =>
      match value.value values with
      | .error fault => .error fault
      | .ok (right, values) =>
          let result := if operator = [] then .ok right
            else (valueIn values name).bind fun left => apply operator left right
          result.map fun result => (result, NameMap.set name (toString result).toList values)

end Arithmetic

end Upkeep
