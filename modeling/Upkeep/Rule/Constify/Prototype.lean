import Upkeep.Rule.Constify.Declarator

/-!
Telling a function prototype from a variable with constructor arguments.  A list
in parentheses is one of parameters if it is empty, if one of its parts has the
form of a parameter, or if something other than a semicolon follows it.
-/

namespace Upkeep

open Unicode

/-- Cut a text at the commas that no bracket encloses.  A closing bracket without
an opening one changes nothing. -/
def topLevelParts (depth : Nat) : Text → List Text
  | [] => [[]]
  | c :: rest =>
      if c = ',' ∧ depth = 0 then [] :: topLevelParts 0 rest
      else
        let inside :=
          if c = '(' ∨ c = '<' ∨ c = '[' ∨ c = '{' then depth + 1
          else if c = ')' ∨ c = '>' ∨ c = ']' ∨ c = '}' then depth - 1
          else depth
        match topLevelParts inside rest with
        | [] => [[c]]
        | part :: parts => (c :: part) :: parts

/-- Words that may stand before the type of a parameter. -/
def parameterWords : List Text :=
  ["const", "volatile", "unsigned", "signed", "struct", "class", "enum"].map String.toList

/-- Types that are a parameter even without a name. -/
def builtinTypes : List Text :=
  ["void", "bool", "char", "short", "int", "long", "float", "double", "auto", "unsigned",
    "signed"].map String.toList

/-- Read the name of a type, with colons anywhere after its first character. -/
def typeToken? (text : Text) : Option Text :=
  match text with
  | [] => none
  | c :: rest =>
      if isIdentStart c then some (rest.dropWhile fun c => isWord c || c == ':') else none

/-- The places after optional type arguments without parentheses. -/
def afterPlainArguments (text : Text) : List Text :=
  afterArguments (fun c => c != '(' && c != ')') text

/-- Whether a parameter may end here, or have a default value on the same line. -/
def endsParameter (text : Text) : Bool :=
  match text with
  | [] => true
  | text =>
      match trimStart text with
      | '=' :: rest => !rest.contains '\n'
      | _ => false

/-- Whether a text is a type followed by the name of a parameter. -/
def isNamedParameter (text : Text) : Bool :=
  (afterKeywords parameterWords text).any fun start =>
    match typeToken? start with
    | none => false
    | some rest =>
        (afterPlainArguments rest).any fun rest =>
          match (separator? rest).bind ident? with
          | none => false
          | some (_, rest) => endsParameter rest

/-- Whether a text is a pointer or reference type without a name. -/
def isIndirectType (text : Text) : Bool :=
  match typeToken? text with
  | none => false
  | some rest =>
      (afterPlainArguments rest).any fun rest =>
        trimStart rest != [] && (trimStart rest).all isIndirection

/-- Whether a text has the form of a parameter. -/
def isTypedParameter (text : Text) : Bool :=
  isNamedParameter text || isIndirectType text || builtinTypes.contains text

/-- Drop a given start as often as it is there. -/
def dropRepeated (start text : Text) : Text :=
  match _read : after? start text with
  | none => text
  | some rest => if rest.length < text.length then dropRepeated start rest else text
termination_by text.length

/-- Whether a text is an indexed type, without a name. -/
def isIndexedType (index : SymbolIndex) (text : Text) : Bool :=
  let token :=
    trim (dropEnd (fun c => isIndirection c || c == ' ') (dropRepeated "const ".toList (trim text)))
  token != [] && index.knowsTypeText token

/-- Whether what follows a declared name makes it a function. -/
def isPrototype (index : SymbolIndex) (rest : Text) : Bool :=
  match rest with
  | '(' :: afterOpen =>
      match afterOpen.reverse.dropWhile (· != ')') with
      | [] => true
      | _ :: inner =>
          let tail := (afterOpen.reverse.takeWhile (· != ')')).reverse
          if trim tail ≠ [';'] then true
          else
            let parameters := trim inner.reverse
            parameters == [] ||
              (topLevelParts 0 parameters).any fun parameter =>
                isTypedParameter (trim parameter) || isIndexedType index parameter
  | _ => false

end Upkeep
