import Upkeep.SymbolIndex

/-!
Reading a line of code as the declaration of a variable: specifiers, a type that
may have arguments, a suffix of stars and ampersands or a gap, a name, and the
rest, which must show that the name is declared here.
-/

namespace Upkeep

open Unicode

/-- Words that may stand before the type of a variable. -/
def specifierWords : List Text :=
  ["static", "inline", "thread_local", "extern"].map String.toList

/-- The places after a closing angle bracket that only allowed characters
precede, the last place first. -/
def afterClosings (allowed : Char → Bool) : Text → List Text
  | [] => []
  | c :: rest =>
      (if allowed c then afterClosings allowed rest else []) ++ (if c = '>' then [rest] else [])

/-- The places after optional type arguments, the longest arguments first. -/
def afterArguments (allowed : Char → Bool) (text : Text) : List Text :=
  match trimStart text with
  | '<' :: inner => afterClosings allowed inner ++ [text]
  | _ => [text]

/-- Whether a character makes a pointer or a reference. -/
def isIndirection (c : Char) : Bool :=
  c == '*' || c == '&'

/-- Read what separates a type from a name: stars and ampersands, or a gap. -/
def separator? (text : Text) : Option Text :=
  match trimStart text with
  | [] => none
  | c :: rest =>
      if isIndirection c then some (trimStart ((c :: rest).dropWhile isIndirection))
      else gap? text

/-- What may follow the name of a variable, up to the end of a single line. -/
def initializer? (text : Text) : Option Text :=
  match trimStart text with
  | [] => none
  | c :: rest =>
      if "=;([,".toList.contains c ∨ c = '{' then
        if rest.contains '\n' then none else some (c :: rest)
      else none

/-- Read what follows a type: its arguments, the separator, the name and the rest. -/
def declaratorAfterType? (text : Text) : Option Text :=
  (afterArguments (· != ';') text).findSome? fun rest =>
    (separator? rest).bind fun rest =>
      (ident? rest).bind fun (_, rest) => initializer? rest

/-- A declaration of a variable. -/
structure VariableDeclaration where
  /-- What stands from the type on. -/
  fromType : Text
  /-- The parts of the qualified name of the type. -/
  typeName : List Text
  /-- What follows the declared name. -/
  rest : Text
  deriving DecidableEq, Repr

/-- Read a declaration whose type begins here. -/
def variableAt? (start : Text) : Option VariableDeclaration :=
  (qualifiedName? start).bind fun (typeName, rest) =>
    (declaratorAfterType? rest).map fun rest => ⟨start, typeName, rest⟩

/-- Read the declaration of a variable.  As many specifiers as possible are
taken; one of them can still be the type. -/
def variableDeclaration? (body : Text) : Option VariableDeclaration :=
  (afterKeywords specifierWords body).findSome? variableAt?

/-- The parts of a text between `::`, without the blanks around them. -/
def scopeParts : Text → List Text
  | [] => [[]]
  | ':' :: ':' :: rest => [] :: scopeParts rest
  | c :: rest =>
      match scopeParts rest with
      | [] => [[c]]
      | part :: parts => (c :: part) :: parts

namespace SymbolIndex

/-- Whether a qualified name is an indexed type, all its qualifiers being indexed
scopes. -/
def knowsType (index : SymbolIndex) (parts : List Text) : Bool :=
  match parts.reverse with
  | [] => false
  | name :: qualifiers => index.isKnownType name && qualifiers.all index.isScope

/-- Whether a text names an indexed type. -/
def knowsTypeText (index : SymbolIndex) (text : Text) : Bool :=
  index.knowsType ((scopeParts text).map trim)

end SymbolIndex

end Upkeep
