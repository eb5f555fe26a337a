import Upkeep.Rule.Constify.Prototype

/-!
Where `const` may be put into a line.  The line must declare a variable of an
indexed type and must not be immutable yet; the comment at its end plays no role.
-/

namespace Upkeep

open Unicode

/-- Words with which a statement begins that declares no variable. -/
def statementWords : List Text :=
  ["return", "using", "typedef", "class", "struct", "union", "enum", "friend", "delete", "new",
    "case", "default", "goto", "else", "if", "for", "while", "do", "switch", "throw", "template",
    "namespace", "public", "private", "protected", "static_assert", "co_return", "co_yield",
    "co_await"].map String.toList

/-- Words that rule out a proposal wherever they stand. -/
def excludedWords : List Text :=
  ["operator", "virtual", "override", "final", "template", "mutable"].map String.toList

/-- Words that make a declaration immutable. -/
def immutableWords : List Text :=
  ["const", "constexpr", "consteval", "constinit"].map String.toList

/-- Whether one of the given words stands in a text. -/
def hasWord (candidates : List Text) (text : Text) : Bool :=
  (words text).any fun word => candidates.contains word

/-- The first word of a statement, in ASCII. -/
def statementWord (body : Text) : Text :=
  body.takeWhile fun c => c.isAlphanum || c == '_'

/-- The part of a declaration before its initializer. -/
def declarationHead (body : Text) : Text :=
  body.takeWhile (· != '=')

/-- The code of a line without the blanks at its end. -/
def statement (line : Text) : Text :=
  trimEnd (codeOf line)

/-- What stands in the body of a statement from the type on, if `const` may be put
before the type. -/
def constifiable? (index : SymbolIndex) (body : Text) : Option Text :=
  if body.getLast? ≠ some ';' ∨ statementWords.contains (statementWord body) then none
  else if hasWord excludedWords body || hasWord immutableWords (declarationHead body) then none
  else
    (variableDeclaration? body).bind fun declared =>
      if index.knowsType declared.typeName && !isPrototype index declared.rest then
        some declared.fromType
      else none

/-- Where `const` may be put: what stands before it and what stands after it. -/
def insertionPoint? (index : SymbolIndex) (line : Text) : Option (Text × Text) :=
  (constifiable? index (trimStart (statement line))).map fun fromType =>
    line.splitAt ((statement line).length - fromType.length)

/-- The word that is put before the type. -/
def constWord : Text := "const ".toList

/-- The line with `const` put before the type of its declaration. -/
def propose? (index : SymbolIndex) (line : Text) : Option Text :=
  (insertionPoint? index line).map fun (before, after) => before ++ constWord ++ after

end Upkeep
