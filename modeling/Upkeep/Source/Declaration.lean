import Upkeep.Text.Name

/-!
The declarations that a single line of code introduces.  Every form is read from
the start of the line; a record or an enumeration may have a lead-in of other
words, such as a storage class, before its keyword.
-/

namespace Upkeep

open Unicode

inductive DeclarationKind where
  | classType
  | structType
  | unionType
  | enumType
  | typeAlias
  | scope
  deriving DecidableEq, Repr

/-- Whether a declaration of this kind introduces the name of a type. -/
def DeclarationKind.isType (kind : DeclarationKind) : Bool :=
  kind != .scope

/-- A declared name and the zero-based number of its line. -/
structure Declaration where
  name : Text
  kind : DeclarationKind
  line : Nat
  deriving DecidableEq, Repr

/-- Whether a declaration can end here or open its body. -/
def opensOrEnds : Text → Bool
  | [] => true
  | c :: _ => c == ';' || c == '{'

/-- Whether what follows the name of a record lets it be a declaration: an
optional `final`, then a body, a semicolon, a base clause or the end. -/
def endsRecordHead (rest : Text) : Bool :=
  let rest := trimStart rest
  let rest := if firstWord rest = "final".toList then trimStart (afterWord rest) else rest
  match rest with
  | ':' :: c :: _ => c != ':'
  | rest => opensOrEnds rest

/-- The characters that the underlying type of an enumeration is made of. -/
def isUnderlyingTypeChar (c : Char) : Bool :=
  isWord c || c == ':' || isBlank c

/-- Whether what follows the name of an enumeration lets it be a declaration. -/
def endsEnumHead (rest : Text) : Bool :=
  match trimStart rest with
  | ':' :: base =>
      match base with
      | [] => false
      | c :: _ => isUnderlyingTypeChar c && opensOrEnds (base.dropWhile isUnderlyingTypeChar)
  | rest => opensOrEnds rest

/-- The name that an enumeration head introduces.  `class` and `struct` are
first taken for the scope of the enumeration, and else for its name. -/
def enumHead? (text : Text) : Option (DeclarationKind × Text) :=
  (keyword? "enum".toList text).bind fun rest =>
    let tagged := (keyword? "class".toList rest).or (keyword? "struct".toList rest)
    ((tagged.bind (nameAfterMacros? endsEnumHead)).or
      (nameAfterMacros? endsEnumHead rest)).map fun name => (.enumType, name)

/-- The name that a record head introduces. -/
def recordHead? (text : Text) : Option (DeclarationKind × Text) :=
  [("class", DeclarationKind.classType), ("struct", .structType), ("union", .unionType)].findSome?
    fun (word, kind) =>
      (keyword? word.toList text).bind fun rest =>
        (nameAfterMacros? endsRecordHead rest).map fun name => (kind, name)

/-- The name at the end of a type alias: optional array bounds and a semicolon
follow it. -/
def aliasedName? (text : Text) : Option Text :=
  (ident? text).bind fun (name, rest) =>
    let rest := trimStart rest
    let rest :=
      match rest with
      | '[' :: bounds =>
          match bounds.dropWhile (· != ']') with
          | [] => rest
          | _ :: rest => trimStart rest
      | _ => rest
    match rest with
    | ';' :: _ => some name
    | _ => none

/-- The first place at which a head can be read, with the text before it.  A head
starts a word, and no barrier stands before it. -/
def findHead? {Head : Type}
    (barrier : Char → Bool)
    (head? : Text → Option Head) :
    (inWord : Bool) → Text → Option (Text × Head)
  | _, [] => none
  | inWord, c :: rest =>
      match if inWord then none else head? (c :: rest) with
      | some head => some ([], head)
      | none =>
          if barrier c then none
          else (findHead? barrier head? (isWord c) rest).map fun (lead, head) => (c :: lead, head)

/-- Words that make a keyword after them no declaration. -/
def usageWords : List Text :=
  ["template", "friend", "using", "return", "new", "sizeof", "alignof", "decltype"].map
    String.toList

/-- Whether a declaration may follow this lead-in. -/
def leadAllowed (lead : Text) : Bool :=
  !lead.any (fun c => "<>=,:*&".toList.contains c) &&
    !(words lead).any (fun word => usageWords.contains word)

/-- The names of the scopes that a line opens. -/
def scopeNames? (text : Text) : Option (List Text) :=
  let text := (keyword? "inline".toList text).getD text
  (keyword? "namespace".toList text).bind fun rest =>
    (qualifiedName? rest).bind fun (names, rest) =>
      match trimStart rest with
      | [] => some names
      | c :: _ => if c = '{' then some names else none

/-- The name that a `using` line gives to a type. -/
def usingName? (text : Text) : Option Text :=
  (keyword? "using".toList text).bind fun rest =>
    (ident? rest).bind fun (name, rest) =>
      match trimStart rest with
      | '=' :: _ => some name
      | _ => none

/-- The name that a `typedef` line gives to a type. -/
def typedefName? (text : Text) : Option Text :=
  (keyword? "typedef".toList text).bind fun rest =>
    (findHead? (fun c => ";()".toList.contains c) aliasedName? false rest).map Prod.snd

/-- The record or enumeration that a line introduces after an allowed lead-in. -/
def typeNames (head? : Text → Option (DeclarationKind × Text)) (text : Text) :
    Option (List (DeclarationKind × Text)) :=
  (findHead? (fun c => ";{}()".toList.contains c) head? false text).map fun (lead, head) =>
    if leadAllowed lead then [head] else []

/-- What a line of code declares.  The first form that fits decides, even when it
then yields nothing. -/
def declaredBy (code : Text) : List (DeclarationKind × Text) :=
  let text := trimStart code
  let aliased := fun (name : Text) => [(DeclarationKind.typeAlias, name)]
  let forms :=
    ((scopeNames? text).map fun names => names.map fun name => (DeclarationKind.scope, name))
      |>.or ((usingName? text).map aliased)
      |>.or ((typedefName? text).map aliased)
      |>.or (typeNames enumHead? text)
      |>.or (typeNames recordHead? text)
  forms.getD []

end Upkeep
