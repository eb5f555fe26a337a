import Upkeep.Config.Toml.Quoted
import Upkeep.Config.Value
import Upkeep.Decimal.Notation

/-!
Settings from environment variables.  A variable whose name starts with the prefix,
in any ASCII case, sets the value that the rest of its name leads to; two
underscores lead into a map.
-/

namespace Upkeep

/-- Environment variables with their texts. -/
abbrev Environment := List (Text × Text)

namespace Environment

/-- The text of a variable. -/
def get? (environment : Environment) (name : String) : Option Text :=
  (environment.find? fun entry => entry.1 == name.toList).map Prod.snd

/-- Whether a character ends a bare value inside brackets. -/
def endsBare (c : Char) : Bool :=
  c == ',' || c == '[' || c == ']' || c == '\x7b' || c == '\x7d'

/-- The blanks that are skipped around values. -/
def isGap (c : Char) : Bool :=
  c == ' ' || c == '\t' || c == '\n' || c == '\r' || c == '\x0c'

/-- Skip blanks. -/
def skipGap (text : Text) : Text :=
  text.dropWhile isGap

/-- Read a word in any ASCII case. -/
def word? (word : String) (text : Text) : Option Text :=
  if (text.take word.length).map Char.toLower = word.toList then some (text.drop word.length)
  else none

/-- Read a whole number with or without a sign, with zeros in front or not. -/
def whole? (text : Text) : Option Int :=
  let (negative, digits) := Decimal.sign text
  if digits.isEmpty || !digits.all Char.isDigit then none
  else
    let value : Int := digitsValue 10 digits
    let value := if negative then -value else value
    if -(signedWordCount : Int) ≤ value && value < wordCount then some value else none

/-- Read a fraction; one that is too large is no value. -/
def fraction? (text : Text) : Option Value :=
  let (negative, digits) := Decimal.sign text
  (Decimal.ofText? digits).map fun decimal =>
    ((Decimal.shortestText? negative decimal).map .fraction).getD .null

def bareValue (text : Text) : Value :=
  match if text.contains '.' then fraction? text else none with
  | some value => value
  | none =>
      match whole? text with
      | some value => .whole value
      | none => .text text

/-- Read a text between double quotes after the first one. -/
def quotedText : Nat → Text → Option (Text × Text)
  | 0, _ => none
  | _ + 1, [] => none
  | _ + 1, '"' :: rest => some ([], rest)
  | fuel + 1, '\\' :: rest =>
      match Toml.escape .first rest with
      | .ok (c, used) =>
          (quotedText fuel (rest.drop used)).map fun (text, left) => (c :: text, left)
      | .error _ => none
  | fuel + 1, c :: rest => (quotedText fuel rest).map fun (text, left) => (c :: text, left)

/-- Read the name of an entry of a map. -/
def entryName? (text : Text) : Option (Text × Text) :=
  match text with
  | '"' :: rest => quotedText (rest.length + 1) rest
  | _ =>
      match text.takeWhile Toml.isBareKey with
      | [] => none
      | name => some (name, text.drop name.length)

mutual

def value? : Nat → Text → Option (Value × Text)
  | 0, _ => none
  | fuel + 1, text =>
      let text := skipGap text
      match word? "true" text, word? "false" text with
      | some rest, _ => some (.bool true, skipGap rest)
      | _, some rest => some (.bool false, skipGap rest)
      | none, none =>
          match text with
          | '"' :: rest =>
              (quotedText (rest.length + 1) rest).map fun (text, rest) =>
                (.text text, skipGap rest)
          | '\'' :: c :: '\'' :: rest => some (.text [c], skipGap rest)
          | '\'' :: _ => none
          | '[' :: rest =>
              (items? fuel rest).map fun (values, rest) => (.list values, skipGap rest)
          | '\x7b' :: rest =>
              (entries? fuel rest).map fun (entries, rest) => (.map entries, skipGap rest)
          | text =>
              some (bareValue (trim (text.takeWhile fun c => !endsBare c)),
                text.dropWhile fun c => !endsBare c)

/-- Read the values of a list after its bracket or after a comma. -/
def items? : Nat → Text → Option (List Value × Text)
  | 0, _ => none
  | _ + 1, ']' :: rest => some ([], rest)
  | fuel + 1, text =>
      match value? fuel text with
      | some (first, ',' :: rest) =>
          (items? fuel rest).map fun (values, rest) => (first :: values, rest)
      | some (first, ']' :: rest) => some ([first], rest)
      | _ => none

/-- Read the entries of a map after its brace or after a comma. -/
def entries? : Nat → Text → Option (List (Text × Value) × Text)
  | 0, _ => none
  | _ + 1, '\x7d' :: rest => some ([], rest)
  | fuel + 1, text =>
      match entryName? (skipGap text) with
      | none => none
      | some (name, rest) =>
          match skipGap rest with
          | '=' :: rest =>
              match value? fuel rest with
              | some (read, ',' :: rest) =>
                  (entries? fuel rest).map fun (entries, rest) =>
                    (NameMap.set name read entries, rest)
              | some (read, '\x7d' :: rest) => some ([(name, read)], rest)
              | _ => none
          | _ => none

end

/-- The value of the text of a variable.  Commas make a list unless the text starts
with a bracket or a quote; what cannot be read as anything else is a text. -/
def valueOf (raw : Text) : Value :=
  let text := trim raw
  let bracketed :=
    match text with
    | c :: _ => c == '[' || c == '\x7b' || c == '"' || c == '\''
    | [] => false
  if text.contains ',' && !bracketed then
    .list ((text.splitOn ',').map fun item => .text (trim item))
  else
    match value? (text.length + 2) text with
    | some (value, []) => value
    | _ => .text text

/-- The parts of a name between pairs of underscores. -/
def nameParts : Text → List Text
  | '_' :: '_' :: rest => [] :: nameParts rest
  | c :: rest =>
      match nameParts rest with
      | part :: parts => (c :: part) :: parts
      | [] => [[c]]
  | [] => [[]]

/-- A value inside maps, one for each name of a path up to the first empty one. -/
def nest (value : Value) : List Text → Value
  | [] => value
  | [] :: _ => value
  | name :: path => .map [(name, nest value path)]

/-- What a variable sets. -/
def setting? (start : Text) (entry : Text × Text) : Option Settings :=
  match after? (start.map Char.toLower) (entry.1.map Char.toLower) with
  | some (c :: rest) =>
      match nest (valueOf entry.2) (nameParts (c :: rest)) with
      | .map entries => some entries
      | _ => none
  | _ => none

/-- The settings of the variables whose names have a given start. -/
def settings (start : Text) (environment : Environment) : Settings :=
  (environment.filterMap (setting? start)).foldl Value.overlayEntries []

end Environment

end Upkeep
