import Upkeep.Config.Toml.Date
import Upkeep.Config.Toml.Quoted
import Upkeep.Config.Value
import Upkeep.Decimal.Notation

/-!
Scalars of TOML: strings, truth values, numbers, dates.  A whole number fits into 64
bits with a sign; a fraction is told by the fewest digits that read back as the same
number.  A number that is written well but does not fit is a scalar without a value.
-/

namespace Upkeep

namespace Toml

def isSign (c : Char) : Bool :=
  c == '+' || c == '-'

/-- Whether a character can stand in a run of digits. -/
def isRunOf (base : Nat) (c : Char) : Bool :=
  isDigitOf base c || c == '_'

def hasDigit (text : Text) : Bool :=
  text.any Char.isDigit

/-- Where an underscore is at fault in the parts of a number between underscores.  There
must be a digit on both sides of it; a sign alone counts as one in front of the first. -/
def partsFault? (isDigit : Char → Bool) : Nat → Bool → List Text → Option Nat
  | _, _, [] => none
  | start, isFirst, part :: rest =>
      if part = [] then some start
      else if !isFirst && !part.head?.all isDigit then some (start - 1)
      else if !rest.isEmpty && 1 < part.length && !part.getLast?.all isDigit then
        some (start + part.length)
      else partsFault? isDigit (start + part.length + 1) false rest

/-- Where an underscore is at fault in a number. -/
def underscoreFault? (isDigit : Char → Bool) (start : Nat) (text : Text) : Option Nat :=
  if !text.contains '_' then none
  else if text.head? = some '_' then some start
  else if text.getLast? = some '_' then some (start + text.length - 1)
  else partsFault? isDigit start true (text.splitOn '_')

/-- Where an exponent is at fault. -/
def exponentFault? (start : Nat) : Text → Option Nat
  | [] => none
  | e :: rest =>
      let sign := (rest.take 1).takeWhile isSign
      let run := (rest.drop sign.length).takeWhile (isRunOf 10)
      let runStart := start + 1 + sign.length
      if e ≠ 'e' ∧ e ≠ 'E' then some start
      else if !hasDigit run then some runStart
      else if sign.length + run.length < rest.length then some (runStart + run.length)
      else none

/-- Where a fraction is at fault after its whole part. -/
def pointFault? (start : Nat) : Text → Option Nat
  | '.' :: rest =>
      let run := rest.takeWhile (isRunOf 10)
      if hasDigit run then exponentFault? (start + 1 + run.length) (rest.drop run.length)
      else some (start + 1)
  | rest => exponentFault? start rest

/-- Where a fraction is at fault after its sign; it has no zero in front of other digits. -/
def fractionFault? (start : Nat) (text : Text) : Option Nat :=
  let run := text.takeWhile (isRunOf 10)
  if !hasDigit run then some start
  else if run.head? = some '0' && 1 < (run.filter Char.isDigit).length then some start
  else pointFault? (start + run.length) (text.drop run.length)

/-- A whole number, if it fits. -/
def whole? (negative : Bool) (base : Nat) (digits : Text) : Option Value :=
  let size : Int := digitsValue base digits
  let value := if negative then -size else size
  if !digits.isEmpty && digits.all (isDigitOf base) &&
      -(signedWordCount : Int) ≤ value && value < signedWordCount then
    some (.whole value)
  else none

/-- A number as it is written, split after its sign. -/
structure Numeral where
  sign : Text
  body : Text
  start : Nat
  deriving DecidableEq, Repr

namespace Numeral

/-- Split a number after its sign. -/
def ofText (start : Nat) (text : Text) : Numeral :=
  let sign := (text.take 1).takeWhile isSign
  ⟨sign, text.drop sign.length, start⟩

/-- The whole text. -/
def text (numeral : Numeral) : Text :=
  numeral.sign ++ numeral.body

/-- Where the number starts after its sign. -/
def bodyStart (numeral : Numeral) : Nat :=
  numeral.start + numeral.sign.length

/-- Whether the sign is a minus. -/
def isNegative (numeral : Numeral) : Bool :=
  numeral.sign == ['-']

/-- The number after its sign without underscores. -/
def plainBody (numeral : Numeral) : Text :=
  numeral.body.filter (· != '_')

/-- Look at the underscores of a number in base ten.  In the first edition none may follow
the sign. -/
def checkUnderscores (edition : Edition) (isDigit : Char → Bool) (numeral : Numeral) :
    Reading Unit :=
  match underscoreFault? isDigit numeral.start numeral.text with
  | some fault => .error fault
  | none =>
      if edition = .first ∧ numeral.body.head? = some '_' then .error numeral.start else .ok ()

/-- Read a whole number in base ten; it has no zero in front of other digits. -/
def readWhole (edition : Edition) (numeral : Numeral) : Reading (Option Value) :=
  if numeral.body.head? = some '0' ∧ 1 < numeral.body.length then .error numeral.bodyStart
  else
    (numeral.checkUnderscores edition (isDigitOf 16)).map fun _ =>
      whole? numeral.isNegative 10 numeral.plainBody

def readFraction (edition : Edition) (numeral : Numeral) : Reading (Option Value) :=
  match fractionFault? numeral.bodyStart numeral.body with
  | some fault => .error fault
  | none =>
      (numeral.checkUnderscores edition Char.isDigit).map fun _ =>
        (Decimal.ofText? numeral.plainBody).bind fun decimal =>
          (Decimal.shortestText? numeral.isNegative decimal).map .fraction

/-- Read a date.  In the first edition a time of day without seconds is at fault where they
should stand. -/
def readDate (edition : Edition) (numeral : Numeral) : Reading (Option Value) :=
  if !isDate .second numeral.text then .error numeral.start
  else if isDate edition numeral.text then .ok (some (.map []))
  else .error (numeral.start + numeral.text.idxOf ':' + 3)

/-- The base that a letter after a zero stands for; base ten needs none. -/
def base? (letter : Char) : Option Nat :=
  match letter.toLower with
  | 'x' => some 16
  | 'o' => some 8
  | 'b' => some 2
  | 'd' => some 10
  | _ => none

/-- Read a whole number in a base after the letter of the base.  It has no sign, the
letter is small, and base ten has no letter. -/
def readBased (letter : Char) (base : Nat) (digits : Text) (numeral : Numeral) :
    Reading (Option Value) :=
  let start := numeral.bodyStart + 2
  if numeral.sign ≠ [] ∨ letter.isUpper then .error numeral.start
  else
    match digits.findIdx? fun c => !isRunOf base c with
    | some index => .error (start + index)
    | none =>
        match if base = 10 then some numeral.start
            else underscoreFault? (isDigitOf 16) start digits with
        | some fault => .error fault
        | none => .ok (whole? false base (digits.filter (· != '_')))

/-- Read a number in base ten or a date. -/
def readDecimal (edition : Edition) (numeral : Numeral) : Reading (Option Value) :=
  match numeral.body.dropWhile Char.isDigit with
  | [] => numeral.readWhole edition
  | c :: rest =>
      if c = '-' ∨ c = ':' then numeral.readDate edition
      else if c = '.' ∧ numeral.body.head? = some '.' then .error numeral.bodyStart
      else if (c :: rest).contains ' ' then .error numeral.start
      else if (c :: rest).any fun c => c == '.' || c == 'e' || c == 'E' then
        numeral.readFraction edition
      else if c = '_' then numeral.readWhole edition
      else .error numeral.start

/-- Read a number or a date; there are words for what is infinite and for what is no
number. -/
def read (edition : Edition) (numeral : Numeral) : Reading (Option Value) :=
  match numeral.body with
  | [] => .error numeral.start
  | c :: rest =>
      if isSign c then .error numeral.bodyStart
      else if ['i', 'I', 'n', 'N'].contains c then
        if numeral.body = "inf".toList ∨ numeral.body = "nan".toList then .ok (some .null)
        else .error numeral.bodyStart
      else
        match c, rest with
        | '0', letter :: digits =>
            match base? letter with
            | some base => numeral.readBased letter base digits
            | none => numeral.readDecimal edition
        | _, _ =>
            if c.isDigit || c == '_' || c == '.' then numeral.readDecimal edition
            else .error numeral.start

end Numeral

/-- Read a scalar; one that does not fit has no value. -/
def Token.scalar (edition : Edition) (token : Token) : Reading (Option Value) :=
  if token.kind.isString then (token.string edition).map fun text => some (.text text)
  else if token.text = "true".toList then .ok (some (.bool true))
  else if token.text = "false".toList then .ok (some (.bool false))
  else (Numeral.ofText token.start token.text).read edition

end Toml

end Upkeep
