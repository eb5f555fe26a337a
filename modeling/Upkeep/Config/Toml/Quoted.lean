import Upkeep.Config.Toml.Token
import Upkeep.Text.Digit

/-!
Strings and keys of TOML.  A string between double quotes has escapes, one between
single quotes has none; a string between three quotes may run over several lines.
-/

namespace Upkeep

namespace Toml

/-- Read an escape after its backslash: its character, and how many characters it takes. -/
def escape (edition : Edition) : Text → Reading (Char × Nat)
  | [] => .error 0
  | letter :: rest =>
      match edition.named? letter, edition.codeLength? letter with
      | some c, _ => .ok (c, 1)
      | none, none => .error edition.unknownEscape
      | none, some count =>
          let digits := (rest.take count).takeWhile (isDigitOf 16)
          let code := digitsValue 16 digits
          if digits.length < count then .error (1 + digits.length)
          else if code.isValidChar then .ok (Char.ofNat code, 1 + count)
          else .error 1

/-- The length of the blanks and line breaks at the start of a text. -/
def gapLength : Text → Nat
  | ' ' :: rest => gapLength rest + 1
  | '\t' :: rest => gapLength rest + 1
  | '\n' :: rest => gapLength rest + 1
  | '\r' :: '\n' :: rest => gapLength rest + 2
  | _ => 0

/-- How much a backslash at the end of a line skips: the rest of the line, which is
blank, and all blanks and line breaks after it. -/
def skippedLength (text : Text) : Reading Nat :=
  let blanks := (text.takeWhile isSpace).length
  match text.drop blanks with
  | '\n' :: _ => .ok (gapLength text)
  | '\r' :: '\n' :: _ => .ok (gapLength text)
  | '\r' :: _ => .error (blanks + 1)
  | _ => .error blanks

/-- Whether a backslash before this text skips what follows it. -/
def startsGap (text : Text) : Bool :=
  text.head?.any fun c => isSpace c || c == '\r' || c == '\n'

/-- The inside of a string of so many characters at most, given where it starts. -/
def inside (edition : Edition) (kind : TokenKind) : Nat → Nat → Text → Reading Text
  | length + 1, start, c :: rest =>
      if c = '\\' ∧ kind.hasEscapes then
        if kind.isLong && startsGap rest then
          match skippedLength rest with
          | .error fault => .error (start + 1 + fault)
          | .ok skipped => inside edition kind length (start + 1 + skipped) (rest.drop skipped)
        else
          match escape edition rest with
          | .error fault => .error (start + 1 + fault)
          | .ok (c, used) =>
              (inside edition kind length (start + 1 + used) (rest.drop used)).map (c :: ·)
      else if kind.isLong && c == '\r' then
        if rest.head? = some '\n' then inside edition kind length (start + 1) rest
        else .error (start + 1)
      else if isPlain c || (kind.isLong && c == '\n') then
        (inside edition kind length (start + 1) rest).map (c :: ·)
      else .error start
  | _, _, _ => .ok []

/-- The length of the line break that is dropped at the start of a long string. -/
def firstBreakLength (kind : TokenKind) (text : Text) : Nat :=
  if !kind.isLong then 0
  else
    match text with
    | '\n' :: _ => 1
    | '\r' :: '\n' :: _ => 2
    | _ => 0

/-- The text that a string stands for.  A string that is not closed is at fault where it
ends, whatever else is wrong with it. -/
def Token.string (edition : Edition) (token : Token) : Reading Text :=
  let quotes := token.kind.quotes
  let opened := token.text.drop quotes.length
  let dropped := firstBreakLength token.kind opened
  let content := opened.drop dropped
  let length := content.length - quotes.length
  if quotes.isSuffixOf content then
    inside edition token.kind length (token.start + quotes.length + dropped) (content.take length)
  else .error token.stop

/-- The name that a part of a key stands for. -/
def Token.name (edition : Edition) (token : Token) : Reading Text :=
  if token.kind.isLong then .error token.start
  else if token.kind.isString then token.string edition
  else
    match token.text, token.text.findIdx? fun c => !isBareKey c with
    | [], _ => .error token.start
    | name, none => .ok name
    | _, some index => .error (token.start + index)

end Toml

end Upkeep
