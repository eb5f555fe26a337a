import Upkeep.Config.Toml.Basic

/-!
The tokens of a TOML text.  Every text has tokens; whether a token makes sense is for its
reader to say.  The texts of the tokens, one after the other, are the text itself, less
a byte-order mark at its start.
-/

namespace Upkeep

namespace Toml

/-- The kinds of tokens. -/
inductive TokenKind where
  | dot
  | equals
  | comma
  | listOpen
  | listClose
  | tableOpen
  | tableClose
  | blank
  | lineBreak
  | comment
  | literal
  | basic
  | longLiteral
  | longBasic
  | bare
  deriving DecidableEq, Repr

namespace TokenKind

def isString (kind : TokenKind) : Bool :=
  kind == .literal || kind == .basic || kind == .longLiteral || kind == .longBasic

/-- Whether a string may run over several lines. -/
def isLong (kind : TokenKind) : Bool :=
  kind == .longLiteral || kind == .longBasic

/-- Whether a string has escapes. -/
def hasEscapes (kind : TokenKind) : Bool :=
  kind == .basic || kind == .longBasic

/-- Whether a token can be a part of a key. -/
def isKey (kind : TokenKind) : Bool :=
  kind == .bare || kind.isString

/-- Whether a token says nothing. -/
def isGap (kind : TokenKind) : Bool :=
  kind == .blank || kind == .lineBreak || kind == .comment

/-- The quotes on both sides of a string. -/
def quotes : TokenKind → Text
  | .literal => ['\'']
  | .basic => ['"']
  | .longLiteral => ['\'', '\'', '\'']
  | .longBasic => ['"', '"', '"']
  | _ => []

end TokenKind

/-- A token: its text, and the number of characters before it. -/
structure Token where
  kind : TokenKind
  text : Text
  start : Nat
  deriving DecidableEq, Repr

/-- The number of characters up to the end of a token. -/
def Token.stop (token : Token) : Nat :=
  token.start + token.text.length

/-- Spaces and tabs. -/
def isSpace (c : Char) : Bool :=
  c == ' ' || c == '\t'

def endsBare (c : Char) : Bool :=
  isSpace c || ['.', '=', ',', '[', ']', '\x7b', '\x7d', '#', '\r', '\n'].contains c

/-- The length of a string without escapes after its opening quote.  It ends with its
closing quote or before the end of the line. -/
def literalLength : Text → Nat
  | [] => 0
  | '\n' :: _ => 0
  | '\'' :: _ => 1
  | _ :: rest => literalLength rest + 1

/-- The length of a string with escapes after its opening quote. -/
def basicLength : Text → Nat
  | [] => 0
  | '\n' :: _ => 0
  | '"' :: _ => 1
  | '\\' :: '\\' :: rest => basicLength rest + 2
  | '\\' :: '"' :: rest => basicLength rest + 2
  | _ :: rest => basicLength rest + 1

/-- The length of the quotes that close a long string: up to two more may stand before
the three that close it. -/
def closingLength (quote : Char) (rest : Text) : Nat :=
  3 + ((rest.take 2).takeWhile (· == quote)).length

/-- The length of a long string without escapes after its opening quotes. -/
def longLiteralLength : Text → Nat
  | [] => 0
  | '\'' :: '\'' :: '\'' :: rest => closingLength '\'' rest
  | _ :: rest => longLiteralLength rest + 1

/-- The length of a long string with escapes after its opening quotes. -/
def longBasicLength : Text → Nat
  | [] => 0
  | '"' :: '"' :: '"' :: rest => closingLength '"' rest
  | '\\' :: '\\' :: rest => longBasicLength rest + 2
  | '\\' :: '"' :: rest => longBasicLength rest + 2
  | _ :: rest => longBasicLength rest + 1

/-- The kind of the first token of a text, and its length less one. -/
def firstToken (c : Char) (rest : Text) : TokenKind × Nat :=
  match c, rest with
  | '.', _ => (.dot, 0)
  | '=', _ => (.equals, 0)
  | ',', _ => (.comma, 0)
  | '[', _ => (.listOpen, 0)
  | ']', _ => (.listClose, 0)
  | '\x7b', _ => (.tableOpen, 0)
  | '\x7d', _ => (.tableClose, 0)
  | '\r', '\n' :: _ => (.lineBreak, 1)
  | '\r', _ => (.lineBreak, 0)
  | '\n', _ => (.lineBreak, 0)
  | '#', rest => (.comment, (rest.takeWhile fun c => c != '\r' && c != '\n').length)
  | '\'', '\'' :: '\'' :: rest => (.longLiteral, longLiteralLength rest + 2)
  | '\'', rest => (.literal, literalLength rest)
  | '"', '"' :: '"' :: rest => (.longBasic, longBasicLength rest + 2)
  | '"', rest => (.basic, basicLength rest)
  | c, rest =>
      if isSpace c then (.blank, (rest.takeWhile isSpace).length)
      else (.bare, (rest.takeWhile fun c => !endsBare c).length)

/-- The tokens of a text of at most so many characters, given how many lie before it. -/
def tokensFrom : Nat → Nat → Text → List Token
  | length + 1, start, c :: rest =>
      let (kind, more) := firstToken c rest
      ⟨kind, c :: rest.take more, start⟩ ::
        tokensFrom length (start + 1 + more) (rest.drop more)
  | _, _, _ => []

/-- A text less a byte-order mark at its start. -/
def afterMark (text : Text) : Text :=
  (after? ['\uFEFF'] text).getD text

/-- The tokens of a text, less a byte-order mark at its start. -/
def tokens (text : Text) : List Token :=
  tokensFrom text.length (text.length - (afterMark text).length) (afterMark text)

theorem length_afterMark_le (text : Text) : (afterMark text).length ≤ text.length := by
  unfold afterMark
  cases marked : after? ['\uFEFF'] text with
  | none => simp
  | some rest => simp [after?_eq_some_iff.1 marked]

theorem flatMap_tokensFrom {length : Nat} {text : Text} (start : Nat)
    (fits : text.length ≤ length) :
    (tokensFrom length start text).flatMap Token.text = text := by
  induction length generalizing start text with
  | zero => simp [tokensFrom, List.eq_nil_of_length_eq_zero (Nat.le_zero.1 fits)]
  | succ length inductionHypothesis =>
      cases text with
      | nil => simp [tokensFrom]
      | cons c rest =>
          have shorter : (rest.drop (firstToken c rest).2).length ≤ length := by
            simp only [List.length_drop, List.length_cons] at fits ⊢
            omega
          simp [tokensFrom, inductionHypothesis _ shorter]

/-- No character is lost. -/
theorem flatMap_tokens (text : Text) : (tokens text).flatMap Token.text = afterMark text :=
  flatMap_tokensFrom _ (length_afterMark_le text)

end Toml

end Upkeep
