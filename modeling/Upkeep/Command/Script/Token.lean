import Upkeep.Command.Script.Word

/-!
The tokens of a script.  A text that cannot be read on ends in a token that says
why, so that the lines before it can still be run.
-/

namespace Upkeep

/-- A token of a script. -/
inductive Token where
  | word (word : ScriptWord)
  | redirection (stream : Nat) (kind : RedirectionKind)
  | operator (text : Text)
  | newline
  | stop
  | fault (fault : SyntaxFault)

/-- A token and the line on which it is read to its end. -/
structure LinedToken where
  line : Nat
  token : Token

/-- Read a redirection sign, given the number before it. -/
def redirection? (number : Option Nat) : Text → Option (Token × Text)
  | '>' :: '>' :: rest => some (.redirection (number.getD 1) .append, rest)
  | '>' :: '&' :: rest => some (.redirection (number.getD 1) .duplicate, rest)
  | '>' :: '|' :: rest => some (.redirection (number.getD 1) .write, rest)
  | '>' :: rest => some (.redirection (number.getD 1) .write, rest)
  | '<' :: '&' :: rest => some (.redirection (number.getD 0) .duplicate, rest)
  | '<' :: rest => some (.redirection (number.getD 0) .read, rest)
  | _ => none

/-- Read an operator between commands. -/
def operator? : Text → Option (Text × Text)
  | '&' :: '&' :: rest => some (['&', '&'], rest)
  | '|' :: '|' :: rest => some (['|', '|'], rest)
  | ';' :: ';' :: rest => some ([';', ';'], rest)
  | c :: rest =>
      if c == ';' || c == '&' || c == '|' || c == '(' || c == ')' then some ([c], rest) else none
  | [] => none

def tokensFrom : Nat → Nat → Text → List LinedToken
  | 0, line, _ => [⟨line, .stop⟩]
  | _ + 1, line, [] => [⟨line, .stop⟩]
  | bound + 1, line, c :: rest =>
      if c = ' ' ∨ c = '\t' then tokensFrom bound line rest
      else if c = '\n' then ⟨line, .newline⟩ :: tokensFrom bound (line + 1) rest
      else if c = '#' then tokensFrom bound line (rest.dropWhile (· != '\n'))
      else if c = '\\' ∧ rest.head? = some '\n' then tokensFrom bound (line + 1) rest.tail
      else
        let numbered :=
          if c.isDigit then redirection? (some (c.toNat - '0'.toNat)) rest else none
        match (redirection? none (c :: rest)).or numbered with
        | some (token, rest) => ⟨line, token⟩ :: tokensFrom bound line rest
        | none =>
            match operator? (c :: rest) with
            | some (operator, rest) => ⟨line, .operator operator⟩ :: tokensFrom bound line rest
            | none =>
                match scriptWord (c :: rest) with
                | .error fault => [⟨line + rest.count '\n', .fault fault⟩]
                | .ok (word, after) =>
                    let read := (c :: rest).take (rest.length + 1 - after.length)
                    ⟨line, .word word⟩ :: tokensFrom bound (line + read.count '\n') after

def tokens (text : Text) : List LinedToken :=
  tokensFrom (text.length + 1) 1 text

namespace Token

/-- The words with a meaning of their own where a command starts. -/
def reservedWords : List String :=
  ["if", "then", "elif", "else", "fi", "while", "until", "do", "done", "for", "in", "case",
    "esac", "!", "\x7b", "\x7d"]

def reserved? : Token → Option String
  | .word parts =>
      (plainWord? parts).bind fun text =>
        if reservedWords.contains (String.ofList text) then some (String.ofList text) else none
  | _ => none

/-- Whether a token is a given reserved word. -/
def isReserved (reserved : String) (token : Token) : Bool :=
  token.reserved? == some reserved

def isOperator (operator : String) : Token → Bool
  | .operator text => text == operator.toList
  | _ => false

def isNewline : Token → Bool
  | .newline => true
  | _ => false

/-- How a token is named in a message. -/
def name (token : Token) : String :=
  match token with
  | .word _ =>
      match token.reserved? with
      | some reserved => s!"\"{reserved}\""
      | none => "word"
  | .redirection .. => "redirection"
  | .operator text => s!"\"{String.ofList text}\""
  | .newline => "newline"
  | .stop | .fault _ => "end of file"

/-- The tokens that end a list of commands. -/
def endsList (token : Token) : Bool :=
  match token with
  | .stop | .fault _ => true
  | .operator text => text == [')'] || text == [';', ';']
  | _ => ["\x7d", "then", "elif", "else", "fi", "do", "done", "esac"].any (token.isReserved ·)

end Token

end Upkeep
