import Upkeep.Command.Script.Token

/-!
The grammar of scripts.  A script is read line by line: `ShellScript.ofText` gives
the commands of each line that can be read, and what is wrong with the next one.
-/

namespace Upkeep

/-- What is wrong with a script, and on which line. -/
structure SyntaxError where
  line : Nat
  fault : SyntaxFault
  deriving DecidableEq, Repr

namespace ShellScript

/-- What is read by a rule, and the tokens after it. -/
abbrev Reading (α : Type) := Except SyntaxError (α × List LinedToken)

/-- The fault of a token that does not fit. -/
def unexpected {α : Type} (expected : Option String) (tokens : List LinedToken) :
    Except SyntaxError α :=
  match tokens with
  | ⟨line, .fault fault⟩ :: _ => .error ⟨line, fault⟩
  | ⟨line, token⟩ :: _ => .error ⟨line, .unexpected token.name expected⟩
  | [] => .error ⟨1, .unexpected Token.stop.name expected⟩

/-- Drop the newlines at the start. -/
def skipNewlines (tokens : List LinedToken) : List LinedToken :=
  tokens.dropWhile (·.token.isNewline)

/-- Take a token that has to come. -/
def expect
    (expected : String) (isExpected : Token → Bool) (tokens : List LinedToken) :
    Except SyntaxError (List LinedToken) :=
  match tokens with
  | ⟨line, token⟩ :: rest =>
      if isExpected token then .ok rest else unexpected (some expected) (⟨line, token⟩ :: rest)
  | [] => unexpected (some expected) []

/-- Take a reserved word that has to come, newlines before it skipped. -/
def expectReserved (reserved : String) (tokens : List LinedToken) :
    Except SyntaxError (List LinedToken) :=
  expect s!"\"{reserved}\"" (·.isReserved reserved) (skipNewlines tokens)

/-- Take an operator that has to come. -/
def expectOperator (operator : String) (tokens : List LinedToken) :
    Except SyntaxError (List LinedToken) :=
  expect s!"\"{operator}\"" (·.isOperator operator) tokens

def redirections : List LinedToken → Reading (List Redirection)
  | ⟨_, .redirection stream kind⟩ :: ⟨_, .word target⟩ :: rest =>
      (redirections rest).map fun (later, rest) => (⟨stream, kind, target⟩ :: later, rest)
  | ⟨_, .redirection ..⟩ :: rest => unexpected none rest
  | rest => .ok ([], rest)

/-- A command that starts on a line with the redirections that follow it. -/
def withRedirections (line : Nat) (reading : Reading ShellScript) : Reading ShellScript :=
  match reading with
  | .error error => .error error
  | .ok (script, rest) =>
      (redirections rest).map fun (found, rest) =>
        (if found.isEmpty then script else .redirected line script found, rest)

/-- Read the words and the redirections of a simple command. -/
def simpleParts : List LinedToken → Reading (List ScriptWord × List Redirection)
  | ⟨_, .word word⟩ :: rest =>
      (simpleParts rest).map fun ((words, redirections), rest) =>
        ((word :: words, redirections), rest)
  | ⟨_, .redirection stream kind⟩ :: ⟨_, .word target⟩ :: rest =>
      (simpleParts rest).map fun ((words, redirections), rest) =>
        ((words, ⟨stream, kind, target⟩ :: redirections), rest)
  | ⟨_, .redirection ..⟩ :: rest => unexpected none rest
  | rest => .ok (([], []), rest)

/-- Read the words up to another token. -/
def wordList : List LinedToken → List ScriptWord × List LinedToken
  | ⟨_, .word word⟩ :: rest =>
      let (words, rest) := wordList rest
      (word :: words, rest)
  | rest => ([], rest)

/-- Read the patterns of a branch up to its closing parenthesis. -/
def patterns : Nat → List LinedToken → Reading (List ScriptWord)
  | 0, tokens => unexpected none tokens
  | bound + 1, tokens =>
      match tokens with
      | ⟨_, .word word⟩ :: ⟨_, .operator ['|']⟩ :: rest =>
          (patterns bound rest).map fun (words, rest) => (word :: words, rest)
      | ⟨_, .word word⟩ :: rest =>
          (expectOperator ")" rest).map fun rest => ([word], rest)
      | tokens => unexpected (some "\")\"") tokens

/-- Read the head of a loop over values: its variable and the words of its values. -/
def forHead (tokens : List LinedToken) : Reading (Text × List ScriptWord) :=
  match tokens with
  | ⟨line, .word word⟩ :: rest =>
      match plainWord? word with
      | some name =>
          if !isVariableName name then .error ⟨line, .badLoopVariable⟩
          else
            match skipNewlines rest with
            | ⟨line, token⟩ :: later =>
                if token.isReserved "in" then
                  let (words, rest) := wordList later
                  match rest with
                  | ⟨_, .newline⟩ :: rest | ⟨_, .operator [';']⟩ :: rest => .ok ((name, words), rest)
                  | rest => unexpected none rest
                else
                  let all : List ScriptWord := [[.parameter true ['@'] .plain []]]
                  if token.isOperator ";" then .ok ((name, all), later)
                  else .ok ((name, all), ⟨line, token⟩ :: later)
            | [] => .ok ((name, []), [])
      | none => .error ⟨line, .badLoopVariable⟩
  | ⟨line, .fault fault⟩ :: _ => .error ⟨line, fault⟩
  | ⟨line, _⟩ :: _ => .error ⟨line, .badLoopVariable⟩
  | [] => .error ⟨1, .badLoopVariable⟩

mutual

/-- Read the commands of a list that a reserved word or a parenthesis ends. -/
def list : Nat → List LinedToken → Reading ShellScript
  | 0, tokens => unexpected none tokens
  | bound + 1, tokens =>
      match skipNewlines tokens with
      | [⟨line, .stop⟩] => .ok (.nothing, [⟨line, .stop⟩])
      | tokens =>
          match andOr bound tokens with
          | .error error => .error error
          | .ok (first, rest) =>
              match rest with
              | ⟨_, .newline⟩ :: rest | ⟨_, .operator [';']⟩ :: rest => listAfter bound first rest
              | ⟨_, .operator ['&']⟩ :: rest => listAfter bound (.subshell first) rest
              | rest => .ok (first, rest)

/-- Go on after a command and its separator. -/
def listAfter : Nat → ShellScript → List LinedToken → Reading ShellScript
  | 0, _, tokens => unexpected none tokens
  | bound + 1, first, tokens =>
      let tokens := skipNewlines tokens
      if tokens.head?.any (·.token.endsList) then .ok (first, tokens)
      else (list bound tokens).map fun (next, rest) => (.sequence first next, rest)

/-- Read pipelines joined by `&&` and `||`, which bind to the left. -/
def andOr : Nat → List LinedToken → Reading ShellScript
  | 0, tokens => unexpected none tokens
  | bound + 1, tokens =>
      match pipeline bound tokens with
      | .error error => .error error
      | .ok (first, rest) => andOrFrom bound first rest

/-- Go on after the pipelines read so far. -/
def andOrFrom : Nat → ShellScript → List LinedToken → Reading ShellScript
  | 0, _, tokens => unexpected none tokens
  | bound + 1, first, tokens =>
      match tokens with
      | ⟨_, .operator ['&', '&']⟩ :: rest =>
          match pipeline bound (skipNewlines rest) with
          | .error error => .error error
          | .ok (next, rest) => andOrFrom bound (.both first next) rest
      | ⟨_, .operator ['|', '|']⟩ :: rest =>
          match pipeline bound (skipNewlines rest) with
          | .error error => .error error
          | .ok (next, rest) => andOrFrom bound (.either first next) rest
      | rest => .ok (first, rest)

/-- Read a pipeline, negated or not. -/
def pipeline : Nat → List LinedToken → Reading ShellScript
  | 0, tokens => unexpected none tokens
  | bound + 1, tokens =>
      match tokens with
      | ⟨line, token⟩ :: rest =>
          if token.isReserved "!" then
            (commands bound rest).map fun (script, rest) => (.negation script, rest)
          else commands bound (⟨line, token⟩ :: rest)
      | [] => unexpected none []

/-- Read commands joined by bars. -/
def commands : Nat → List LinedToken → Reading ShellScript
  | 0, tokens => unexpected none tokens
  | bound + 1, tokens =>
      match command bound tokens with
      | .ok (first, ⟨_, .operator ['|']⟩ :: rest) =>
          (commands bound (skipNewlines rest)).map fun (next, rest) => (.pipe first next, rest)
      | other => other

def command : Nat → List LinedToken → Reading ShellScript
  | 0, tokens => unexpected none tokens
  | bound + 1, tokens =>
      match tokens with
      | [] => unexpected none []
      | ⟨line, token⟩ :: rest =>
          let enclosed := fun
              (close : List LinedToken → Except SyntaxError (List LinedToken))
              (wrap : ShellScript → ShellScript) =>
            withRedirections line (match list bound rest with
              | .error error => .error error
              | .ok (script, rest) => (close rest).map fun rest => (wrap script, rest))
          if token.isOperator "(" then enclosed (expectOperator ")") .subshell
          else
            match token.reserved? with
            | some "\x7b" => enclosed (expectReserved "\x7d") id
            | some "if" => withRedirections line (choiceAfter bound rest)
            | some "while" => withRedirections line (loopAfter bound false rest)
            | some "until" => withRedirections line (loopAfter bound true rest)
            | some "for" =>
                withRedirections line (match forHead rest with
                  | .error error => .error error
                  | .ok ((name, values), rest) =>
                      (doGroup bound rest).map fun (body, rest) =>
                        (.forEach name values body, rest))
            | some "case" =>
                withRedirections line (match rest with
                  | ⟨_, .word value⟩ :: rest =>
                      match expectReserved "in" rest with
                      | .error error => .error error
                      | .ok rest =>
                          (branches bound (skipNewlines rest)).map fun (found, rest) =>
                            (.select value found, rest)
                  | rest => unexpected (some "word") rest)
            | some "in" | none =>
                match token with
                | .word _ | .redirection .. => simpleOrFunction bound (⟨line, token⟩ :: rest)
                | token => unexpected none (⟨line, token⟩ :: rest)
            | some _ => unexpected none (⟨line, token⟩ :: rest)

/-- Read a simple command, or the definition of a function. -/
def simpleOrFunction : Nat → List LinedToken → Reading ShellScript
  | 0, tokens => unexpected none tokens
  | bound + 1, tokens =>
      match tokens with
      | ⟨line, .word word⟩ :: ⟨parenthesis, .operator ['(']⟩ :: rest =>
          match if (setting? word).isSome then
              unexpected none (⟨parenthesis, .operator ['(']⟩ :: rest)
            else expectOperator ")" rest with
          | .error error => .error error
          | .ok rest =>
              match (plainWord? word).filter isVariableName with
              | none => .error ⟨line, .badFunctionName⟩
              | some name =>
                  (command bound (skipNewlines rest)).map fun (body, rest) =>
                    (.function name body, rest)
      | tokens =>
          match simpleParts tokens with
          | .error error => .error error
          | .ok ((words, redirections), rest) =>
              match rest with
              | ⟨_, .operator ['(']⟩ :: _ => unexpected none rest
              | rest =>
                  .ok (.simple ((tokens.head?.map (·.line)).getD 1) words redirections, rest)

/-- Read the commands between `do` and `done`. -/
def doGroup : Nat → List LinedToken → Reading ShellScript
  | 0, tokens => unexpected none tokens
  | bound + 1, tokens =>
      match expectReserved "do" tokens with
      | .error error => .error error
      | .ok rest =>
          match list bound rest with
          | .error error => .error error
          | .ok (body, rest) => (expectReserved "done" rest).map fun rest => (body, rest)

/-- Read a loop after its first word. -/
def loopAfter : Nat → Bool → List LinedToken → Reading ShellScript
  | 0, _, tokens => unexpected none tokens
  | bound + 1, isUntil, tokens =>
      match list bound tokens with
      | .error error => .error error
      | .ok (condition, rest) =>
          (doGroup bound rest).map fun (body, rest) => (.loop isUntil condition body, rest)

/-- Read a choice after its first word. -/
def choiceAfter : Nat → List LinedToken → Reading ShellScript
  | 0, tokens => unexpected none tokens
  | bound + 1, tokens =>
      match list bound tokens with
      | .error error => .error error
      | .ok (condition, rest) =>
          match (expectReserved "then" rest).bind (list bound) with
          | .error error => .error error
          | .ok (yes, rest) =>
              match rest with
              | ⟨line, token⟩ :: rest =>
                  if token.isReserved "elif" then
                    (choiceAfter bound rest).map fun (no, rest) =>
                      (.choice condition yes no, rest)
                  else if token.isReserved "else" then
                    match list bound rest with
                    | .error error => .error error
                    | .ok (no, rest) =>
                        (expectReserved "fi" rest).map fun rest =>
                          (.choice condition yes no, rest)
                  else
                    (expectReserved "fi" (⟨line, token⟩ :: rest)).map fun rest =>
                      (.choice condition yes .nothing, rest)
              | [] => unexpected (some "\"fi\"") []

/-- Read the branches of a selection by patterns, up to its last word. -/
def branches : Nat → List LinedToken → Reading (List (List ScriptWord × ShellScript))
  | 0, tokens => unexpected none tokens
  | bound + 1, tokens =>
      match tokens with
      | ⟨line, token⟩ :: rest =>
          if token.isReserved "esac" then .ok ([], rest)
          else
            match patterns (rest.length + 1)
                (if token.isOperator "(" then rest else ⟨line, token⟩ :: rest) with
            | .error error => .error error
            | .ok (patterns, rest) =>
                let rest := skipNewlines rest
                let reading : Reading ShellScript :=
                  if rest.head?.any (·.token.endsList) then .ok (.nothing, rest) else list bound rest
                match reading with
                | .error error => .error error
                | .ok (body, rest) =>
                    if rest.head?.any (·.token.isReserved "esac") then
                      .ok ([(patterns, body)], rest.tail)
                    else
                      match expectOperator ";;" rest with
                      | .error error => .error error
                      | .ok rest =>
                          (branches bound (skipNewlines rest)).map fun (later, rest) =>
                            ((patterns, body) :: later, rest)
      | [] => unexpected (some "\")\"") []

end

/-- Read the commands of one line.  A command that ends on another line takes that
line with it. -/
def line : Nat → List LinedToken → Reading ShellScript
  | 0, tokens => unexpected none tokens
  | bound + 1, tokens =>
      match andOr bound tokens with
      | .error error => .error error
      | .ok (first, rest) =>
          let after := fun (first : ShellScript) (rest : List LinedToken) =>
            match rest with
            | ⟨_, .newline⟩ :: _ | ⟨_, .stop⟩ :: _ => .ok (first, rest)
            | rest => (line bound rest).map fun (next, rest) => (.sequence first next, rest)
          match rest with
          | ⟨_, .newline⟩ :: _ | ⟨_, .stop⟩ :: _ => .ok (first, rest)
          | ⟨_, .operator [';']⟩ :: rest => after first rest
          | ⟨_, .operator ['&']⟩ :: rest => after (.subshell first) rest
          | rest => unexpected none rest

/-- Read the lines of a script as far as they can be read. -/
def linesFrom : Nat → List LinedToken → List ShellScript × Option SyntaxError
  | 0, _ => ([], none)
  | bound + 1, tokens =>
      match skipNewlines tokens with
      | [] | [⟨_, .stop⟩] => ([], none)
      | tokens =>
          match line (16 * tokens.length + 16) tokens with
          | .error error => ([], some error)
          | .ok (script, rest) =>
              let (later, error) := linesFrom bound rest
              (script :: later, error)

/-- The commands of the lines of a script, and what is wrong with the line after
them. -/
def ofText (text : Text) : List ShellScript × Option SyntaxError :=
  linesFrom (text.length + 1) (tokens text)

end ShellScript

end Upkeep
