import Upkeep.Text.Basic

/-!
Shell scripts.  Words keep apart what is quoted and what is not, because only what
is not quoted is cut at blanks and compared with names of files.
-/

namespace Upkeep

/-- What is done with the value of a parameter. -/
inductive ParameterUse where
  | plain
  | length
  | default (alsoEmpty : Bool)
  | alternative (alsoEmpty : Bool)
  | assignment (alsoEmpty : Bool)
  | demand (alsoEmpty : Bool)
  | cutStart (longest : Bool)
  | cutEnd (longest : Bool)
  | bad
  deriving DecidableEq, Repr

/-- A part of a word. -/
inductive WordPart where
  | text (quoted : Bool) (text : Text)
  | parameter (quoted : Bool) (name : Text) (use : ParameterUse) (word : List WordPart)
  | substitution (quoted : Bool) (script : Text)
  | arithmetic (quoted : Bool) (expression : List WordPart)

/-- A word as it is written. -/
abbrev ScriptWord := List WordPart

/-- What a redirection does with the word after it. -/
inductive RedirectionKind where
  | read
  | write
  | append
  | duplicate
  deriving DecidableEq, Repr

/-- A redirection of a numbered stream. -/
structure Redirection where
  stream : Nat
  kind : RedirectionKind
  target : ScriptWord

/-- A shell script.  Commands whose words can fail know their lines. -/
inductive ShellScript where
  | nothing
  | simple (line : Nat) (words : List ScriptWord) (redirections : List Redirection)
  | redirected (line : Nat) (script : ShellScript) (redirections : List Redirection)
  | sequence (first next : ShellScript)
  | both (first next : ShellScript)
  | either (first next : ShellScript)
  | negation (script : ShellScript)
  | pipe (first next : ShellScript)
  | subshell (script : ShellScript)
  | choice (condition yes no : ShellScript)
  | loop (isUntil : Bool) (condition body : ShellScript)
  | forEach (name : Text) (values : List ScriptWord) (body : ShellScript)
  | select (value : ScriptWord) (branches : List (List ScriptWord × ShellScript))
  | function (name : Text) (body : ShellScript)

/-- What is wrong with a script. -/
inductive SyntaxFault where
  | unexpected (sign : String) (expected : Option String)
  | openQuote
  | openBackquote
  | openBrace
  | openArithmetic
  | badLoopVariable
  | badFunctionName
  deriving DecidableEq, Repr

def SyntaxFault.message : SyntaxFault → String
  | .unexpected sign none => s!"{sign} unexpected"
  | .unexpected sign (some expected) => s!"{sign} unexpected (expecting {expected})"
  | .openQuote => "Unterminated quoted string"
  | .openBackquote => "EOF in backquote substitution"
  | .openBrace => "Missing '\x7d'"
  | .openArithmetic => "Missing '))'"
  | .badLoopVariable => "Bad for loop variable"
  | .badFunctionName => "Bad function name"

/-- Parameters that a single character names. -/
def isSpecialParameter (c : Char) : Bool :=
  c.isDigit || c == '@' || c == '*' || c == '#' || c == '?' || c == '$' || c == '!'

/-- Whether a character can stand in a parameter's name. -/
def isParameterName (c : Char) : Bool :=
  c.isAlphanum || c == '_'

def isVariableName (text : Text) : Bool :=
  match text with
  | [] => false
  | c :: rest => isIdentStart c && rest.all isParameterName

/-- The text of a word that is written without quotes and parameters. -/
def plainWord? : ScriptWord → Option Text
  | [] => some []
  | .text false text :: rest => (plainWord? rest).map (text ++ ·)
  | _ => none

/-- Read a word as the setting of a variable. -/
def setting? (word : ScriptWord) : Option (Text × ScriptWord) :=
  let name := word.takeWhile fun part =>
    match part with
    | .text false text => text != ['=']
    | _ => false
  match plainWord? name, word.drop name.length with
  | some named, .text false ['='] :: value =>
      if isVariableName named then some (named, value) else none
  | _, _ => none

end Upkeep
