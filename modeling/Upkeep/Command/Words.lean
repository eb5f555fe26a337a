import Upkeep.Text.Basic

/-!
The words of a command line.  Quotes group characters, a backslash takes the next
character as it is, and a number sign in front of a word starts a comment.  No
other character means anything, so that a line is only ever cut into words.
-/

namespace Upkeep

/-- Where a reader of a command line stands.  The characters of the current word
come last one first. -/
inductive WordState where
  | between
  | comment
  | bare (word : Text)
  | single (word : Text)
  | double (word : Text)
  deriving DecidableEq, Repr

namespace WordState

/-- The characters of the current word, the last one first. -/
def word : WordState → Text
  | .between | .comment => []
  | .bare word | .single word | .double word => word

end WordState

def separatesWords (c : Char) : Bool :=
  c == ' ' || c == '\t' || c == '\n'

/-- The characters that a backslash protects between double quotes. -/
def escapedInDouble (c : Char) : Bool :=
  c == '$' || c == '`' || c == '"' || c == '\\'

/-- The words from a state on, or nothing if a quote or a backslash is left open. -/
def wordsFrom : WordState → Text → Option (List Text)
  | .between, [] => some []
  | .comment, [] => some []
  | .bare word, [] => some [word.reverse]
  | .single _, [] => none
  | .double _, [] => none
  | .comment, c :: rest => wordsFrom (if c = '\n' then .between else .comment) rest
  | .single word, c :: rest => wordsFrom (if c = '\'' then .bare word else .single (c :: word)) rest
  | .double word, '\\' :: c :: rest =>
      if c = '\n' then wordsFrom (.double word) rest
      else if escapedInDouble c then wordsFrom (.double (c :: word)) rest
      else wordsFrom (.double (c :: '\\' :: word)) rest
  | .double word, c :: rest =>
      if c = '\\' then none
      else wordsFrom (if c = '"' then .bare word else .double (c :: word)) rest
  | state, '\\' :: c :: rest =>
      wordsFrom (.bare (if c = '\n' then state.word else c :: state.word)) rest
  | state, c :: rest =>
      if c = '\\' then none
      else if c = '\'' then wordsFrom (.single state.word) rest
      else if c = '"' then wordsFrom (.double state.word) rest
      else if separatesWords c then
        match state with
        | .bare word => (wordsFrom .between rest).map (word.reverse :: ·)
        | _ => wordsFrom .between rest
      else if state = .between ∧ c = '#' then wordsFrom .comment rest
      else wordsFrom (.bare (c :: state.word)) rest

/-- The words of a command line, unless a quote or a backslash is left open. -/
def commandWords? (line : Text) : Option (List Text) :=
  wordsFrom .between line

end Upkeep
