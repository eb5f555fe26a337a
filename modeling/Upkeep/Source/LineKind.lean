import Upkeep.Text.Line

/-!
What each physical line of a source text is.  Only two facts pass from one line
to the next: whether a block comment is open, and whether the line continues a
directive or statement over a backslash.  Literals are closed at the line end.
-/

namespace Upkeep

inductive LineKind where
  | blank
  | code
  | comment
  | preprocessor
  | continuation
  deriving DecidableEq, Repr

/-- What a reader of a line is inside of. -/
inductive LineState where
  | code
  | literal (quote : Char)
  | blockComment
  deriving DecidableEq, Repr

/-- A character that opens a literal, and closes the one it opened. -/
def isQuote (c : Char) : Bool :=
  c == '"' || c == '\''

/-- Whether a block comment is open after a line that starts in the given state.
A comment opener and a comment closer never share a character. -/
def commentOpenAfter : LineState → Text → Bool
  | state, [] => state == .blockComment
  | .blockComment, '*' :: '/' :: rest => commentOpenAfter .code rest
  | .blockComment, _ :: rest => commentOpenAfter .blockComment rest
  | .literal _, ['\\'] => false
  | .literal quote, '\\' :: _ :: rest => commentOpenAfter (.literal quote) rest
  | .literal quote, c :: rest =>
      commentOpenAfter (if c = quote then .code else .literal quote) rest
  | .code, '/' :: '/' :: _ => false
  | .code, '/' :: '*' :: rest => commentOpenAfter .blockComment rest
  | .code, c :: rest => commentOpenAfter (if isQuote c then .literal c else .code) rest

/-- What one line passes on to the next. -/
structure Carry where
  inComment : Bool
  continued : Bool
  deriving DecidableEq, Repr

/-- Nothing is open before the first line. -/
def Carry.none : Carry := ⟨false, false⟩

/-- Whether the last character that is not blank is a backslash. -/
def endsInBackslash (line : Text) : Bool :=
  (trimEnd line).getLast? == some '\\'

/-- What a line passes on.  An open comment takes precedence over a backslash. -/
def Carry.after (carry : Carry) (line : Text) : Carry :=
  let inComment := commentOpenAfter (if carry.inComment then .blockComment else .code) line
  ⟨inComment, !inComment && endsInBackslash line⟩

/-- The kind of a line by its first characters that are not blank. -/
def kindByStart (line : Text) : LineKind :=
  match trimStart line with
  | [] => .blank
  | '/' :: '/' :: _ => .comment
  | '/' :: '*' :: _ => .comment
  | '#' :: _ => .preprocessor
  | _ => .code

/-- The kind of a line, given what the lines before it pass on. -/
def Carry.kind (carry : Carry) (line : Text) : LineKind :=
  if carry.continued then .continuation
  else if carry.inComment then .comment
  else kindByStart line

/-- The kinds of lines that follow a given carry. -/
def classifyFrom (carry : Carry) : List Text → List LineKind
  | [] => []
  | line :: rest => carry.kind line :: classifyFrom (carry.after line) rest

def classify (sourceLines : List Text) : List LineKind :=
  classifyFrom .none sourceLines

@[simp]
theorem length_classifyFrom (carry : Carry) (sourceLines : List Text) :
    (classifyFrom carry sourceLines).length = sourceLines.length := by
  induction sourceLines generalizing carry with
  | nil => rfl
  | cons line rest inductionHypothesis => simp [classifyFrom, inductionHypothesis]

@[simp]
theorem length_classify (sourceLines : List Text) :
    (classify sourceLines).length = sourceLines.length :=
  length_classifyFrom .none sourceLines

end Upkeep
