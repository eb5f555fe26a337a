import Upkeep.Command.Inspect
import Upkeep.Command.Pattern.Reader

/-!
The program `grep`.  Lines are searched byte by byte.
-/

namespace Upkeep

/-- What a search is asked for. -/
structure Search where
  options : Text
  patterns : List Text
  limit : Option Nat
  operands : List Text
  deriving DecidableEq, Repr

/-- Why a search is not done. -/
inductive SearchError where
  | usage
  | badOption (option : Char)
  | badLongOption (option : Text)
  | missingValue (option : Char)
  | badLimit
  deriving DecidableEq, Repr

/-- The lines that an error says. -/
def SearchError.lines (error : SearchError) : List String :=
  let usage := ["Usage: grep [OPTION]... PATTERNS [FILE]...",
    "Try 'grep --help' for more information."]
  match error with
  | .usage => usage
  | .badOption option => s!"grep: invalid option -- '{option}'" :: usage
  | .badLongOption option => s!"grep: unrecognized option '{String.ofList option}'" :: usage
  | .missingValue option => s!"grep: option requires an argument -- '{option}'" :: usage
  | .badLimit => ["grep: invalid max count"]

namespace Search

/-- The options of one letter. -/
def letters : Text :=
  "EFGHLRachiloqrsnvwxyz".toList

/-- The letter that a long option stands for. -/
def letterOf? (name : Text) : Option Char :=
  match String.ofList name with
  | "extended-regexp" => some 'E'
  | "fixed-strings" => some 'F'
  | "basic-regexp" => some 'G'
  | "with-filename" => some 'H'
  | "no-filename" => some 'h'
  | "files-without-match" => some 'L'
  | "files-with-matches" => some 'l'
  | "count" => some 'c'
  | "ignore-case" => some 'i'
  | "invert-match" => some 'v'
  | "line-number" => some 'n'
  | "line-regexp" => some 'x'
  | "word-regexp" => some 'w'
  | "only-matching" => some 'o'
  | "quiet" | "silent" => some 'q'
  | "no-messages" => some 's'
  | "recursive" => some 'r'
  | "text" => some 'a'
  | _ => none

/-- Add the pattern lines of an option. -/
def addPatterns (search : Search) (patterns : Text) : Search :=
  { search with patterns := patterns.splitOn '\n' ++ search.patterns }

/-- Set the number of lines after which a file is left. -/
def withLimit (search : Search) (limit : Text) : Except SearchError Search :=
  if limit.isEmpty || !limit.all Char.isDigit then .error .badLimit
  else .ok { search with limit := search.limit.or (some (digitsValue 10 limit)) }

/-- Read the letters of one argument.  The result tells which option still wants a
value. -/
def readLetters (search : Search) : Text → Except SearchError (Search × Option Char)
  | [] => .ok (search, none)
  | letter :: rest =>
      if letter = 'e' ∨ letter = 'm' then
        match rest, letter with
        | [], _ => .ok (search, some letter)
        | value, 'e' => .ok (search.addPatterns value, none)
        | value, _ => (search.withLimit value).map (·, none)
      else if letters.contains letter then
        { search with options := letter :: search.options }.readLetters rest
      else .error (.badOption letter)

def ofArguments (search : Search) : List Text → Except SearchError Search
  | [] => .ok search
  | ['-', '-'] :: rest => .ok { search with operands := search.operands ++ rest }
  | ('-' :: '-' :: name) :: rest =>
      match letterOf? name, after? "regexp=".toList name, after? "max-count=".toList name with
      | some letter, _, _ => { search with options := letter :: search.options }.ofArguments rest
      | none, some value, _ => (search.addPatterns value).ofArguments rest
      | none, none, some value =>
          match search.withLimit value with
          | .ok search => search.ofArguments rest
          | .error error => .error error
      | none, none, none => .error (.badLongOption ('-' :: '-' :: name))
  | ('-' :: c :: options) :: rest =>
      match search.readLetters (c :: options) with
      | .error error => .error error
      | .ok (search, none) => search.ofArguments rest
      | .ok (search, some letter) =>
          match rest with
          | [] => .error (.missingValue letter)
          | value :: rest =>
              if letter = 'e' then (search.addPatterns value).ofArguments rest
              else
                match search.withLimit value with
                | .ok search => search.ofArguments rest
                | .error error => .error error
  | operand :: rest => { search with operands := search.operands ++ [operand] }.ofArguments rest

/-- Without a pattern option the first operand is the pattern. -/
def complete (search : Search) : Except SearchError Search :=
  match search.patterns, search.operands with
  | [], [] => .error .usage
  | [], pattern :: operands => .ok { search with patterns := pattern.splitOn '\n', operands }
  | _, _ => .ok search

def has (search : Search) (option : Char) : Bool :=
  search.options.contains option

/-- The form of the patterns that was asked for last. -/
def form (search : Search) : Char :=
  (search.options.find? "EFG".toList.contains).getD 'G'

/-- Read the patterns; any of them will do. -/
def pattern (search : Search) : Except PatternFault Pattern :=
  search.patterns.foldlM (fun (all : Pattern) text =>
    let text := byteText text
    let read : Except PatternFault Pattern :=
      if search.form = 'F' then .ok (.ofPlain text)
      else Pattern.ofText (search.form == 'E') text
    read.map fun pattern =>
      .choice all (if search.has 'i' || search.has 'y' then pattern.ignoringCase else pattern))
    (.one false [])

/-- Whether a part of a line is accepted by the places at its ends. -/
def accepts (search : Search) (start stop : LinePlace) : Bool :=
  if search.has 'x' then start.before.isNone && stop.after.isEmpty
  else
    !search.has 'w' ||
      (!start.before.any isPlainWord && !stop.after.head?.any isPlainWord)

/-- The parts of a line that are searched for, as the texts between their ends. -/
def found (search : Search) (pattern : Pattern) (line : Text) : List Text :=
  (pattern.parts search.accepts line).map fun (start, stop) =>
    (line.drop (line.length - start.after.length)).take
      (start.after.length - stop.after.length)

def selects (search : Search) (pattern : Pattern) (line : Text) : Bool :=
  (pattern.parts search.accepts line).isEmpty == search.has 'v'

end Search

/-- The lines of bytes; the last one need not be closed. -/
def byteLines (bytes : ByteArray) : List Text :=
  let pieces := (byteChars bytes).splitOn '\n'
  if pieces.getLast? = some [] then pieces.dropLast else pieces

namespace Search

/-- The text in front of a line. -/
def label (search : Search) (named : Bool) (operand : Text) (number : Nat) : Text :=
  (if named then byteText operand ++ [':'] else []) ++
    (if search.has 'n' then (toString number).toList ++ [':'] else [])

/-- What a search says about one file, as bytes. -/
def report
    (search : Search) (named : Bool) (operand : Text) (bytes : ByteArray)
    (selected : List (Text × Nat)) (pattern : Pattern) : List Text :=
  let name := byteText operand
  if search.has 'q' then []
  else if search.has 'l' || search.has 'L' then
    if selected.isEmpty == search.has 'L' then [name] else []
  else if search.has 'c' then
    [(if named then name ++ [':'] else []) ++ (toString selected.length).toList]
  else if bytes.toList.contains 0 && !search.has 'a' then
    if selected.isEmpty then [] else ["grep: ".toList ++ name ++ ": binary file matches".toList]
  else if search.has 'o' then
    selected.flatMap fun (line, number) =>
      if search.has 'v' then []
      else
        ((search.found pattern line).filter (· != [])).map
          (search.label named operand number ++ ·)
  else selected.map fun (line, number) => search.label named operand number ++ line

/-- The files that an operand stands for, with the names under which they are
reported. -/
def files (search : Search) (tree : Tree) (operand : Text) : List Text :=
  if search.has 'r' || search.has 'R' then
    match tree.node? (if operand = [] then ['.'] else operand) with
    | some (.folder mode entries) =>
        ((Node.folder mode entries).leaves.filter fun (_, node) =>
          match node with
          | .file _ => true
          | _ => false).map fun (place, _) => Path.join operand (['/'].intercalate place)
    | _ => [operand]
  else [operand]

/-- What a search has come to: whether anything was found, and whether anything went
wrong. -/
structure State where
  found : Bool
  failed : Bool
  session : Session

/-- Search the bytes of one file. -/
def inBytes
    (search : Search) (pattern : Pattern) (named : Bool) (streams : Streams) (operand : Text)
    (bytes : ByteArray) (state : State) : State :=
  let all := ((byteLines bytes).zipIdx 1).filter fun (line, _) => search.selects pattern line
  let selected := all.take (search.limit.getD all.length)
  let shown := if operand = ['-'] then "(standard input)".toList else operand
  let lines := search.report named shown bytes selected pattern
  { state with
    found := state.found || !selected.isEmpty
    session := lines.foldl (fun session line =>
      session.sayBytes streams.output (line ++ ['\n'])) state.session }

/-- Search one file.  A folder is a failure, and counts as empty. -/
def inFile
    (search : Search) (pattern : Pattern) (named : Bool) (streams : Streams) (state : State)
    (operand : Text) : State :=
  if search.has 'q' && state.found then state
  else
    match readOperand operand state.session with
    | .error fault =>
        let session := if search.has 's' then state.session
          else
            state.session.sayLine streams.messages
              s!"grep: {String.ofList operand}: {String.ofList fault.reason}"
        let state := { state with failed := true, session }
        if fault = .isADirectory then
          search.inBytes pattern named streams operand .empty state
        else state
    | .ok (bytes, session) =>
        search.inBytes pattern named streams operand bytes { state with session }

end Search

namespace Program

def grep : Program := fun arguments streams session =>
  match (Search.ofArguments ⟨[], [], none, []⟩ arguments).bind Search.complete with
  | .error error =>
      (2, error.lines.foldl (fun session line => session.sayLine streams.messages line) session)
  | .ok search =>
      match search.pattern with
      | .error fault => (2, session.sayLine streams.messages s!"grep: {fault.message}")
      | .ok pattern =>
          let deep := search.has 'r' || search.has 'R'
          let operands :=
            if search.operands.isEmpty then [if deep then [] else ['-']] else search.operands
          let named := (search.has 'H' || (operands.length > 1 || deep)) && !search.has 'h'
          let state := (operands.flatMap (search.files session.tree)).foldl
            (search.inFile pattern named streams) ⟨false, false, session⟩
          (if state.found && (search.has 'q' || !state.failed) then 0
            else if state.failed then 2 else 1, state.session)

end Program

end Upkeep
