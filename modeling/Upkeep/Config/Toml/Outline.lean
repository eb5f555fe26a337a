import Upkeep.Config.Toml.Scalar

/-!
The outline of a TOML text: its pairs and headers, with keys and scalars as they are
written.  A missing part of a key and a missing value stand as empty tokens, whose fault
is told when they are read.

In the second edition the outline looks at nothing but the order of tokens.  In the first
edition it looks at keys and scalars as well, so that the first fault in the order of the
text is found; it is meant for texts that the second edition accepts.
-/

namespace Upkeep

namespace Toml

/-- What is written for a value. -/
inductive Shape where
  | scalar (token : Token)
  | list (items : List Shape)
  | table (pairs : List (List Token × Shape))

/-- A pair of a key and a value, or the header of a table or of one table of a list. -/
inductive Statement where
  | pair (key : List Token) (shape : Shape)
  | header (isListed : Bool) (key : List Token)

/-- What is known about a text as a whole: its edition, where it ends, and where the last
token ends that says something. -/
structure Page where
  edition : Edition
  stop : Nat
  lastStop : Nat
  deriving DecidableEq, Repr

namespace Page

def ofTokens (edition : Edition) (text : Text) (tokens : List Token) : Page where
  edition
  stop := text.length
  lastStop := ((tokens.filter fun token => !token.kind.isGap).getLast?.map Token.stop).getD 0

/-- Where the next token starts. -/
def next (page : Page) (tokens : List Token) : Nat :=
  (tokens.head?.map Token.start).getD page.stop

/-- A token that is missing before others. -/
def missing (page : Page) (tokens : List Token) : Token :=
  ⟨.bare, [], page.next tokens⟩

end Page

/-- Skip spaces and tabs. -/
def skipBlank (tokens : List Token) : List Token :=
  tokens.dropWhile fun token => token.kind == .blank

/-- Where a comment or a line break is at fault: at a control character, or behind half a
line break. -/
def Token.gapFault? (token : Token) : Option Nat :=
  match token.kind with
  | .comment => (token.text.findIdx? fun c => !isPlain c).map (token.start + ·)
  | .lineBreak => if token.text = ['\r'] then some token.stop else none
  | _ => none

/-- Skip blanks, comments and line breaks. -/
def skipGap : List Token → Reading (List Token)
  | [] => .ok []
  | token :: rest =>
      if token.kind.isGap then
        match token.gapFault? with
        | some fault => .error fault
        | none => skipGap rest
      else .ok (token :: rest)

/-- Skip a gap in a table in braces.  In the first edition it has no line breaks; one after
a comma is told at the comma. -/
def skipInnerGap (page : Page) (comma? : Option Nat) (tokens : List Token) :
    Reading (List Token) :=
  match page.edition, skipBlank tokens with
  | .first, token :: rest =>
      if token.kind.isGap then .error (comma?.getD token.start) else .ok (token :: rest)
  | _, rest => skipGap rest

/-- Look at the text of a key or a scalar in the first edition. -/
def Page.check {Item : Type} (page : Page) (read : Token → Reading Item) (token : Token) :
    Reading Unit :=
  match page.edition with
  | .first => (read token).map fun _ => ()
  | .second => .ok ()

/-- The parts of a key after its first one.  Where a part is missing between or after dots
an empty one stands. -/
def moreParts (page : Page) : Nat → List Token → List Token × List Token
  | 0, tokens => ([], tokens)
  | fuel + 1, tokens =>
      match skipBlank tokens with
      | ⟨.dot, _, _⟩ :: rest =>
          match skipBlank rest with
          | [] => ([page.missing []], [])
          | token :: rest =>
              let (part, rest) :=
                if token.kind.isKey then (token, rest)
                else (page.missing (token :: rest), token :: rest)
              let (parts, rest) := moreParts page fuel rest
              (part :: parts, rest)
      | rest => ([], rest)

/-- Read a key.  Its first part can be missing in front of some kinds of tokens; a key that
is too long for the first edition is told at the given place. -/
def keyPath (page : Page) (mayLack : TokenKind → Bool) (place : Nat) (tokens : List Token) :
    Reading (List Token × List Token) := do
  let (first, rest) ←
    match tokens with
    | [] => .error page.stop
    | token :: rest =>
        if token.kind.isKey then .ok (token, rest)
        else if mayLack token.kind then .ok (page.missing tokens, tokens)
        else .error token.start
  let (parts, rest) := moreParts page (rest.length + 1) rest
  let key := first :: parts
  key.forM (page.check (Token.name page.edition))
  if page.edition = .first ∧ Edition.first.keyLength < key.length then .error place
  else .ok (key, rest)

/-- The rest of a bare scalar: dots and bare tokens follow directly, other bare tokens
after blanks. -/
def bareRest : List Token → Text × List Token
  | token :: next :: rest =>
      if token.kind = .blank ∧ next.kind = .bare then
        let (text, left) := bareRest rest
        (token.text ++ next.text ++ text, left)
      else if token.kind = .dot ∨ token.kind = .bare then
        let (text, left) := bareRest (next :: rest)
        (token.text ++ text, left)
      else ([], token :: next :: rest)
  | [token] => if token.kind = .dot ∨ token.kind = .bare then (token.text, []) else ([], [token])
  | [] => ([], [])

mutual

/-- Read a value within so many brackets and braces. -/
def shape (page : Page) : Nat → Nat → List Token → Reading (Shape × List Token)
  | 0, _, _ => .error page.stop
  | _ + 1, _, [] => .error page.lastStop
  | fuel + 1, depth, token :: rest =>
      if token.kind = .listOpen ∨ token.kind = .tableOpen then
        if depth = page.edition.depth then .error token.start
        else if token.kind = .listOpen then
          (items page fuel (depth + 1) true rest).map fun (shapes, rest) => (.list shapes, rest)
        else (pairs page fuel (depth + 1) none rest).map fun (pairs, rest) => (.table pairs, rest)
      else if token.kind = .dot ∨ token.kind.isKey then
        let (more, rest) := if token.kind.isString then ([], rest) else bareRest rest
        let whole : Token := ⟨token.kind, token.text ++ more, token.start⟩
        (page.check (Token.scalar page.edition) whole).map fun _ => (.scalar whole, rest)
      else .error token.start

/-- Read the items of a list up to its closing bracket; an item is wanted at the start and
after a comma. -/
def items (page : Page) : Nat → Nat → Bool → List Token → Reading (List Shape × List Token)
  | 0, _, _, _ => .error page.stop
  | fuel + 1, depth, isWanted, tokens =>
      match skipGap tokens with
      | .error fault => .error fault
      | .ok [] => .error page.lastStop
      | .ok (token :: rest) =>
          if token.kind = .listClose then .ok ([], rest)
          else if isWanted then do
            let (first, rest) ← shape page fuel depth (token :: rest)
            let (others, rest) ← items page fuel depth false rest
            return (first :: others, rest)
          else if token.kind = .comma then items page fuel depth true rest
          else .error token.start

/-- Read the pairs of a table up to its closing brace, given the comma before them. -/
def pairs (page : Page) :
    Nat → Nat → Option Nat → List Token → Reading (List (List Token × Shape) × List Token)
  | 0, _, _, _ => .error page.stop
  | fuel + 1, depth, comma?, tokens =>
      match skipInnerGap page comma? tokens with
      | .error fault => .error fault
      | .ok [] => .error page.lastStop
      | .ok (token :: rest) =>
          if token.kind = .tableClose then
            match page.edition, comma? with
            | .first, some comma => .error comma
            | _, _ => .ok ([], rest)
          else do
            let (key, rest) ←
              keyPath page (fun kind => kind == .equals || kind == .dot)
                (comma?.getD token.start) (token :: rest)
            let afterKey ← skipInnerGap page none rest
            match afterKey with
            | [] => .error page.lastStop
            | equals :: rest =>
                if equals.kind ≠ .equals then .error equals.start
                else
                  let valueTokens ← skipInnerGap page none rest
                  let (shape, rest) ←
                    match valueTokens with
                    | ⟨.tableClose, _, _⟩ :: _ =>
                        .ok (.scalar (page.missing valueTokens), valueTokens)
                    | _ => shape page fuel depth valueTokens
                  let afterValue ← skipInnerGap page none rest
                  match afterValue with
                  | [] => .error page.lastStop
                  | stop :: rest =>
                      if stop.kind = .comma then
                        (pairs page fuel depth (some stop.start) rest).map fun (more, rest) =>
                          ((key, shape) :: more, rest)
                      else if stop.kind = .tableClose then .ok ([(key, shape)], rest)
                      else .error stop.start

end

/-- Read the value of a pair after its equals sign.  Where the line ends before it, or
where a comma stands, it is missing. -/
def pairShape (page : Page) (tokens : List Token) : Reading (Shape × List Token) :=
  let tokens := skipBlank tokens
  match tokens with
  | [] => .ok (.scalar (page.missing []), [])
  | token :: _ =>
      if token.kind.isGap || token.kind == .comma then
        .ok (.scalar (page.missing tokens), tokens)
      else shape page (2 * tokens.length + 2) 0 tokens

/-- Read a header after its opening bracket. -/
def header (page : Page) (place : Nat) (tokens : List Token) : Reading (Statement × List Token) := do
  let (isListed, place, tokens) :=
    match tokens with
    | ⟨.listOpen, _, start⟩ :: rest => (true, start + 1, rest)
    | tokens => (false, place, tokens)
  let (key, rest) ←
    keyPath page (fun kind => kind == .listClose || kind == .dot) place (skipBlank tokens)
  match skipBlank rest with
  | ⟨.listClose, _, first⟩ :: rest =>
      match isListed, rest with
      | false, rest => return (.header false key, rest)
      | true, ⟨.listClose, _, _⟩ :: rest => return (.header true key, rest)
      | true, _ => .error (first + 1)
  | rest => .error (page.next rest)

def pair (page : Page) (tokens : List Token) : Reading (Statement × List Token) := do
  let (key, rest) ←
    keyPath page (fun kind => kind == .equals || kind == .dot) (page.next tokens) tokens
  match skipBlank rest with
  | ⟨.equals, _, _⟩ :: rest =>
      (pairShape page rest).map fun (shape, rest) => (.pair key shape, rest)
  | rest => .error (page.next rest)

/-- Read the pairs and headers of a text, each on lines of its own. -/
def statements (page : Page) : Nat → List Token → Reading (List Statement)
  | 0, _ => .error page.stop
  | fuel + 1, tokens => do
      match ← skipGap tokens with
      | [] => return []
      | token :: rest =>
          let (statement, rest) ←
            if token.kind = .listOpen then header page token.stop rest
            else pair page (token :: rest)
          match skipBlank rest with
          | [] => return [statement]
          | token :: rest =>
              if token.kind.isGap then
                (statements page fuel (token :: rest)).map (statement :: ·)
              else .error token.start

def outline (edition : Edition) (text : Text) : Reading (List Statement) :=
  let found := tokens text
  statements (Page.ofTokens edition text found) (found.length + 1) found

end Toml

end Upkeep
