import Upkeep.Command.Script.Basic

/-!
Reading the words of a script.  What stands between double quotes or braces is read
by the same rules as a bare word, apart from where it ends and what a backslash does.
-/

namespace Upkeep

/-- Where a part of a word stands. -/
inductive WordSite where
  | bare
  | double
  | braces (quoted : Bool)
  | arithmetic
  deriving DecidableEq, Repr

def WordSite.isQuoted : WordSite → Bool
  | .bare | .braces false => false
  | .double | .arithmetic | .braces true => true

/-- Whether a closing brace ends what stands there. -/
def WordSite.isBraces : WordSite → Bool
  | .braces _ => true
  | _ => false

/-- Whether a character ends a bare word. -/
def endsWord (c : Char) : Bool :=
  c == ' ' || c == '\t' || c == '\n' || c == ';' || c == '&' || c == '|' || c == '(' ||
    c == ')' || c == '<' || c == '>'

/-- What stands before a closing quote, and what follows it.  Between double quotes a
backslash protects the character after it. -/
def closingQuote? (quote : Char) : Text → Option (Text × Text)
  | [] => none
  | '\\' :: c :: rest =>
      if quote = '"' then
        (closingQuote? quote rest).map fun (inside, rest) => ('\\' :: c :: inside, rest)
      else if c = quote then some (['\\'], rest)
      else (closingQuote? quote rest).map fun (inside, rest) => ('\\' :: c :: inside, rest)
  | c :: rest =>
      if c = quote then some ([], rest)
      else (closingQuote? quote rest).map fun (inside, rest) => (c :: inside, rest)

/-- Cut a text in front of the parenthesis that closes the one before it.  Quoted
parentheses do not count. -/
def closingParenthesis? : Nat → Nat → Text → Option (Text × Text)
  | 0, _, _ => none
  | _ + 1, _, [] => none
  | bound + 1, depth, c :: rest =>
      let go := fun (read : Text) (depth : Nat) (rest : Text) =>
        (closingParenthesis? bound depth rest).map fun (inside, rest) => (read ++ inside, rest)
      match c, depth with
      | ')', 0 => some ([], rest)
      | ')', depth + 1 => go [c] depth rest
      | '(', depth => go [c] (depth + 1) rest
      | '\\', depth => go (c :: rest.take 1) depth (rest.drop 1)
      | '\'', _ | '"', _ =>
          match closingQuote? c rest with
          | none => none
          | some (inside, rest) => go (c :: inside ++ [c]) depth rest
      | _, depth => go [c] depth rest

/-- Cut a text in front of the next backquote, with the backslashes dropped that
protect characters from an earlier reading. -/
def closingBackquote? (quoted : Bool) : Text → Option (Text × Text)
  | [] => none
  | '\x60' :: rest => some ([], rest)
  | '\\' :: c :: rest =>
      let kept := if c = '\x60' ∨ c = '$' ∨ c = '\\' ∨ (quoted ∧ c = '"') then [c] else ['\\', c]
      (closingBackquote? quoted rest).map fun (inside, rest) => (kept ++ inside, rest)
  | c :: rest => (closingBackquote? quoted rest).map fun (inside, rest) => (c :: inside, rest)

/-- Read the name of a parameter after an opening brace. -/
def bracedName (text : Text) : Text × Text :=
  match text with
  | [] => ([], [])
  | c :: rest =>
      if c.isDigit then (text.takeWhile Char.isDigit, text.dropWhile Char.isDigit)
      else if isIdentStart c then (text.takeWhile isParameterName, text.dropWhile isParameterName)
      else if isSpecialParameter c then ([c], rest)
      else ([], text)

/-- Read what is done with a parameter, after its name. -/
def parameterUse (text : Text) : ParameterUse × Text :=
  match text with
  | '\x7d' :: _ => (.plain, text)
  | ':' :: '-' :: rest => (.default true, rest)
  | ':' :: '+' :: rest => (.alternative true, rest)
  | ':' :: '=' :: rest => (.assignment true, rest)
  | ':' :: '?' :: rest => (.demand true, rest)
  | '-' :: rest => (.default false, rest)
  | '+' :: rest => (.alternative false, rest)
  | '=' :: rest => (.assignment false, rest)
  | '?' :: rest => (.demand false, rest)
  | '#' :: '#' :: rest => (.cutStart true, rest)
  | '#' :: rest => (.cutStart false, rest)
  | '%' :: '%' :: rest => (.cutEnd true, rest)
  | '%' :: rest => (.cutEnd false, rest)
  | _ => (.bad, text)

/-- Read a parameter after an opening brace, up to the word that its use asks for. -/
def bracedParameter (text : Text) : Text × ParameterUse × Text :=
  let plain :=
    let (name, rest) := bracedName text
    let (use, rest) := parameterUse rest
    (name, if name.isEmpty then .bad else use, rest)
  match text with
  | '#' :: rest =>
      match bracedName rest with
      | ([], _) => plain
      | (name, '\x7d' :: rest) => (name, .length, '\x7d' :: rest)
      | _ => plain
  | _ => plain

/-- What is read of a word, and the text after it. -/
abbrev WordReading := Except SyntaxFault (ScriptWord × Text)

/-- A part in front of what is read later. -/
def WordReading.after (part : WordPart) (reading : WordReading) : WordReading :=
  reading.map fun (parts, rest) => (part :: parts, rest)

/-- Read the parts of a word at a site, up to the end of the site. -/
def wordParts : Nat → WordSite → Text → WordReading
  | 0, _, rest => .ok ([], rest)
  | _ + 1, site, [] =>
      match site with
      | .bare | .arithmetic => .ok ([], [])
      | .double => .error .openQuote
      | .braces _ => .error .openBrace
  | bound + 1, site, '\\' :: rest =>
      match rest with
      | [] => WordReading.after (.text true ['\\']) (wordParts bound site [])
      | c :: rest =>
          if c = '\n' then wordParts bound site rest
          else
            let isProtected := c = '$' ∨ c = '\x60' ∨ c = '"' ∨ c = '\\' ∨
              (c = '\x7d' ∧ site = .braces true)
            let kept := if site.isQuoted ∧ ¬isProtected then ['\\', c] else [c]
            WordReading.after (.text true kept) (wordParts bound site rest)
  | bound + 1, site, '$' :: rest =>
      let quoted := site.isQuoted
      let go := fun (part : WordPart) (rest : Text) =>
        WordReading.after part (wordParts bound site rest)
      let substitution := fun (rest : Text) =>
        match closingParenthesis? (rest.length + 1) 0 rest with
        | some (script, rest) => go (.substitution quoted script) rest
        | none => .error (.unexpected "end of file" (some "\")\""))
      match rest with
      | '(' :: '(' :: inside =>
          match closingParenthesis? (inside.length + 1) 0 inside with
          | none => .error .openArithmetic
          | some (expression, ')' :: rest) =>
              match wordParts bound .arithmetic expression with
              | .error fault => .error fault
              | .ok (parts, _) => go (.arithmetic quoted parts) rest
          | some _ => substitution ('(' :: inside)
      | '(' :: rest => substitution rest
      | '\x7b' :: rest =>
          let (name, use, rest) := bracedParameter rest
          match wordParts bound (.braces quoted) rest with
          | .error fault => .error fault
          | .ok (word, rest) => go (.parameter quoted name use word) rest
      | c :: after =>
          if isSpecialParameter c then go (.parameter quoted [c] .plain []) after
          else if isIdentStart c then
            go (.parameter quoted (rest.takeWhile isParameterName) .plain [])
              (rest.dropWhile isParameterName)
          else go (.text quoted ['$']) rest
      | [] => go (.text quoted ['$']) []
  | bound + 1, site, '\x60' :: rest =>
      match closingBackquote? site.isQuoted rest with
      | none => .error .openBackquote
      | some (script, rest) =>
          WordReading.after (.substitution site.isQuoted script) (wordParts bound site rest)
  | bound + 1, site, '"' :: rest =>
      match site with
      | .double => .ok ([.text true []], rest)
      | .arithmetic => WordReading.after (.text true ['"']) (wordParts bound site rest)
      | _ =>
          match wordParts bound .double rest with
          | .error fault => .error fault
          | .ok (inside, rest) =>
              (wordParts bound site rest).map fun (parts, rest) => (inside ++ parts, rest)
  | bound + 1, site, '\'' :: rest =>
      if site.isQuoted then WordReading.after (.text true ['\'']) (wordParts bound site rest)
      else
        match rest.dropWhile (· != '\'') with
        | [] => .error .openQuote
        | _ :: after =>
            WordReading.after (.text true (rest.takeWhile (· != '\'')))
              (wordParts bound site after)
  | bound + 1, site, c :: rest =>
      if site == .bare && endsWord c then .ok ([], c :: rest)
      else if site.isBraces && c == '\x7d' then .ok ([], rest)
      else WordReading.after (.text site.isQuoted [c]) (wordParts bound site rest)

/-- Read a bare word. -/
def scriptWord (text : Text) : WordReading :=
  wordParts (text.length + 1) .bare text

end Upkeep
