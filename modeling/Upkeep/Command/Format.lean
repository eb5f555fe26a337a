import Upkeep.Command.Number
import Upkeep.Command.Session

/-!
Writing by a format.  A format is plain text with places for arguments, and it is
gone through until no argument is left.  The shell does this itself, less strictly
than the program of that name and with other messages.
-/

namespace Upkeep

/-- Who writes. -/
inductive FormatWriter where
  | program
  | shell
  deriving DecidableEq, Repr

/-- How an argument is written, and the text that says so. -/
structure Conversion where
  spec : Text
  flags : Text
  width : Nat
  precision : Option Nat
  letter : Char
  deriving DecidableEq, Repr

/-- A piece of a format. -/
inductive FormatPiece where
  | plain (text : Text)
  | conversion (conversion : Conversion)
  | badConversion (spec : Text)
  | stop
  deriving DecidableEq, Repr

/-- What is wrong with a format or an argument. -/
inductive FormatFault where
  | notNumeric (argument : Text)
  | notAllNumeric (argument : Text)
  | outOfRange (argument : Text)
  | excess (argument : Text)
  | badConversion (spec : Text)
  deriving DecidableEq, Repr

def FormatFault.message : FormatWriter → FormatFault → String
  | .program, .notNumeric argument => s!"{inQuotes argument}: expected a numeric value"
  | .program, .notAllNumeric argument =>
      s!"{inQuotes argument}: value not completely converted"
  | .program, .outOfRange argument =>
      s!"{inQuotes argument}: Numerical result out of range"
  | .program, .badConversion spec => s!"{String.ofList spec}: invalid conversion specification"
  | .shell, .notNumeric argument => s!"{String.ofList argument}: expected numeric value"
  | .shell, .notAllNumeric argument => s!"{String.ofList argument}: not completely converted"
  | .shell, .outOfRange argument => s!"{String.ofList argument}: Numerical result out of range"
  | .shell, .badConversion ['%'] => "missing format character"
  | .shell, .badConversion spec => s!"{String.ofList spec}: invalid directive"
  | _, .excess argument =>
      s!"warning: ignoring excess arguments, starting with {inQuotes argument}"

namespace Conversion

/-- Whether a conversion writes a number without a sign. -/
def isUnsigned (conversion : Conversion) : Bool :=
  ['o', 'u', 'x', 'X'].contains conversion.letter

/-- Whether a conversion writes a number. -/
def isNumeric (conversion : Conversion) : Bool :=
  conversion.isUnsigned || conversion.letter == 'd' || conversion.letter == 'i'

def isKnownTo (writer : FormatWriter) (conversion : Conversion) : Bool :=
  let hasFlag := fun (flag : Char) => conversion.flags.contains flag
  let letter := conversion.letter
  let isText := letter == 's' || letter == 'c'
  match writer with
  | .shell => conversion.isNumeric || isText || letter == 'b'
  | .program =>
      if letter == 'b' then conversion.spec == ['%', 'b']
      else if hasFlag '0' && isText then false
      else if hasFlag '#' && (isText || ['d', 'i', 'u'].contains letter) then false
      else if conversion.precision.isSome && letter == 'c' then false
      else conversion.isNumeric || isText

/-- Read a conversion after its percent sign. -/
def ofText (writer : FormatWriter) (text : Text) : FormatPiece × Text :=
  let (flags, text) := (text.takeWhile "-+ #0".toList.contains, text.dropWhile "-+ #0".toList.contains)
  let (width, text) := (text.takeWhile Char.isDigit, text.dropWhile Char.isDigit)
  let (precision, text) :=
    match text with
    | '.' :: text => (some (text.takeWhile Char.isDigit), text.dropWhile Char.isDigit)
    | text => (none, text)
  let point := (precision.map ('.' :: ·)).getD []
  let text := if writer = .program then text.dropWhile "hlLjtz".toList.contains else text
  let spec := '%' :: (flags ++ width ++ point)
  match text with
  | [] => (.badConversion spec, [])
  | letter :: rest =>
      let conversion : Conversion :=
        ⟨spec ++ [letter], flags, digitsValue 10 width, precision.map (digitsValue 10), letter⟩
      (if conversion.isKnownTo writer then .conversion conversion
        else .badConversion (spec ++ [letter]), rest)

/-- Fill a text up to the width. -/
def pad (conversion : Conversion) (text : Text) : Text :=
  let missing := List.replicate (conversion.width - text.length) ' '
  if conversion.flags.contains '-' then text ++ missing else missing ++ text

/-- The digits of a number, at least as many as the precision asks for. -/
def digits (conversion : Conversion) (value : Nat) : Text :=
  let base := match conversion.letter with
    | 'o' => 8
    | 'x' | 'X' => 16
    | _ => 10
  let plain := if value = 0 ∧ conversion.precision = some 0 then [] else Nat.toDigits base value
  let cased := if conversion.letter = 'X' then plain.map Char.toUpper else plain
  List.replicate (conversion.precision.getD 0 - cased.length) '0' ++ cased

def number (conversion : Conversion) (value : Int) : Text :=
  let hasFlag := fun (flag : Char) => conversion.flags.contains flag
  let sign :=
    if conversion.isUnsigned then
      if hasFlag '#' && value != 0 && conversion.letter == 'x' then ['0', 'x']
      else if hasFlag '#' && value != 0 && conversion.letter == 'X' then ['0', 'X']
      else if hasFlag '#' && value != 0 && conversion.letter == 'o' then ['0']
      else []
    else if value < 0 then ['-']
    else if hasFlag '+' then ['+']
    else if hasFlag ' ' then [' ']
    else []
  let digits := conversion.digits value.natAbs
  let zeros :=
    if hasFlag '0' && !hasFlag '-' && conversion.precision.isNone then
      List.replicate (conversion.width - (sign.length + digits.length)) '0'
    else []
  conversion.pad (sign ++ zeros ++ digits)

/-- The number that an argument stands for: what a number line says, or the number
of the character after a quote.  Numbers have 64 bits. -/
def value (conversion : Conversion) (argument : Text) : Int × List FormatFault :=
  let (low, high) : Int × Int :=
    if conversion.isUnsigned then (-(wordCount - 1 : Nat), (wordCount - 1 : Nat))
    else (-signedWordCount, signedWordCount - 1)
  let (value, faults) : Int × List FormatFault :=
    match argument with
    | [] => (0, [])
    | c :: rest =>
        if c = '"' ∨ c = '\'' then ((rest.head?.map fun c => Int.ofNat c.toNat).getD 0, [])
        else
          match numberAtStart? argument with
          | none => (0, [.notNumeric argument])
          | some (value, rest) =>
              if value < low then (if conversion.isUnsigned then high else low, [.outOfRange argument])
              else if value > high then (high, [.outOfRange argument])
              else (value, if rest = [] then [] else [.notAllNumeric argument])
  (if conversion.isUnsigned && value < 0 then value + wordCount else value, faults)

end Conversion

/-- Read a format that is not longer than the bound. -/
def formatPiecesWithin (writer : FormatWriter) : Nat → Text → List FormatPiece
  | 0, _ => []
  | _ + 1, [] => []
  | bound + 1, '%' :: '%' :: rest => .plain ['%'] :: formatPiecesWithin writer bound rest
  | bound + 1, '%' :: rest =>
      let (piece, rest) := Conversion.ofText writer rest
      piece :: formatPiecesWithin writer bound rest
  | bound + 1, '\\' :: rest =>
      let rules : EscapeRules := ⟨false, writer == .program, writer == .program⟩
      if writer = .program ∧ rest.head? = some 'c' then [.stop]
      else
        let (read, rest) := (rules.escape? rest).getD ('\\', rest)
        .plain [read] :: formatPiecesWithin writer bound rest
  | bound + 1, c :: rest => .plain [c] :: formatPiecesWithin writer bound rest

/-- Read a format, given byte by byte. -/
def formatPieces (writer : FormatWriter) (format : Text) : List FormatPiece :=
  formatPiecesWithin writer format.length format

/-- What comes of a format, step by step, and the arguments that are left.  After
the end nothing more is written. -/
structure Formatted where
  events : List (Text ⊕ FormatFault)
  left : List Text
  ended : Bool

/-- What comes of one conversion. -/
def Conversion.write (writer : FormatWriter) (conversion : Conversion) (argument : Text) :
    List (Text ⊕ FormatFault) × Bool :=
  if conversion.isNumeric then
    let (value, faults) := conversion.value argument
    (faults.map .inr ++ [.inl (conversion.number value)], false)
  else
    let bytes := byteText argument
    if conversion.letter = 'c' then
      ([.inl (conversion.pad ((bytes.take 1).headD '\x00' :: []))], false)
    else if conversion.letter = 'b' then
      let rules : EscapeRules := ⟨true, writer == .program, writer == .program⟩
      let (text, ended) := rules.unescape bytes
      ([.inl (conversion.pad text)], ended)
    else
      ([.inl (conversion.pad (bytes.take (conversion.precision.getD bytes.length)))], false)

/-- Go once through a format. -/
def formatOnce (writer : FormatWriter) : List FormatPiece → List Text → Formatted
  | [], arguments => ⟨[], arguments, false⟩
  | .stop :: _, arguments => ⟨[], arguments, true⟩
  | .badConversion spec :: _, arguments => ⟨[.inr (.badConversion spec)], arguments, true⟩
  | .plain text :: pieces, arguments =>
      let after := formatOnce writer pieces arguments
      { after with events := .inl text :: after.events }
  | .conversion conversion :: pieces, arguments =>
      let (events, ended) := conversion.write writer (arguments.headD [])
      if ended then ⟨events, arguments.tail, true⟩
      else
        let after := formatOnce writer pieces arguments.tail
        { after with events := events ++ after.events }

/-- Go through a format until no argument is left, or none is taken. -/
def formatAll (writer : FormatWriter) (pieces : List FormatPiece) : Nat → List Text → List (Text ⊕ FormatFault)
  | 0, _ => []
  | rounds + 1, arguments =>
      let once := formatOnce writer pieces arguments
      if once.ended then once.events
      else
        match once.left with
        | [] => once.events
        | first :: _ =>
            if once.left.length = arguments.length then once.events ++ [.inr (.excess first)]
            else once.events ++ formatAll writer pieces rounds once.left

/-- What comes of a format and its arguments. -/
def formatEvents (writer : FormatWriter) (text : Text) (arguments : List Text) :
    List (Text ⊕ FormatFault) :=
  formatAll writer (formatPieces writer (byteText text)) (arguments.length + 1) arguments

/-- The exit status after an event. -/
def formatStatus (writer : FormatWriter) : Text ⊕ FormatFault → Status
  | .inl _ | .inr (.excess _) => 0
  | .inr (.badConversion _) => if writer = .shell then 2 else 1
  | .inr _ => 1

namespace Program

/-- The program `printf`, which writes and complains in turn. -/
def printf : Program := fun arguments streams session =>
  match if arguments.head? = some ['-', '-'] then arguments.tail else arguments with
  | [] =>
      (1, (session.sayLine streams.messages "printf: missing operand").sayLine streams.messages
        "Try 'printf --help' for more information.")
  | text :: arguments =>
      let events := formatEvents .program text arguments
      ((events.map (formatStatus .program)).foldl max 0,
        events.foldl (fun session event =>
          match event with
          | .inl text => session.sayBytes streams.output text
          | .inr fault =>
              session.sayLine streams.messages s!"printf: {fault.message .program}") session)

/-- The `printf` of the shell, which complains before it writes, and silently
passes over arguments that no place is left for. -/
def shellPrintf (label : String) : Program := fun arguments streams session =>
  match if arguments.head? = some ['-', '-'] then arguments.tail else arguments with
  | [] => (2, session.sayLine streams.messages s!"{label}usage: printf format [arg ...]")
  | ('-' :: option :: _) :: _ =>
      (2, session.sayLine streams.messages s!"{label}Illegal option -{option}")
  | text :: arguments =>
      let events := formatEvents .shell text arguments
      let session := events.foldl (fun session event =>
        match event with
        | .inl _ | .inr (.excess _) => session
        | .inr fault =>
            session.sayLine streams.messages s!"{label}{fault.message .shell}") session
      ((events.map (formatStatus .shell)).foldl max 0,
        session.sayBytes streams.output (events.flatMap fun event => event.getLeft?.getD []))

end Program

end Upkeep
