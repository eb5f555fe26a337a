import Upkeep.Command.Escape
import Upkeep.Command.Pattern.Basic

/-!
The two written forms of patterns.  In the basic form a backslash makes operators
of brackets, braces, bars and the like; in the extended form it takes their meaning
away.
-/

namespace Upkeep

/-- What is wrong with a written pattern. -/
inductive PatternFault where
  | openBracket
  | openGroup
  | closedGroup
  | openBraces
  | badBraces
  | trailingBackslash
  | badRange
  | badClass
  deriving DecidableEq, Repr

def PatternFault.message : PatternFault → String
  | .openBracket => "Invalid regular expression"
  | .openGroup => "Unmatched ( or \\("
  | .closedGroup => "Unmatched ) or \\)"
  | .openBraces => "Unmatched \\\x7b"
  | .badBraces => "Invalid content of \\\x7b\\\x7d"
  | .trailingBackslash => "Trailing backslash"
  | .badRange => "Invalid range end"
  | .badClass => "Invalid character class name"

/-- A sign of a written pattern. -/
inductive PatternSign where
  | atom (pattern : Pattern)
  | opening
  | closing
  | bar
  | repeated (least : Nat) (most : Option Nat)
  deriving DecidableEq, Repr

namespace Pattern

def classRanges? (name : Text) : Option (List CharRange) :=
  let digits : CharRange := ('0', '9')
  let lower : CharRange := ('a', 'z')
  let upper : CharRange := ('A', 'Z')
  match String.ofList name with
  | "alpha" => some [lower, upper]
  | "digit" => some [digits]
  | "alnum" => some [lower, upper, digits]
  | "upper" => some [upper]
  | "lower" => some [lower]
  | "space" => some [('\t', '\r'), (' ', ' ')]
  | "blank" => some [('\t', '\t'), (' ', ' ')]
  | "punct" => some [('!', '/'), (':', '@'), ('[', '\x60'), ('\x7b', '~')]
  | "print" => some [(' ', '~')]
  | "graph" => some [('!', '~')]
  | "cntrl" => some [('\x00', '\x1f'), ('\x7f', '\x7f')]
  | "xdigit" => some [digits, ('a', 'f'), ('A', 'F')]
  | _ => none

/-- Read the ranges of a bracketed set up to its closing bracket. -/
def bracketRanges : Nat → Bool → Text → Except PatternFault (List CharRange × Text)
  | 0, _, _ => .error .openBracket
  | _ + 1, _, [] => .error .openBracket
  | bound + 1, isFirst, ']' :: rest =>
      if isFirst then
        (bracketRanges bound false rest).map fun (later, rest) => ((']', ']') :: later, rest)
      else .ok ([], rest)
  | bound + 1, _, '[' :: ':' :: rest =>
      match rest.dropWhile (· != ':') with
      | ':' :: ']' :: after =>
          match classRanges? (rest.takeWhile (· != ':')) with
          | some ranges =>
              (bracketRanges bound false after).map fun (later, rest) => (ranges ++ later, rest)
          | none => .error .badClass
      | _ => .error .openBracket
  | bound + 1, _, low :: '-' :: high :: rest =>
      if high = ']' then
        (bracketRanges bound false (high :: rest)).map fun (later, rest) =>
          ((low, low) :: ('-', '-') :: later, rest)
      else if high < low then .error .badRange
      else
        (bracketRanges bound false rest).map fun (later, rest) => ((low, high) :: later, rest)
  | bound + 1, _, c :: rest =>
      (bracketRanges bound false rest).map fun (later, rest) => ((c, c) :: later, rest)

/-- Read a bracketed set after its opening bracket. -/
def bracket (text : Text) : Except PatternFault (Pattern × Text) :=
  let (negated, inside) :=
    match text with
    | '^' :: inside => (true, inside)
    | inside => (false, inside)
  (bracketRanges (inside.length + 1) true inside).map fun (ranges, rest) =>
    (.one negated ranges, rest)

/-- The pattern that fits one character. -/
def char (c : Char) : Pattern :=
  .one false [(c, c)]

/-- Read how often something is repeated, up to the closing braces. -/
def bounds? (closing : Text) (text : Text) : Option ((Nat × Option Nat) × Text) :=
  let least := text.takeWhile Char.isDigit
  let rest := text.drop least.length
  let (most, rest) : Option Nat × Text :=
    match rest with
    | ',' :: rest =>
        match rest.takeWhile Char.isDigit with
        | [] => (none, rest)
        | most => (some (digitsValue 10 most), rest.drop most.length)
    | rest => (some (digitsValue 10 least), rest)
  if least.isEmpty && rest.head? == text.head? then none
  else (after? closing rest).map ((digitsValue 10 least, most), ·)

def wordRanges : List CharRange :=
  [('a', 'z'), ('A', 'Z'), ('0', '9'), ('_', '_')]

/-- The sign that a letter after a backslash stands for in both forms. -/
def escaped (c : Char) : PatternSign :=
  .atom (match c with
    | '<' => .anchor .wordStart
    | '>' => .anchor .wordEnd
    | 'b' => .anchor .wordEdge
    | 'B' => .anchor .noWordEdge
    | 'w' => .one false wordRanges
    | 'W' => .one true wordRanges
    | 's' => .one false ((classRanges? "space".toList).getD [])
    | 'S' => .one true ((classRanges? "space".toList).getD [])
    | c => char c)

/-- The sign that an operator stands for. -/
def operator? (c : Char) : Option PatternSign :=
  match c with
  | '(' => some .opening
  | ')' => some .closing
  | '|' => some .bar
  | '+' => some (.repeated 1 none)
  | '?' => some (.repeated 0 (some 1))
  | _ => none

def startsAfter : Option PatternSign → Bool
  | none | some .opening | some .bar => true
  | _ => false

/-- Read the signs of a pattern; `last` is the sign before them, and `depth` the
number of groups that are open. -/
def signs (extended : Bool) :
    Nat → Option PatternSign → Nat → Text → Except PatternFault (List PatternSign)
  | 0, _, _, _ => .ok []
  | _ + 1, _, _, [] => .ok []
  | bound + 1, last, depth, c :: rest =>
      let go := fun (sign : PatternSign) (rest : Text) =>
        let depth := match sign with
          | .opening => depth + 1
          | .closing => depth - 1
          | _ => depth
        (signs extended bound (some sign) depth rest).map (sign :: ·)
      let braces := fun (rest : Text) =>
        match bounds? (if extended then ['\x7d'] else ['\\', '\x7d']) rest with
        | some ((least, most), after) =>
            if most.any (· < least) then .error .badBraces else go (.repeated least most) after
        | none =>
            if extended then go (.atom (char '\x7b')) rest
            else if rest.contains '\x7d' then .error .badBraces
            else .error .openBraces
      match c, rest with
      | '\\', [] => .error .trailingBackslash
      | '\\', e :: rest =>
          let isRepeat := e == '\x7b' || e == '+' || e == '?'
          if extended then go (escaped e) rest
          else if isRepeat && startsAfter last then go (.atom (char e)) rest
          else if e = '\x7b' then braces rest
          else if e = ')' ∧ depth = 0 then .error .closedGroup
          else go ((operator? e).getD (escaped e)) rest
      | '[', rest =>
          match bracket rest with
          | .ok (pattern, rest) => go (.atom pattern) rest
          | .error fault => .error fault
      | '.', rest => go (.atom (.one true [])) rest
      | '*', rest =>
          let starts := startsAfter last || last == some (.atom (.anchor .lineStart))
          if starts then if extended then go (.atom .empty) rest else go (.atom (char '*')) rest
          else go (.repeated 0 none) rest
      | '^', rest =>
          go (.atom (if extended || startsAfter last then .anchor .lineStart else char '^')) rest
      | '$', rest =>
          let ends := rest.isEmpty || (after? ['\\', ')'] rest).isSome ||
            (after? ['\\', '|'] rest).isSome
          go (.atom (if extended || ends then .anchor .lineEnd else char '$')) rest
      | c, rest =>
          if extended && c == '\x7b' then
            if startsAfter last then go (.atom (char c)) rest else braces rest
          else if extended && c == ')' && depth == 0 then go (.atom (char c)) rest
          else
            match if extended then operator? c else none with
            | some (.repeated least most) =>
                go (if startsAfter last then .atom .empty else .repeated least most) rest
            | some sign => go sign rest
            | none => go (.atom (char c)) rest

mutual

/-- Read alternatives up to the end of their group. -/
def alternatives : Nat → List PatternSign → Except PatternFault (Pattern × List PatternSign)
  | 0, signs => .ok (.empty, signs)
  | bound + 1, signs =>
      match branch bound .empty none signs with
      | .ok (first, .bar :: rest) =>
          (alternatives bound rest).map fun (next, rest) => (.choice first next, rest)
      | other => other

/-- Read what follows in a sequence.  The last pattern that was read can still be
repeated. -/
def branch :
    Nat → Pattern → Option Pattern → List PatternSign →
      Except PatternFault (Pattern × List PatternSign)
  | 0, read, last, signs => .ok (.sequence read (last.getD .empty), signs)
  | bound + 1, read, last, signs =>
      let done := match last with
        | some last => .sequence read last
        | none => read
      match signs with
      | .atom pattern :: rest => branch bound done (some pattern) rest
      | .repeated least most :: rest =>
          branch bound read (some (.repetition (last.getD .empty) least most)) rest
      | .opening :: rest =>
          match alternatives bound rest with
          | .ok (inside, .closing :: rest) => branch bound done (some inside) rest
          | .ok _ => .error .openGroup
          | .error fault => .error fault
      | rest => .ok (done, rest)

end

/-- Read a written pattern. -/
def ofText (extended : Bool) (text : Text) : Except PatternFault Pattern :=
  match signs extended (text.length + 1) none 0 text with
  | .error fault => .error fault
  | .ok signs =>
      match alternatives (2 * signs.length + 2) signs with
      | .ok (pattern, []) => .ok pattern
      | .ok _ => .error .closedGroup
      | .error fault => .error fault

end Pattern

end Upkeep
