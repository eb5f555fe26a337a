import Upkeep.Log.Basic

/-!
Log filters: directives between commas.  A directive names a level, a target, or
both; of those whose target an entry's target starts with, the longest one decides.
-/

namespace Upkeep

/-- Why a text is no filter. -/
inductive FilterError where
  | directive
  | level
  deriving DecidableEq, Repr

def FilterError.message : FilterError → String
  | .directive => "invalid filter directive"
  | .level =>
      "error parsing level filter: expected one of \"off\", \"error\", \"warn\", \"info\", \"debug\", \"trace\", or a number 0-5"

/-- Let entries up to a rank pass, those of all targets or of some. -/
structure LogDirective where
  target? : Option Text
  rank : Nat
  deriving DecidableEq, Repr

/-- Directives in the order in which they were given. -/
abbrev LogFilter := List LogDirective

namespace LogDirective

open Unicode

/-- The rank that a number stands for. -/
def rankOfNumber? (text : Text) : Option Nat :=
  let digits :=
    match text with
    | '+' :: rest => rest
    | rest => rest
  if digits.isEmpty || !digits.all Char.isDigit then none
  else
    let value := digits.foldl (fun value digit => 10 * value + (digit.toNat - '0'.toNat)) 0
    if value ≤ 5 then some value else none

/-- The rank that the name of a level or a number stands for. -/
def rankOf? (text : Text) : Option Nat :=
  let lower := text.map Char.toLower
  match rankOfNumber? text with
  | some rank => some rank
  | none =>
      if lower = "off".toList then some 0
      else
        (LogLevel.all.find? fun level => level.name.toList.map Char.toLower == lower).map
          LogLevel.rank

/-- The rank of all entries. -/
def everything : Nat := LogLevel.trace.rank

/-- Whether a directive may start with a character. -/
def canStart (c : Char) : Bool :=
  c == '-' || c == ':' || isWord c

/-- Read what follows a target. -/
def withLevel (target? : Option Text) (level : Text) : Except FilterError LogDirective :=
  if level.isEmpty then .ok ⟨target?, everything⟩
  else
    match rankOf? level with
    | some rank => .ok ⟨target?, rank⟩
    | none => .error .level

/-- Read what follows the opening bracket of a span.  Nothing happens within spans,
so such a directive is checked and dropped. -/
def afterBracket (text : Text) : Except FilterError (Option LogDirective) :=
  match text.dropWhile (· != ']') with
  | [_] => .ok none
  | _ :: '=' :: level => (withLevel none level).map fun _ => none
  | _ => .error .directive

/-- Read a directive.  Blanks around it count for where its target ends, but they
are not taken off. -/
def ofText? (text : Text) : Except FilterError (Option LogDirective) :=
  let core := trim text
  let start := core.takeWhile fun c => c != '=' && c != '['
  match core, core.drop start.length with
  | [], _ => .error .directive
  | c :: _, rest =>
      if !canStart c && c != '[' then .error .directive
      else
        match rest with
        | '[' :: span => afterBracket span
        | '=' :: _ =>
            (withLevel (some (text.take start.length)) (text.drop (start.length + 1))).map some
        | _ =>
            match rankOf? text with
            | some rank => .ok (some ⟨none, rank⟩)
            | none => .ok (some ⟨some text, everything⟩)

/-- The length of the target, one more than of no target. -/
def weight (directive : LogDirective) : Nat :=
  match directive.target? with
  | none => 0
  | some target => target.length + 1

/-- Whether a directive is about an entry. -/
def covers (directive : LogDirective) (entry : LogEntry) : Bool :=
  match directive.target? with
  | none => true
  | some target => target.isPrefixOf entry.target.toList

end LogDirective

namespace LogFilter

def ofText (text : Text) : Except FilterError LogFilter :=
  (((text.splitOn ',').filter (· != [])).mapM LogDirective.ofText?).map fun directives =>
    directives.filterMap id

/-- The directive that decides about an entry: the last one of the greatest weight. -/
def deciding? (filter : LogFilter) (entry : LogEntry) : Option LogDirective :=
  (filter.filter (·.covers entry)).foldl (fun best? directive =>
    match best? with
    | some best => if best.weight ≤ directive.weight then some directive else some best
    | none => some directive) none

/-- Whether a filter lets an entry pass. -/
def passes (filter : LogFilter) (entry : LogEntry) : Bool :=
  match filter.deciding? entry with
  | some directive => entry.level.rank ≤ directive.rank
  | none => false

end LogFilter

end Upkeep
