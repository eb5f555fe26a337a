import Upkeep.Config.Basic
import Upkeep.NameMap
import Upkeep.Text.Quoted

/-!
Log entries and the two ways to write them.
-/

namespace Upkeep

/-- How important an entry is. -/
inductive LogLevel where
  | error
  | warn
  | info
  | debug
  | trace
  deriving DecidableEq, Repr

namespace LogLevel

/-- The levels from the most important one on, counted from one. -/
def rank : LogLevel → Nat
  | .error => 1
  | .warn => 2
  | .info => 3
  | .debug => 4
  | .trace => 5

/-- The name of a level, as entries show it. -/
def name : LogLevel → String
  | .error => "ERROR"
  | .warn => "WARN"
  | .info => "INFO"
  | .debug => "DEBUG"
  | .trace => "TRACE"

def all : List LogLevel :=
  [.error, .warn, .info, .debug, .trace]

end LogLevel

/-- The value of a field: a number, or a text that compact lines quote or not. -/
inductive LogValue where
  | count (value : Nat)
  | bare (text : Text)
  | quoted (text : Text)
  deriving DecidableEq, Repr

/-- An entry of the log. -/
structure LogEntry where
  level : LogLevel
  target : String
  message : Text
  fields : List (String × LogValue)
  deriving DecidableEq, Repr

def jsonChar (c : Char) : Text :=
  if c = '"' ∨ c = '\\' then ['\\', c]
  else if c = '\n' then ['\\', 'n']
  else if c = '\r' then ['\\', 'r']
  else if c = '\t' then ['\\', 't']
  else if c.toNat = 8 then ['\\', 'b']
  else if c.toNat = 12 then ['\\', 'f']
  else if c.toNat < 32 then
    "\\u00".toList ++ (if c.toNat < 16 then ['0'] else []) ++ hexDigits c.toNat
  else [c]

def jsonText (text : Text) : Text :=
  '"' :: text.flatMap jsonChar ++ ['"']

namespace LogValue

/-- A value in a compact line. -/
def compact : LogValue → Text
  | .count value => Nat.toDigits 10 value
  | .bare text => text
  | .quoted text => Upkeep.quoted text

def json : LogValue → Text
  | .count value => Nat.toDigits 10 value
  | .bare text | .quoted text => jsonText text

end LogValue

namespace LogEntry

/-- An entry as a compact line: its level flush right in five columns, its target,
its message, and its fields in order. -/
def compact (entry : LogEntry) : Text :=
  let level := entry.level.name.toList
  List.replicate (5 - level.length) ' ' ++ level ++ [' '] ++ entry.target.toList ++ [':', ' '] ++
    entry.message ++ entry.fields.flatMap fun (name, value) =>
      ' ' :: name.toList ++ '=' :: value.compact

/-- An entry as a JSON object with its keys in ascending order. -/
def json (entry : LogEntry) : Text :=
  let members : NameMap Text :=
    (("level", LogValue.bare entry.level.name.toList) :: ("message", .bare entry.message) ::
      ("target", .bare entry.target.toList) :: entry.fields).foldl
      (fun members (name, value) => NameMap.set name.toList value.json members) []
  ['\x7b'] ++ [','].intercalate (members.map fun (name, value) => jsonText name ++ ':' :: value) ++
    ['\x7d']

def line (format : LogFormat) (entry : LogEntry) : Text :=
  match format with
  | .compact => entry.compact
  | .json => entry.json

end LogEntry

end Upkeep
