import Upkeep.Command.Shell.Arithmetic
import Upkeep.Command.Shell.Basic
import Upkeep.Command.Shell.Glob
import Upkeep.Command.Words

/-!
What words stand for.  The parts of a word are put together to fields; what stems
from a parameter or from a command is cut at blanks unless it is quoted, and a field
that is a pattern stands for the files that it fits.
-/

namespace Upkeep

/-- What a part of a word contributes to fields. -/
inductive FieldPiece where
  | kept (text : MarkedText)
  | cut (text : Text)
  | each (texts : List Text)
  deriving DecidableEq, Repr

/-- A text that is quoted or cut. -/
def FieldPiece.ofText (quoted : Bool) (text : Text) : FieldPiece :=
  if quoted then .kept (text.map (true, ·)) else .cut text

def FieldPiece.joined : FieldPiece → MarkedText
  | .kept text => text
  | .cut text => text.map (false, ·)
  | .each texts => ([' '].intercalate texts).map (true, ·)

/-- The fields of a word that are complete, last one first, and the open field. -/
structure Fields where
  complete : List MarkedText
  openField : Option MarkedText
  deriving DecidableEq, Repr

namespace Fields

/-- Continue the open field. -/
def extend (fields : Fields) (text : MarkedText) : Fields :=
  { fields with openField := some (fields.openField.getD [] ++ text) }

/-- Close the open field, if there is one. -/
def close (fields : Fields) : Fields :=
  match fields.openField with
  | some field => ⟨field :: fields.complete, none⟩
  | none => fields

/-- Continue with several texts, each a field of its own. -/
def extendEach (fields : Fields) : List Text → Fields
  | [] => fields
  | [last] => fields.extend (last.map (true, ·))
  | text :: rest => ((fields.extend (text.map (true, ·))).close).extendEach rest

/-- Continue with a piece. -/
def add (fields : Fields) : FieldPiece → Fields
  | .kept text => fields.extend text
  | .cut text =>
      text.foldl (fun fields c =>
        if separatesWords c then fields.close else fields.extend [(false, c)]) fields
  | .each texts => fields.extendEach texts

/-- The fields of pieces.  Quotes around no text at all are no field. -/
def ofPieces (pieces : List FieldPiece) : List MarkedText :=
  let pieces := if pieces.contains (.each []) then pieces.filter (· != .kept []) else pieces
  (pieces.foldl add ⟨[], none⟩).close.complete.reverse

end Fields

/-- Run the text of a script and hand on what it writes. -/
abbrev Capture := Text → Shell → Text × Shell

namespace Shell

def counts (alsoEmpty : Bool) (value : Option Text) : Bool :=
  value.any fun text => !(alsoEmpty && text.isEmpty)

/-- What is left of a value when a part that a pattern fits is cut off. -/
def cutStart (longest : Bool) (pattern : MarkedText) (value : Text) : Text :=
  let lengths := pattern.fittingLengths value
  value.drop ((if longest then lengths.getLast? else lengths.head?).getD 0)

/-- The same at the end of a value. -/
def cutEnd (longest : Bool) (pattern : MarkedText) (value : Text) : Text :=
  let starts := (List.range (value.length + 1)).filter fun start => pattern.fits (value.drop start)
  value.take ((if longest then starts.head? else starts.getLast?).getD value.length)

/-- The pieces of a parameter's plain value. -/
def parameterPiece (shell : Shell) (quoted : Bool) (name : Text) : FieldPiece :=
  if quoted && name == ['@'] then .each shell.arguments
  else .ofText quoted ((shell.valueOf? name).getD [])

mutual

/-- What a part of a word contributes.  Text in the braces of a parameter is cut like
the parameter itself. -/
def partPieces (capture : Capture) (streams : Streams) (inBraces : Bool) :
    WordPart → Shell → List FieldPiece × Shell
  | .text quoted text, shell =>
      ([if inBraces && !quoted then .cut text else .kept (text.map (quoted, ·))], shell)
  | .substitution quoted script, shell =>
      let (text, shell) := capture script shell
      ([.ofText quoted text], shell)
  | .arithmetic quoted expression, shell =>
      let (pieces, shell) := wordPieces capture streams false expression shell
      let text := MarkedText.plain (pieces.flatMap FieldPiece.joined)
      match (Arithmetic.ofText text).bind (·.value shell.values) with
      | .ok (value, values) => ([.ofText quoted (toString value).toList], { shell with values })
      | .error fault => ([], shell.abort streams (fault.message text))
  | .parameter quoted name use word, shell =>
      let value := shell.valueOf? name
      let plain := [shell.parameterPiece quoted name]
      match use with
      | .plain => (plain, shell)
      | .length => ([.ofText quoted (toString ((value.getD []).length)).toList], shell)
      | .bad => ([], shell.abort streams "Bad substitution")
      | .default alsoEmpty =>
          if counts alsoEmpty value then (plain, shell)
          else wordPieces capture streams true word shell
      | .alternative alsoEmpty =>
          if counts alsoEmpty value then wordPieces capture streams true word shell
          else ([.ofText quoted []], shell)
      | .assignment alsoEmpty =>
          if counts alsoEmpty value then (plain, shell)
          else
            let (pieces, shell) := wordPieces capture streams true word shell
            let text := MarkedText.plain (pieces.flatMap FieldPiece.joined)
            ([.ofText quoted text], shell.assign name text)
      | .demand alsoEmpty =>
          if counts alsoEmpty value then (plain, shell)
          else
            let (pieces, shell) := wordPieces capture streams true word shell
            let reason :=
              if word.isEmpty then
                if alsoEmpty then "parameter not set or null" else "parameter not set"
              else String.ofList (MarkedText.plain (pieces.flatMap FieldPiece.joined))
            ([], shell.abort streams s!"{String.ofList name}: {reason}")
      | .cutStart longest =>
          let (pieces, shell) := wordPieces capture streams false word shell
          let pattern := pieces.flatMap FieldPiece.joined
          ([.ofText quoted (cutStart longest pattern (value.getD []))], shell)
      | .cutEnd longest =>
          let (pieces, shell) := wordPieces capture streams false word shell
          let pattern := pieces.flatMap FieldPiece.joined
          ([.ofText quoted (cutEnd longest pattern (value.getD []))], shell)

/-- What the parts of a word contribute in turn. -/
def wordPieces (capture : Capture) (streams : Streams) (inBraces : Bool) :
    List WordPart → Shell → List FieldPiece × Shell
  | [], shell => ([], shell)
  | part :: parts, shell =>
      let (pieces, shell) := partPieces capture streams inBraces part shell
      if shell.isOnward then
        let (later, shell) := wordPieces capture streams inBraces parts shell
        (pieces ++ later, shell)
      else (pieces, shell)

end

/-- The single text that a word stands for, with its quotes. -/
def expandMarked (capture : Capture) (streams : Streams) (word : ScriptWord) (shell : Shell) :
    MarkedText × Shell :=
  let (pieces, shell) := wordPieces capture streams false word shell
  (pieces.flatMap FieldPiece.joined, shell)

/-- The single text that a word stands for. -/
def expandOne (capture : Capture) (streams : Streams) (word : ScriptWord) (shell : Shell) :
    Text × Shell :=
  let (text, shell) := shell.expandMarked capture streams word
  (text.plain, shell)

/-- The fields that words stand for. -/
def expand (capture : Capture) (streams : Streams) (words : List ScriptWord) (shell : Shell) :
    List Text × Shell :=
  words.foldl (fun (fields, shell) word =>
    if shell.isOnward then
      let (pieces, shell) := wordPieces capture streams false word shell
      (fields ++ (Fields.ofPieces pieces).flatMap (MarkedText.paths shell.session.tree), shell)
    else (fields, shell)) ([], shell)

end Shell

end Upkeep
