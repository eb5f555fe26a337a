import Upkeep.Config.Basic
import Upkeep.Config.Value

/-!
Settings from values.  Names are looked at in ascending order, so that of several
faults the first one in that order is told; names that mean nothing are passed over.
-/

namespace Upkeep

/-- Why a value is not what a setting asks for. -/
inductive DecodeError where
  | wrongType (value : Value) (expected : String)
  | unknownFormat (name : Text)
  | manyKeys

def DecodeError.message : DecodeError → String
  | .wrongType value expected =>
      s!"invalid type: {String.ofList value.describe}, expected {expected}"
  | .unknownFormat name =>
      s!"unknown variant `{String.ofList name}`, expected `compact` or `json`"
  | .manyKeys => "invalid value: map, expected map with a single key"

namespace Value

def asText : Value → Except DecodeError Text
  | .text content => .ok content
  | value => .error (.wrongType value "a string")

def asPath : Value → Except DecodeError Text
  | .text content => .ok content
  | value => .error (.wrongType value "a UTF-8 path string")

/-- Read a path that may be missing. -/
def asOptionalPath : Value → Except DecodeError (Option Text)
  | .null => .ok none
  | value => value.asPath.map some

def asTexts : Value → Except DecodeError (List Text)
  | .list values => values.mapM asText
  | value => .error (.wrongType value "a sequence")

def formatOfName (name : Text) : Except DecodeError LogFormat :=
  match LogFormat.ofName? name with
  | some format => .ok format
  | none => .error (.unknownFormat name)

/-- Read a format: its name, or a map from its name to nothing. -/
def asFormat : Value → Except DecodeError LogFormat
  | .text name => formatOfName name
  | .map [(name, content)] =>
      match formatOfName name, content with
      | .ok format, .null => .ok format
      | .ok _, content => .error (.wrongType content "unit")
      | .error error, _ => .error error
  | .map _ => .error .manyKeys
  | value => .error (.wrongType value "string or map")

end Value

namespace Config

/-- Change one setting. -/
def setField (config : Config) (name : Text) (value : Value) : Except DecodeError Config :=
  match String.ofList name with
  | "log_filter" => value.asText.map fun logFilter => { config with logFilter }
  | "log_format" => value.asFormat.map fun logFormat => { config with logFormat }
  | "base_dir" => value.asPath.map fun baseDir => { config with baseDir }
  | "roots" => value.asTexts.map fun roots => { config with roots }
  | "header_extensions" =>
      value.asTexts.map fun headerExtensions => { config with headerExtensions }
  | "source_extensions" =>
      value.asTexts.map fun sourceExtensions => { config with sourceExtensions }
  | "build_command" => value.asText.map fun buildCommand => { config with buildCommand }
  | "build_dir" => value.asPath.map fun buildDir => { config with buildDir }
  | "build_log" => value.asOptionalPath.map fun buildLog => { config with buildLog }
  | "license_marker" => value.asText.map fun licenseMarker => { config with licenseMarker }
  | _ => .ok config

/-- Change settings in turn. -/
def setFields (config : Config) (entries : List (Text × Value)) : Except DecodeError Config :=
  entries.foldlM (fun config (name, value) => config.setField name value) config

end Config

end Upkeep
