import Upkeep.Command.Basic
import Upkeep.Path.Basic

/-!
The settings of a run.  A list of projects or extensions that is left empty stands
for the usual one.
-/

namespace Upkeep

/-- How log lines are written. -/
inductive LogFormat where
  | compact
  | json
  deriving DecidableEq, Repr

namespace LogFormat

def name : LogFormat → Text
  | .compact => "compact".toList
  | .json => "json".toList

/-- The format with exactly this name. -/
def ofName? (name : Text) : Option LogFormat :=
  [LogFormat.compact, .json].find? fun format => format.name == name

/-- The format that a text names in any ASCII case. -/
def ofText? (text : Text) : Option LogFormat :=
  ofName? (text.map Char.toLower)

/-- The message about a text that names no format. -/
def notFound : String :=
  "Matching variant not found"

end LogFormat

/-- The settings of a run. -/
structure Config where
  logFilter : Text
  logFormat : LogFormat
  baseDir : Text
  roots : List Text
  headerExtensions : List Text
  sourceExtensions : List Text
  buildCommand : Text
  buildDir : Text
  buildLog : Option Text
  licenseMarker : Text
  deriving DecidableEq, Repr

namespace Config

/-- The settings that hold where nothing else is said. -/
def default : Config where
  logFilter := "warn".toList
  logFormat := .compact
  baseDir := ['.']
  roots := []
  headerExtensions := []
  sourceExtensions := []
  buildCommand := "cmake --build build".toList
  buildDir := ['.']
  buildLog := none
  licenseMarker := "Permission is hereby granted".toList

/-- A list, or the usual one in place of an empty list. -/
def orUsual (values : List Text) (usual : List String) : List Text :=
  if values.isEmpty then usual.map String.toList else values

def projects (config : Config) : List Text :=
  orUsual config.roots ["y", "yave", "editor"]

/-- The extensions of headers. -/
def headers (config : Config) : List Text :=
  orUsual config.headerExtensions ["h", "hpp", "inl"]

/-- The extensions of source files that are compiled on their own. -/
def sources (config : Config) : List Text :=
  orUsual config.sourceExtensions ["cpp", "cc", "cxx"]

/-- All extensions, those of headers first. -/
def extensions (config : Config) : List Text :=
  config.headers ++ config.sources

def command (config : Config) : Except CommandError BuildCommand :=
  BuildCommand.ofLine config.buildCommand

/-- The folder in which the build command runs. -/
def buildFolder (config : Config) : Text :=
  Path.join config.baseDir config.buildDir

/-- The path of the build log. -/
def logPath (config : Config) : Option Text :=
  config.buildLog.map (Path.join config.baseDir)

end Config

end Upkeep
