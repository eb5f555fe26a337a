import Upkeep.Config.Decode
import Upkeep.Config.Environment
import Upkeep.Config.File
import Upkeep.Config.Flags

/-!
Loading the settings of a run.  Later layers win over earlier ones: the usual
settings, the settings files, the environment, the flags.  Lists of projects and
extensions grow from layer to layer instead.
-/

namespace Upkeep

/-- Why settings cannot be loaded. -/
inductive ConfigError where
  | flags (program : Text) (error : FlagError)
  | file (error : FileError)
  | merge (error : DecodeError)
  | several (errors : List ConfigError)

/-- The text of an error about settings. -/
def ConfigError.message : ConfigError → String
  | .flags program error => "Failed to parse command-line arguments: " ++ error.text program
  | .file error => error.message
  | .merge error => mergeLead ++ error.message
  | .several _ => "multiple configuration errors:"

def ConfigError.ofList? : List ConfigError → Option ConfigError
  | [] => none
  | [error] => some error
  | errors => some (.several errors)

/-- A settings file to look for. -/
structure FileCandidate where
  path : Text
  isRequired : Bool
  deriving DecidableEq, Repr

namespace FileCandidate

/-- The files below a folder for settings. -/
def below (folder : Text) : List Text :=
  [Path.join folder "mender/config.toml".toList, Path.join folder ".mender.toml".toList]

/-- The text of a variable, unless it is missing or empty. -/
def filledIn (environment : Environment) (name : String) : List Text :=
  (environment.get? name).toList.filter (· != [])

/-- The files to look for, in order. -/
def all (environment : Environment) (tree : Tree) (flag : Option Text) : List FileCandidate :=
  let shared := (filledIn environment "XDG_CONFIG_DIRS").flatMap fun folders =>
    (folders.splitOn ':').filter (· != [])
  let found :=
    filledIn environment "MENDER_CONFIG_PATH" ++
      ((filledIn environment "XDG_CONFIG_HOME" ++ shared).flatMap below) ++
      ((filledIn environment "HOME").flatMap fun folder =>
        below (Path.join folder ".config".toList) ++ [Path.join folder ".mender.toml".toList]) ++
      [Path.join (Place.path tree.workingDir) ".mender.toml".toList]
  flag.toList.map (⟨·, true⟩) ++ found.map (⟨·, false⟩)

end FileCandidate

/-- What looking for settings files brings: layers if a file was loaded, the errors
that count in any case, and those that count if no file was loaded. -/
structure FileSearch where
  layers? : Option (List Settings)
  required : List FileError
  optional : List FileError

namespace FileSearch

/-- A search with an error before it. -/
def withError (isRequired : Bool) (error : FileError) (search : FileSearch) : FileSearch :=
  if isRequired then { search with required := error :: search.required }
  else { search with optional := error :: search.optional }

/-- Take the first file that can be loaded. -/
def run (tree : Tree) : List FileCandidate → FileSearch
  | [] => ⟨none, [], []⟩
  | candidate :: rest =>
      match fileLayers? tree candidate.path with
      | .ok (some layers) => ⟨some layers, [], []⟩
      | .ok none =>
          if candidate.isRequired then
            (run tree rest).withError true (.file candidate.path .missing)
          else run tree rest
      | .error error => (run tree rest).withError candidate.isRequired error

/-- The layers that were loaded. -/
def layers (search : FileSearch) : List Settings :=
  search.layers?.getD []

/-- The errors that count. -/
def errors (search : FileSearch) : List FileError :=
  search.required ++ if search.layers?.isSome then [] else search.optional

end FileSearch

/-- Merged layers: the lists that grow, and all other settings. -/
structure Merged where
  lists : NameMap (List Text)
  settings : Settings

namespace Merged

/-- No layer at all. -/
def empty : Merged := ⟨[], []⟩

/-- The settings whose lists grow from layer to layer. -/
def growing : List Text :=
  ["roots", "header_extensions", "source_extensions"].map String.toList

/-- Add the items of a value to a list; a single item stands for itself, and nothing for
no item. -/
def grow (merged : Merged) (name : Text) (value : Value) : Except DecodeError Merged :=
  let items :=
    match value with
    | .list items => items
    | .null => []
    | item => [item]
  ((Value.list items).asTexts).map fun texts =>
    let old := (NameMap.get? name merged.lists).getD []
    { merged with lists := NameMap.set name (old ++ texts) merged.lists }

/-- Add a layer on top. -/
def addLayer (merged : Merged) (layer : Settings) : Except DecodeError Merged := do
  let merged ← growing.foldlM (fun merged name =>
    match NameMap.get? name layer with
    | some value => merged.grow name value
    | none => .ok merged) merged
  let rest := layer.filter fun entry => !growing.contains entry.1
  return { merged with settings := Value.overlayEntries merged.settings rest }

/-- All settings, the grown lists among them. -/
def toSettings (merged : Merged) : Settings :=
  merged.lists.foldl
    (fun settings (name, texts) => NameMap.set name (.list (texts.map .text)) settings)
    merged.settings

end Merged

namespace Config

/-- The settings that layers make, the lowest one first. -/
def ofLayers (layers : List Settings) : Except DecodeError Config := do
  let merged ← layers.foldlM Merged.addLayer .empty
  default.setFields merged.toSettings

/-- How the names of variables for settings start. -/
def variableStart : Text :=
  "MENDER_".toList

/-- Load the settings of a run.  Faulty flags are told first and alone. -/
def load
    (environment : Environment) (tree : Tree) (arguments : List Text) :
    Except ConfigError Config :=
  match readFlags arguments with
  | .error error => .error (.flags (calledName (arguments.headD [])) error)
  | .ok flags =>
      let flag := (flags.find? fun entry => entry.1 == Flag.configPath).map Prod.snd
      let search := FileSearch.run tree (FileCandidate.all environment tree flag)
      let layers := search.layers ++
        [environment.settings variableStart, flagSettings flags]
      let fileErrors := search.errors.map ConfigError.file
      match ofLayers layers with
      | .error error =>
          .error ((ConfigError.ofList? (fileErrors ++ [.merge error])).getD (.merge error))
      | .ok config =>
          match ConfigError.ofList? fileErrors with
          | some error => .error error
          | none => .ok config

end Config

end Upkeep
