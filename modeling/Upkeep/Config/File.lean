import Upkeep.Config.Toml.Reader
import Upkeep.Tree.Basic

/-!
Settings files.  A file is looked for below its folder, and no link may lead out of it.
A file may extend another one, whose settings then lie below its own; a file that extends
itself, directly or through others, is refused.
-/

namespace Upkeep

/-- What is wrong with a settings file. -/
inductive FileFault where
  | missing
  | noFileName
  | noFile
  | unreadable (fault : Fault)
  | switchedOff (kind : String)
  | malformed (line column : Nat)
  | longKey
  | baseNoText (kind : String)
  | baseEmpty
  | baseMissing (base source : Text)
  | baseNoFile
  deriving DecidableEq, Repr

/-- The text about a place in a settings file that cannot be read. -/
def malformedMessage (line column : Nat) : String :=
  s!"TOML parse error at line {line}, column {column}"

/-- The text of a fault of a settings file. -/
def FileFault.message : FileFault → String
  | .missing => "required configuration file not found"
  | .noFileName => "cannot determine file name for configuration file path"
  | .noFile => "configuration path is not a regular file"
  | .unreadable fault => fault.message
  | .switchedOff kind =>
      s!"{kind} feature disabled: enable the '{kind}' feature to support this file format"
  | .malformed line column => malformedMessage line column
  | .longKey => "recursion limit"
  | .baseNoText kind => s!"'extends' key must be a string, but found type: {kind}"
  | .baseEmpty => "'extends' key must be a non-empty string"
  | .baseMissing base source =>
      s!"extended configuration file '{String.ofList base}' does not exist (referenced from '{String.ofList source}')"
  | .baseNoFile => "extended path is not a regular file"

/-- Why settings files cannot be loaded.  What only the newer edition of the format has
is told without the file. -/
inductive FileError where
  | file (path : Text) (fault : FileFault)
  | newer (line column : Nat)
  | cyclic (chain : List Text)
  deriving DecidableEq, Repr

/-- How a text about settings that cannot be merged starts. -/
def mergeLead : String :=
  "Failed to merge CLI with configuration: "

/-- The text of an error about settings files. -/
def FileError.message : FileError → String
  | .file path fault => s!"Configuration file error in '{String.ofList path}': {fault.message}"
  | .newer line column => mergeLead ++ malformedMessage line column
  | .cyclic chain =>
      "cyclic extends detected: " ++ " -> ".intercalate (chain.map String.ofList)

/-- The path from the top that leads to a place. -/
def Place.path (place : Place) : Text :=
  '/' :: ['/'].intercalate place

/-- The kind of file that an extension names and that is not read. -/
def switchedOffKind? (path : Text) : Option String :=
  match (Path.extension? path).map fun extension => String.ofList (extension.map Char.toLower) with
  | some "json" | some "json5" => some "json5"
  | some "yaml" | some "yml" => some "yaml"
  | _ => none

def fileSettings (tree : Tree) (path : Text) : Except FileError Settings :=
  match tree.readText path, switchedOffKind? path with
  | .error fault, _ => .error (.file path (.unreadable fault))
  | .ok _, some kind => .error (.file path (.switchedOff kind))
  | .ok text, none =>
      match Toml.document text with
      | .ok settings => .ok settings
      | .error (.malformed line column) => .error (.file path (.malformed line column))
      | .error .longKey => .error (.file path .longKey)
      | .error (.newer line column) => .error (.newer line column)

/-- The path of the file that a file extends, links followed. -/
def basePath? (tree : Tree) (path : Text) (settings : Settings) : Except FileError (Option Text) :=
  match NameMap.get? "extends".toList settings with
  | none => .ok none
  | some (.text []) => .error (.file path .baseEmpty)
  | some (.text name) =>
      let base := Path.join ((Path.parent? path).getD []) name
      match tree.locate true base with
      | .ok ⟨place, some (.file _)⟩ => .ok (some (Place.path place))
      | .ok ⟨place, some _⟩ => .error (.file (Place.path place) .baseNoFile)
      | .ok ⟨_, none⟩ | .error .notFound => .error (.file base (.baseMissing base path))
      | .error fault => .error (.file base (.unreadable fault))
  | some value => .error (.file path (.baseNoText value.kindName))

/-- The layers of a file, the lowest one first, given the files that led to it.
A chain of files is no longer than their number. -/
def chainWithin (tree : Tree) : Nat → List Text → Text → Except FileError (List Settings)
  | 0, chain, path => .error (.cyclic (chain ++ [path]))
  | length + 1, chain, path =>
      if path ∈ chain then .error (.cyclic (chain ++ [path]))
      else
        match fileSettings tree path with
        | .error error => .error error
        | .ok settings =>
            match basePath? tree path settings with
            | .error error => .error error
            | .ok none => .ok [settings]
            | .ok (some base) =>
                (chainWithin tree length (chain ++ [path]) base).map (· ++ [settings])

/-- The place of the settings file that a path names, if there is one.  The folder is
opened first, and the file is looked for below it. -/
def settingsPlace? (tree : Tree) (path : Text) : Except FileFault (Option Place) :=
  match Path.fileName? path with
  | none => .error .noFileName
  | some name =>
      match tree.locate true (Path.folder path) with
      | .error .notFound | .ok ⟨_, none⟩ => .ok none
      | .error fault => .error (.unreadable fault)
      | .ok ⟨folder, some (.folder ..)⟩ =>
          match tree.locateBelow folder name, tree.locate true path with
          | .error .notFound, _ | .ok ⟨_, none⟩, _ => .ok none
          | .error fault, _ => .error (.unreadable fault)
          | .ok ⟨_, some (.file _)⟩, .ok target => .ok (some target.place)
          | .ok ⟨_, some (.file _)⟩, .error fault => .error (.unreadable fault)
          | .ok _, _ => .error .noFile
      | .ok _ => .error (.unreadable .notADirectory)

/-- The layers of the file that a path names, if it names one. -/
def fileLayers? (tree : Tree) (path : Text) : Except FileError (Option (List Settings)) :=
  match settingsPlace? tree path with
  | .error fault => .error (.file path fault)
  | .ok none => .ok none
  | .ok (some place) =>
      (chainWithin tree (tree.top.leaves.length + 1) [] (Place.path place)).map some

end Upkeep
