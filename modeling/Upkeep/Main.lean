import Upkeep.CommandLine.Run

/-!
The program itself.  The files below the working folder are taken into memory, the
work is done there, and what has changed is written back.  Build commands run on the
files in memory.
-/

namespace Upkeep

/-- The place that an absolute path leads to. -/
def placeOf (path : String) : Place :=
  (path.toList.splitOn '/').filter (· != [])

def folderOf (entries : Array (Text × Node)) : Node :=
  .folder Node.folderMode
    (entries.foldl (fun entries (name, node) => NameMap.set name node entries) [])

/-- Why a folder could not be listed. -/
def refusalOf : IO.Error → Fault
  | .permissionDenied .. => .permissionDenied
  | error => .other error.toString.toList

/-- Take an entry of a folder into memory. -/
partial def loadEntry (entry : IO.FS.DirEntry) : IO (Option (Text × Node)) := do
  let name := entry.fileName.toList
  match (← entry.path.symlinkMetadata).type with
  | .dir =>
      try
        return some (name, folderOf (← (← entry.path.readDir).filterMapM loadEntry))
      catch error =>
        return some (name, .folder ⟨Node.folderMode.permissions, some (refusalOf error)⟩ [])
  | .file => return some (name, .file ⟨← IO.FS.readBinFile entry.path, Tree.publicMode⟩)
  | .symlink =>
      try
        return some (name, .link (← IO.FS.realPath entry.path).toString.toList)
      catch _ =>
        return none
  | .other => return none

/-- Take the files below the working folder into memory, and those settings files
that lie elsewhere. -/
def loadTree (environment : Environment) : IO Tree := do
  let here ← IO.currentDir
  let folder := folderOf (← (← here.readDir).filterMapM loadEntry)
  let workingDir := placeOf here.toString
  let tree : Tree := ⟨(folderOf #[]).put workingDir folder, workingDir⟩
  (FileCandidate.all environment tree none).foldlM (fun tree candidate => do
    try
      let bytes ← IO.FS.readBinFile (String.ofList candidate.path)
      return { tree with
        top := tree.top.put (placeOf (String.ofList candidate.path)) (.file ⟨bytes, Tree.publicMode⟩) }
    catch _ =>
      return tree) tree

/-- The file that an entry is. -/
def fileOf? : Option Node → Option File
  | some (.file file) => some file
  | _ => none

/-- Write back the files that differ, and remove those that are gone. -/
def saveTree (old new : Tree) : IO Unit := do
  for (place, leaf) in new.top.leaves do
    match fileOf? (some leaf) with
    | some file =>
        if fileOf? (old.top.get? place) ≠ some file then
          IO.FS.writeBinFile (String.ofList (Place.path place)) file.bytes
    | none => pure ()
  for (place, _) in old.top.leaves do
    if (new.top.get? place).isNone then
      IO.FS.removeFile (String.ofList (Place.path place))

/-- The variables that the program looks at. -/
def variableNames : List String :=
  ["HOME", "XDG_CONFIG_HOME", "XDG_CONFIG_DIRS"] ++
    Flag.all.map fun flag => String.ofList Config.variableStart ++ flag.field.toUpper

/-- The variables that are set. -/
def loadEnvironment : IO Environment :=
  variableNames.filterMapM fun name => do
    return (← IO.getEnv name).map fun value => (name.toList, value.toList)

end Upkeep

open Upkeep in
/-- Run the program. -/
def main (arguments : List String) : IO UInt32 := do
  let environment ← loadEnvironment
  let tree ← loadTree environment
  let ending := runProgram (launch launchDepth) false environment
    (("mender" :: arguments).map String.toList) tree
  saveTree tree ending.tree
  (← IO.getStdout).putStr (String.ofList ending.output)
  (← IO.getStderr).putStr (String.ofList (Ending.textOf ending.log ++ ending.messages))
  return if ending.succeeded then 0 else 1
