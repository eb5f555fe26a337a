import Upkeep.Command.Session
import Upkeep.Path.Basic

/-!
The programs that make, move and remove entries of the tree.
-/

namespace Upkeep

namespace Tree

/-- Put a new folder where a path leads. -/
def makeFolder (tree : Tree) (path : Text) : Except Fault Tree :=
  match tree.locate false path with
  | .error fault => .error fault
  | .ok ⟨_, some _⟩ => .error .alreadyExists
  | .ok ⟨place, none⟩ =>
      .ok { tree with top := tree.top.put place (.folder Node.folderMode []) }

/-- Make a folder and those on the way to it, as far as they are missing. -/
def makeFolders (tree : Tree) (path : Text) : Except Fault Tree :=
  let parts := path.splitOn '/'
  (List.range parts.length).foldlM
    (fun tree count =>
      let folder := ['/'].intercalate (parts.take (count + 1))
      if folder.isEmpty || tree.isFolder folder then .ok tree else tree.makeFolder folder)
    tree

/-- Remove what a path names, a folder only if that is asked for. -/
def removeEntry (tree : Tree) (foldersToo : Bool) (path : Text) : Except Fault Tree :=
  match tree.locate false path with
  | .error fault => .error fault
  | .ok ⟨_, none⟩ => .error .notFound
  | .ok ⟨place, some (.folder ..)⟩ =>
      if foldersToo then .ok { tree with top := tree.top.erase place } else .error .isADirectory
  | .ok ⟨place, some _⟩ => .ok { tree with top := tree.top.erase place }

/-- Remove an empty folder. -/
def removeFolder (tree : Tree) (path : Text) : Except Fault Tree :=
  match tree.locate false path with
  | .error fault => .error fault
  | .ok ⟨place, some (.folder _ [])⟩ => .ok { tree with top := tree.top.erase place }
  | .ok ⟨_, some (.folder ..)⟩ => .error .notEmpty
  | .ok ⟨_, some _⟩ => .error .notADirectory
  | .ok ⟨_, none⟩ => .error .notFound

/-- Where a copy goes: into a folder under its old name, else to the path itself. -/
def destination (tree : Tree) (origin target : Text) : Text :=
  if tree.isFolder target then Path.join target ((Path.fileName? origin).getD []) else target

def copyFile (tree : Tree) (origin target : Text) : Except Fault Tree :=
  match tree.locate true origin with
  | .error fault => .error fault
  | .ok ⟨_, some (.file file)⟩ =>
      let target := tree.destination origin target
      match tree.locate true target with
      | .error fault => .error fault
      | .ok ⟨place, some (.file old)⟩ => .ok (tree.setFile place { old with bytes := file.bytes })
      | .ok ⟨_, some _⟩ => .error .isADirectory
      | .ok ⟨place, none⟩ => .ok (tree.setFile place file)
  | .ok ⟨_, some _⟩ => .error .isADirectory
  | .ok ⟨_, none⟩ => .error .notFound

def moveEntry (tree : Tree) (origin target : Text) : Except Fault Tree :=
  match tree.locate false origin with
  | .error fault => .error fault
  | .ok ⟨_, none⟩ => .error .notFound
  | .ok ⟨place, some node⟩ =>
      match tree.locate false (tree.destination origin target) with
      | .error fault => .error fault
      | .ok ⟨there, _⟩ => .ok { tree with top := (tree.top.erase place).put there node }

end Tree

namespace Program

/-- Whether an argument is a list of options. -/
def isOption (argument : Text) : Bool :=
  match argument with
  | '-' :: _ :: _ => true
  | _ => false

/-- Say that an operand is missing. -/
def missingOperand (name what : String) (streams : Streams) (session : Session) :
    Status × Session :=
  (1, (session.sayLine streams.messages s!"{name}: missing {what}").sayLine streams.messages
    s!"Try '{name} --help' for more information.")

/-- A program that changes the tree for each operand in turn.  An operand for
which this fails is a message, and the program goes on. -/
def forEachOperand
    (name operandName : String) (describe : Text → Fault → String)
    (change : (options : Text) → Tree → Text → Except Fault Tree) : Program :=
  fun arguments streams session =>
    let options := (arguments.filter isOption).flatten
    let operands := arguments.filter (!isOption ·)
    if operands.isEmpty && !options.contains 'f' then
      missingOperand name operandName streams session
    else
      operands.foldl
        (fun (status, session) operand =>
          match session.withTree (change options session.tree operand) with
          | .ok session => (status, session)
          | .error fault =>
              (1, session.sayLine streams.messages s!"{name}: {describe operand fault}"))
        (0, session)

/-- The text of a failure with a name in quotes. -/
def complaint (start : String) (operand : Text) (fault : Fault) : String :=
  s!"{start} '{String.ofList operand}': {String.ofList fault.reason}"

def touch : Program :=
  forEachOperand "touch" "file operand" (complaint "cannot touch") fun _ tree path =>
    if tree.isFolder path then .ok tree else tree.append path .empty

def mkdir : Program :=
  forEachOperand "mkdir" "operand" (complaint "cannot create directory") fun options tree path =>
    if options.contains 'p' then tree.makeFolders path else tree.makeFolder path

def rm : Program :=
  forEachOperand "rm" "operand" (complaint "cannot remove") fun options tree path =>
    match tree.removeEntry (options.contains 'r' || options.contains 'R') path with
    | .error fault => if options.contains 'f' && fault == .notFound then .ok tree else .error fault
    | .ok tree => .ok tree

def rmdir : Program :=
  forEachOperand "rmdir" "operand" (complaint "failed to remove") fun _ tree path =>
    tree.removeFolder path

/-- A program that takes entries to a target. -/
def toTarget
    (name : String) (describe : (target origin : Text) → Fault → String)
    (take : Tree → Text → Text → Except Fault Tree) : Program :=
  fun arguments streams session =>
    match (arguments.filter (!isOption ·)).reverse with
    | target :: first :: more =>
        forEachOperand name "file operand"
          (fun origin fault =>
            match session.tree.locate false origin with
            | .error fault => complaint "cannot stat" origin fault
            | .ok ⟨_, none⟩ => complaint "cannot stat" origin .notFound
            | .ok _ => describe target origin fault)
          (fun _ tree path => take tree path target) (first :: more).reverse streams session
    | [only] =>
        missingOperand name s!"destination file operand after '{String.ofList only}'" streams
          session
    | [] => missingOperand name "file operand" streams session

def cp : Program :=
  toTarget "cp" (fun target origin fault =>
    if fault = .isADirectory then
      s!"-r not specified; omitting directory '{String.ofList origin}'"
    else complaint "cannot create regular file" target fault) Tree.copyFile

def mv : Program :=
  toTarget "mv" (fun target origin fault =>
    complaint s!"cannot move '{String.ofList origin}' to" target fault)
    Tree.moveEntry

end Program

end Upkeep
