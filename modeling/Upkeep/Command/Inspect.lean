import Upkeep.Command.Escape
import Upkeep.Command.Session
import Upkeep.Path.Basic

/-!
The programs that hand on what files and folders hold.
-/

namespace Upkeep

/-- The bytes that an operand stands for; a dash is the input. -/
def readOperand (operand : Text) (session : Session) : Except Fault (ByteArray × Session) :=
  if operand = ['-'] then .ok session.takeInput
  else (session.tree.read operand).map (·, session)

namespace Program

/-- A program that says something about each operand in turn, or about the input if
there is none.  An operand that cannot be read is a message, and the program goes
on. -/
def forEachContent
    (describe : Text → String) (say : Text → ByteArray → ByteArray) (operands : List Text) :
    Streams → Session → Status × Session := fun streams session =>
  (if operands.isEmpty then [['-']] else operands).foldl
    (fun (status, session) operand =>
      match readOperand operand session with
      | .ok (bytes, session) => (status, session.send streams.output (say operand bytes))
      | .error fault =>
          (1, session.sayLine streams.messages
            s!"{describe operand}: {String.ofList fault.reason}"))
    (0, session)

def cat : Program := fun arguments =>
  forEachContent (fun operand => s!"cat: {String.ofList operand}") (fun _ bytes => bytes) (arguments.filter (· != ['-', 'u']))

/-- The program `head`, which hands on the first lines. -/
def head : Program := fun arguments =>
  let (count, operands) : Nat × List Text :=
    match arguments with
    | ['-', 'n'] :: count :: operands => (digitsValue 10 count, operands)
    | ('-' :: 'n' :: count) :: operands => (digitsValue 10 count, operands)
    | ('-' :: c :: count) :: operands => (digitsValue 10 (c :: count), operands)
    | operands => (10, operands)
  forEachContent (fun operand => s!"head: cannot open '{String.ofList operand}' for reading")
    (fun _ bytes =>
    ofByteChars (['\n'].intercalate (((byteChars bytes).splitOn '\n').take count) ++
      (if (byteChars bytes).count '\n' < count then [] else ['\n']))) operands

/-- The program `wc` with one of its counts. -/
def wc : Program := fun arguments =>
  let isOption := fun (argument : Text) => argument.head? == some '-' && argument != ['-']
  let options := (arguments.filter isOption).flatten
  let count := fun (bytes : ByteArray) =>
    if options.contains 'l' then bytes.toList.count 10
    else if options.contains 'w' then
      (((byteChars bytes).splitOnP Unicode.isBlank).filter (· != [])).length
    else bytes.size
  let operands := arguments.filter (!isOption ·)
  forEachContent (fun operand => s!"wc: {String.ofList operand}") (fun operand bytes =>
    encode ((toString (count bytes)).toList ++
      (if operands.isEmpty then [] else ' ' :: operand) ++ ['\n'])) operands

/-- The program `ls`, which leaves out names that start with a dot. -/
def ls : Program := fun arguments streams session =>
  let operands := arguments.filter fun argument => argument.head? != some '-'
  let listed := if operands.isEmpty then [['.']] else operands
  listed.foldl
    (fun (status, session) operand =>
      match session.tree.node? operand with
      | some (.folder _ entries) =>
          let names := (entries.map (·.1)).filter (·.head? != some '.')
          let title := if listed.length > 1 then operand ++ [':', '\n'] else []
          (status, session.say streams.output (title ++ names.flatMap (· ++ ['\n'])))
      | some _ => (status, session.say streams.output (operand ++ ['\n']))
      | none =>
          (2, session.sayLine streams.messages
            s!"ls: cannot access '{String.ofList operand}': No such file or directory"))
    (0, session)

def pwd : Program := fun _ streams session =>
  (0, session.say streams.output
    ('/' :: ['/'].intercalate session.tree.workingDir ++ ['\n']))

end Program

end Upkeep
