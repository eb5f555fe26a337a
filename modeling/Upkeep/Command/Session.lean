import Upkeep.Tree.Basic

/-!
What programs work on: a file tree whose working folder is their own, an input
that they read up, and the places where their output goes.
-/

namespace Upkeep

/-- Where output goes.  Pipes are counted from the outermost one. -/
inductive Sink where
  | nowhere
  | file (place : Place)
  | pipe (depth : Nat)
  deriving DecidableEq, Repr

/-- Where the output and the messages of a program go. -/
structure Streams where
  output : Sink
  messages : Sink
  deriving DecidableEq, Repr

/-- The state that programs change. -/
structure Session where
  tree : Tree
  input : ByteArray
  pipes : List ByteArray

/-- The exit status of a program; zero means success. -/
abbrev Status := Nat

/-- What a program does with its arguments. -/
abbrev Program := List Text → Streams → Session → Status × Session

namespace Session

def send (session : Session) (sink : Sink) (bytes : ByteArray) : Session :=
  match sink with
  | .nowhere => session
  | .pipe depth => { session with pipes := session.pipes.modify depth (· ++ bytes) }
  | .file place =>
      match session.tree.top.get? place with
      | some (.file file) =>
          { session with
            tree := session.tree.setFile place { file with bytes := file.bytes ++ bytes } }
      | _ => session

/-- Send a text to a sink. -/
def say (session : Session) (sink : Sink) (text : Text) : Session :=
  session.send sink (encode text)

/-- Send bytes that are given as characters to a sink. -/
def sayBytes (session : Session) (sink : Sink) (bytes : Text) : Session :=
  session.send sink (ofByteChars bytes)

/-- Send a line to a sink. -/
def sayLine (session : Session) (sink : Sink) (line : String) : Session :=
  session.say sink (line.toList ++ ['\n'])

def takeInput (session : Session) : ByteArray × Session :=
  (session.input, { session with input := .empty })

def openPipe (session : Session) : Sink × Session :=
  (.pipe session.pipes.length, { session with pipes := session.pipes ++ [.empty] })

/-- Close the innermost pipe and hand on what was sent to it. -/
def closePipe (session : Session) : ByteArray × Session :=
  ((session.pipes.getLast?).getD .empty, { session with pipes := session.pipes.dropLast })

/-- Change the tree, unless the change fails. -/
def withTree (session : Session) (changed : Except Fault Tree) : Except Fault Session :=
  match changed with
  | .ok tree => .ok { session with tree }
  | .error fault => .error fault

end Session

/-- The text of a fault without its number. -/
def Fault.reason (fault : Fault) : Text :=
  (fault.message.toList.takeWhile (· != '(')).dropLast

end Upkeep
