import Upkeep.Command.Shell.Expand

/-!
Redirections: where a command reads from and writes to.
-/

namespace Upkeep

namespace Shell

/-- Why a file cannot be opened for writing. -/
def creationReason (fault : Fault) : String :=
  match fault with
  | .notFound => "Directory nonexistent"
  | fault => String.ofList fault.reason

/-- Open the target of a redirection, or say why that fails. -/
def redirect
    (redirection : Redirection) (target : Text) (streams : Streams) (session : Session) :
    Except String (Streams × Session) :=
  let toSink := fun (sink : Sink) (session : Session) =>
    if redirection.stream = 1 then .ok ({ streams with output := sink }, session)
    else if redirection.stream = 2 then .ok ({ streams with messages := sink }, session)
    else .ok (streams, session)
  let opened := fun (changed : Except Fault Tree) =>
    let cannot := fun (fault : Fault) =>
      .error s!"cannot create {String.ofList target}: {creationReason fault}"
    if target = "/dev/null".toList then toSink .nowhere session
    else
      match session.withTree changed with
      | .error fault => cannot fault
      | .ok session =>
          match session.tree.locate true target with
          | .error fault => cannot fault
          | .ok found => toSink (.file found.place) session
  match redirection.kind with
  | .write => opened (session.tree.truncate target)
  | .append => opened (session.tree.append target .empty)
  | .duplicate =>
      match target with
      | ['1'] => toSink streams.output session
      | ['2'] => toSink streams.messages session
      | ['-'] => toSink .nowhere session
      | ['0'] => .ok (streams, session)
      | [c] =>
          if c.isDigit then .error s!"{c}: Bad file descriptor"
          else .error "Syntax error: Bad fd number"
      | _ => .error "Syntax error: Bad fd number"
  | .read =>
      if target = "/dev/null".toList then .ok (streams, { session with input := .empty })
      else
        match session.tree.read target with
        | .ok bytes => .ok (streams, { session with input := bytes })
        | .error .notFound => .error s!"cannot open {String.ofList target}: No such file"
        | .error fault =>
            .error s!"cannot open {String.ofList target}: {String.ofList fault.reason}"

/-- Open the targets of redirections in turn.  A failure is a message, and there are
no streams then. -/
def redirectAll (capture : Capture) (streams : Streams) :
    List Redirection → Streams → Shell → Option Streams × Shell
  | [], inner, shell => (some inner, shell)
  | redirection :: rest, inner, shell =>
      let (target, shell) := shell.expandOne capture streams redirection.target
      if !shell.isOnward then (none, shell)
      else
        match redirect redirection target inner shell.session with
        | .error message => (none, shell.complain streams 2 message)
        | .ok (inner, session) => redirectAll capture streams rest inner { shell with session }

/-- Run something with some of its streams redirected, or what is left to do if that
fails. -/
def withRedirections
    (capture : Capture) (redirections : List Redirection) (streams : Streams)
    (run : Streams → Shell → Shell) (giveUp : Shell → Shell) (shell : Shell) : Shell :=
  match shell.redirectAll capture streams redirections streams with
  | (none, shell) => giveUp shell
  | (some inner, changed) =>
      let after := run inner changed
      if redirections.any (·.kind == .read) then
        { after with session := { after.session with input := shell.session.input } }
      else after

end Shell

end Upkeep
