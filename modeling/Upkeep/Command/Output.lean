import Upkeep.Command.Escape
import Upkeep.Command.Session

/-!
The programs that write their arguments, one blank between two of them.
-/

namespace Upkeep

namespace Program

/-- Whether an argument holds options of `echo` only. -/
def isEchoOption (argument : Text) : Bool :=
  match argument with
  | '-' :: c :: rest => (c :: rest).all fun c => c == 'n' || c == 'e' || c == 'E'
  | _ => false

/-- What `echo` writes, with its escapes read by the rules if there are any. -/
def echoText (rules : Option EscapeRules) (withNewline : Bool) (arguments : List Text) : Text :=
  let plain := byteText ([' '].intercalate arguments)
  let (written, stopped) := (rules.map (·.unescape plain)).getD (plain, false)
  if withNewline && !stopped then written ++ ['\n'] else written

/-- The program `echo`, which reads escapes only if asked to. -/
def echo : Program := fun arguments streams session =>
  let options := (arguments.takeWhile isEchoOption).flatMap (·.drop 1)
  let rules : EscapeRules := ⟨true, true, false⟩
  let interpret := (options.filter (· != 'n')).getLast? == some 'e'
  (0, session.sayBytes streams.output
    (echoText (if interpret then some rules else none) (!options.contains 'n')
      (arguments.dropWhile isEchoOption)))

/-- The `echo` of the shell, which always reads escapes. -/
def shellEcho : Program := fun arguments streams session =>
  let rules : EscapeRules := ⟨true, false, false⟩
  (0, session.sayBytes streams.output
    (match arguments with
    | ['-', 'n'] :: arguments => echoText (some rules) false arguments
    | arguments => echoText (some rules) true arguments))

end Program

end Upkeep
