import Upkeep.Text.Basic

/-!
What is said about arguments that mean nothing to a program.
-/

namespace Upkeep

/-- What is wrong, what may help, and how the program is used. -/
structure Complaint where
  message : String
  tips : List String
  usage? : Option String
  deriving DecidableEq, Repr

namespace Complaint

/-- A complaint that nothing can be added to. -/
def plain (message : String) : Complaint :=
  ⟨message, [], none⟩

/-- The text of the tips, one on each line after an empty one. -/
def tipText (complaint : Complaint) : String :=
  if complaint.tips.isEmpty then ""
  else "\n" ++ String.join (complaint.tips.map ("\n  tip: " ++ ·))

/-- The text of a complaint, with the end of its last line. -/
def text (complaint : Complaint) : String :=
  let usage :=
    match complaint.usage? with
    | some usage => "\n\nUsage: " ++ usage
    | none => ""
  "error: " ++ complaint.message ++ complaint.tipText ++ usage ++
    "\n\nFor more information, try '--help'.\n"

end Complaint

/-- The name under which a program was called. -/
def calledName (program : Text) : Text :=
  ((program.splitOn '/').filter (· != [])).getLast?.getD program

end Upkeep
