import Upkeep.Text.Basic

/-!
Why an operation on a file tree fails.
-/

namespace Upkeep

/-- Why an operation on a tree fails. -/
inductive Fault where
  | notFound
  | permissionDenied
  | busy
  | alreadyExists
  | notADirectory
  | isADirectory
  | notEmpty
  | tooManyLinks
  | outside
  | invalidText
  | nulInPath
  | listing (path : Text) (fault : Fault)
  | other (text : Text)
  deriving DecidableEq, Repr

def Fault.message : Fault → String
  | .notFound => "No such file or directory (os error 2)"
  | .permissionDenied => "Permission denied (os error 13)"
  | .busy => "Device or resource busy (os error 16)"
  | .alreadyExists => "File exists (os error 17)"
  | .notADirectory => "Not a directory (os error 20)"
  | .isADirectory => "Is a directory (os error 21)"
  | .notEmpty => "Directory not empty (os error 39)"
  | .tooManyLinks => "Too many levels of symbolic links (os error 40)"
  | .outside => "a path led outside of the filesystem"
  | .invalidText => "stream did not contain valid UTF-8"
  | .nulInPath => "file name contained an unexpected NUL byte"
  | .listing path fault =>
      s!"IO error for operation on {String.ofList path}: {fault.message}"
  | .other text => String.ofList text

end Upkeep
