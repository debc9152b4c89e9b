import ServiceModules.Files.Path
import ServiceModules.Text.Printable
import ServiceModules.Text.Quoted

/-!
What can go wrong with a file or a directory: something stands in the way, access is refused, a name
or the whole path is too long, or the path cannot name anything, because the null character occurs
in it.
-/

namespace ServiceModules

inductive FileProblem where
  | missing
  | forbidden
  /-- Something stands already where a directory is to be made. -/
  | occupied
  | notADirectory
  | isADirectory
  | nameTooLong
deriving DecidableEq, Repr, Inhabited

namespace FileProblem

def number : FileProblem → Nat
  | .missing => 2
  | .forbidden => 13
  | .occupied => 17
  | .notADirectory => 20
  | .isADirectory => 21
  | .nameTooLong => 36

def description : FileProblem → String
  | .missing => "No such file or directory"
  | .forbidden => "Permission denied"
  | .occupied => "File exists"
  | .notADirectory => "Not a directory"
  | .isADirectory => "Is a directory"
  | .nameTooLong => "File name too long"

/-- Nothing is at a path with such a problem, and that is an answer to the question what is there.
-/
def isAbsence : FileProblem → Bool
  | .missing | .notADirectory => true
  | _ => false

end FileProblem

inductive FileFault where
  /-- The problem with a path, as it was asked for. -/
  | refused (problem : FileProblem) (path : FilePath)
  | null
deriving DecidableEq, Repr, Inhabited

namespace FileFault

def message : FileFault → String
  | .refused problem path =>
    "[Errno " ++ toString problem.number ++ "] " ++ problem.description ++ ": "
      ++ String.ofList (Text.quoted path.text.toList)
  | .null => "embedded null byte"

end FileFault

end ServiceModules
