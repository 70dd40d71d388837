/-!
# Failures of file operations

The reasons for which a file operation fails, with the words and numbers under which systems
report them.
-/

namespace KeysetBundle.Files

/-- Why a file operation fails. -/
inductive Failure
  /-- There is nothing at the path. -/
  | notFound
  /-- There is something at the path already. -/
  | alreadyExists
  /-- A directory is needed and a file is there. -/
  | notDirectory
  /-- A file is needed and a directory is there. -/
  | isDirectory
  /-- The path is in use. -/
  | busy
  /-- The bytes of the file are no text. -/
  | invalidText
  /-- A shelf of texts has none under the path. -/
  | missing
  /-- Any other reason, in the words of the system. -/
  | other (words : String)
  deriving DecidableEq, Repr, Inhabited

/-- The words for a failure. -/
def Failure.message : Failure → String
  | .notFound => "No such file or directory (os error 2)"
  | .alreadyExists => "File exists (os error 17)"
  | .notDirectory => "Not a directory (os error 20)"
  | .isDirectory => "Is a directory (os error 21)"
  | .busy => "Device or resource busy (os error 16)"
  | .invalidText => "stream did not contain valid UTF-8"
  | .missing => "missing"
  | .other words => words

end KeysetBundle.Files
