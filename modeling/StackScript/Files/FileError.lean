/-!
# Errors of file operations

Why a file operation failed.  The wording is the one of the operating system, with its
number for the error, where the operating system has a word for it.
-/

namespace StackScript

/-- Why a file operation failed. -/
inductive FileError where
  /-- There is nothing under the path. -/
  | notFound
  /-- The operation is not allowed. -/
  | denied
  /-- The directory can be neither moved nor replaced. -/
  | busy
  /-- There is something under the path already. -/
  | alreadyExists
  /-- The path goes through a file. -/
  | notDirectory
  /-- The path leads to a directory. -/
  | isDirectory
  /-- The path cannot be handed to the operating system. -/
  | invalidArgument
  /-- A name in the path, or the path, is too long. -/
  | nameTooLong
  /-- The path holds the character that ends paths. -/
  | nulInPath
  /-- The content is not UTF-8. -/
  | notText
  /-- Anything else. -/
  | other (reason : String)
  deriving DecidableEq, Repr

/-- The wording of a file error. -/
def FileError.message : FileError → String
  | .notFound => "No such file or directory (os error 2)"
  | .denied => "Permission denied (os error 13)"
  | .busy => "Device or resource busy (os error 16)"
  | .alreadyExists => "File exists (os error 17)"
  | .notDirectory => "Not a directory (os error 20)"
  | .isDirectory => "Is a directory (os error 21)"
  | .invalidArgument => "Invalid argument (os error 22)"
  | .nameTooLong => "File name too long (os error 36)"
  | .nulInPath => "file name contained an unexpected NUL byte"
  | .notText => "stream did not contain valid UTF-8"
  | .other reason => reason

end StackScript
