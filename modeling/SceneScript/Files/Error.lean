/-! # File errors

The reasons why a file operation fails, with the words of the operating system.
-/

namespace SceneScript

/-- Why a file operation failed. -/
inductive FileError where
  | notFound
  | alreadyExists
  | notDirectory
  | isDirectory
  | nameTooLong
  /-- A path holds the character zero. -/
  | nulInPath
  /-- A file does not hold UTF-8 text. -/
  | invalidText
  /-- Another failure, in the words of the system. -/
  | other (description : String)
  deriving DecidableEq, Repr

/-- The failure in words. -/
def FileError.message : FileError → String
  | notFound => "No such file or directory (os error 2)"
  | alreadyExists => "File exists (os error 17)"
  | notDirectory => "Not a directory (os error 20)"
  | isDirectory => "Is a directory (os error 21)"
  | nameTooLong => "File name too long (os error 36)"
  | nulInPath => "file name contained an unexpected NUL byte"
  | invalidText => "stream did not contain valid UTF-8"
  | other description => description

end SceneScript
