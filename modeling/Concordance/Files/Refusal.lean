/-!
# Concordance.Files.Refusal

Why the file system refuses an operation, with the operating system's wording.
-/

namespace Concordance.Files

/-- Why the file system refuses an operation. -/
inductive Refusal
  /-- Nothing is there. -/
  | notFound
  /-- Something is there already. -/
  | alreadyExists
  /-- A folder was needed and something else is there. -/
  | notAFolder
  /-- A file was needed and a folder is there. -/
  | isAFolder
  /-- A path ends in a way the operation does not allow. -/
  | invalidPath
  /-- The device takes no more bytes. -/
  | noSpace
  /-- A name has more bytes than a file system stores. -/
  | nameTooLong
  /-- Links led to links too often. -/
  | tooManyLinks
  /-- The folder is closed to what was asked of it. -/
  | denied
  /-- A path holds a NUL character. -/
  | nulInPath
  /-- The bytes of a text file are not UTF-8. -/
  | notText
  /-- A refusal known by its text only. -/
  | reported (text : String)
  deriving DecidableEq, Repr

/-- The wording of a refusal. -/
def Refusal.message : Refusal → String
  | .notFound => "No such file or directory (os error 2)"
  | .denied => "Permission denied (os error 13)"
  | .alreadyExists => "File exists (os error 17)"
  | .notAFolder => "Not a directory (os error 20)"
  | .isAFolder => "Is a directory (os error 21)"
  | .invalidPath => "Invalid argument (os error 22)"
  | .noSpace => "No space left on device (os error 28)"
  | .nameTooLong => "File name too long (os error 36)"
  | .tooManyLinks => "Too many levels of symbolic links (os error 40)"
  | .nulInPath => "file name contained an unexpected NUL byte"
  | .notText => "stream did not contain valid UTF-8"
  | .reported text => text

end Concordance.Files
