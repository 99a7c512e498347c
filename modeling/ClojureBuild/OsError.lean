/-!
The causes for which the operating system, or the layer just above it, refuses an operation.
-/

namespace ClojureBuild

/-- Why an operation on files or processes failed. -/
inductive OsError where
  | notFound
  | noDevice
  | execFormat
  | permissionDenied
  | alreadyExists
  | notADirectory
  | isADirectory
  | invalidArgument
  | noSpace
  | nameTooLong
  /-- A directory that should go holds something. -/
  | notEmpty
  | tooManyLinks
  | badDescriptor
  | emptyPath
  /-- A file that should hold text does not. -/
  | invalidUtf8
  | nulInPath
  /-- A program's name or an argument holds the character NUL. -/
  | nulInInvocation
  | notARegularFile
  | other (text : String)
deriving DecidableEq, Repr, Inhabited

/-- The number that the system gives a cause, and its wording there. -/
def OsError.numbered? : OsError → Option (Nat × String)
  | .notFound => some (2, "No such file or directory")
  | .noDevice => some (6, "No such device or address")
  | .execFormat => some (8, "Exec format error")
  | .badDescriptor => some (9, "Bad file descriptor")
  | .permissionDenied => some (13, "Permission denied")
  | .alreadyExists => some (17, "File exists")
  | .notADirectory => some (20, "Not a directory")
  | .isADirectory => some (21, "Is a directory")
  | .invalidArgument => some (22, "Invalid argument")
  | .noSpace => some (28, "No space left on device")
  | .nameTooLong => some (36, "File name too long")
  | .notEmpty => some (39, "Directory not empty")
  | .tooManyLinks => some (40, "Too many levels of symbolic links")
  | _ => none

/-- The wording of a cause without its number. -/
def OsError.reason (cause : OsError) : String :=
  match cause.numbered?, cause with
  | some (_, text), _ => text
  | none, .emptyPath => "cannot make an empty path absolute"
  | none, .invalidUtf8 => "stream did not contain valid UTF-8"
  | none, .nulInPath => "file name contained an unexpected NUL byte"
  | none, .nulInInvocation => "nul byte found in provided data"
  | none, .notARegularFile =>
      "the source path is neither a regular file nor a symlink to a regular file"
  | none, .other text => text
  | none, _ => ""

/-- The wording of a cause; those that the system itself reports carry their number. -/
def OsError.message (cause : OsError) : String :=
  match cause.numbered? with
  | some (number, text) => text ++ " (os error " ++ toString number ++ ")"
  | none => cause.reason

example : OsError.message .notFound = "No such file or directory (os error 2)" := by decide +kernel

end ClojureBuild
