/-!
# Refusals of the operating system

Why a request to the operating system failed.  A refusal with an error number is written with the
system's own text and that number; the three others are noticed before the system is asked.
-/

namespace BuildVariants

/-- Why a request to the operating system failed. -/
inductive OsError
  /-- A file or directory on the way does not exist. -/
  | noEntry
  /-- An argument or a variable is too long to be handed to a process. -/
  | argumentsTooLong
  /-- The file may not be executed. -/
  | permissionDenied
  /-- The device or directory is in use. -/
  | busy
  /-- There is already something at that place. -/
  | alreadyExists
  /-- Something on the way is not a directory. -/
  | notDirectory
  /-- A directory stands where a file was wanted. -/
  | isDirectory
  /-- The path may not be used in this way. -/
  | invalidArgument
  /-- A name is longer than a directory can hold. -/
  | nameTooLong
  /-- The system does not offer the service. -/
  | unsupported
  /-- The directory still has entries. -/
  | notEmpty
  /-- A path holds the character NUL. -/
  | nulInPath
  /-- A command line, variable or directory of a process holds the character NUL. -/
  | nulInCommand
  /-- A text file is not UTF-8. -/
  | notUtf8
  deriving DecidableEq, Repr

namespace OsError

/-- The system's text and number of a refusal, for those that come from the system. -/
def number? : OsError → Option (String × Nat)
  | noEntry => some ("No such file or directory", 2)
  | argumentsTooLong => some ("Argument list too long", 7)
  | permissionDenied => some ("Permission denied", 13)
  | busy => some ("Device or resource busy", 16)
  | alreadyExists => some ("File exists", 17)
  | notDirectory => some ("Not a directory", 20)
  | isDirectory => some ("Is a directory", 21)
  | invalidArgument => some ("Invalid argument", 22)
  | nameTooLong => some ("File name too long", 36)
  | unsupported => some ("Function not implemented", 38)
  | notEmpty => some ("Directory not empty", 39)
  | nulInPath | nulInCommand | notUtf8 => none

/-- The text of a refusal. -/
def message (e : OsError) : String :=
  match e.number? with
  | some (text, n) => text ++ " (os error " ++ toString n ++ ")"
  | none =>
    match e with
    | nulInCommand => "nul byte found in provided data"
    | notUtf8 => "stream did not contain valid UTF-8"
    | _ => "file name contained an unexpected NUL byte"

end OsError

end BuildVariants
