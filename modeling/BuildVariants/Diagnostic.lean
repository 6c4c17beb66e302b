import BuildVariants.OsError
import BuildVariants.Path

/-!
# What can go wrong

A `Diagnostic` is a mistake in a plan or in a request: it has a code, and most have a help text
that names what exists or what to change.  A `Failure` is whatever ends an operation: a diagnostic,
a refusal of the operating system, or a child process that did not succeed.  The causes are data;
the wording is in `message`, `code` and `help?` and nowhere else.
-/

namespace BuildVariants

/-- A list of names for a help text. -/
def joinNames (names : List String) : String :=
  if names = [] then "(none)" else ", ".intercalate names

/-- A mistake in a plan or in a request. -/
inductive Diagnostic
  /-- A variant was asked for that the plan does not declare. -/
  | unknownVariant (name : String) (available : List String)
  /-- A run target was asked for that the plan does not declare. -/
  | unknownTarget (name : String) (available : List String)
  /-- Two variants of a plan have the same key. -/
  | duplicateVariant (key : String)
  /-- A plan declares no variants. -/
  | noVariants
  /-- The plan file cannot be read as text. -/
  | unreadablePlan (path : Path) (cause : OsError)
  /-- The plan file is not a plan. -/
  | malformedPlan (path : Path)
  /-- An argument line cannot be cut into words. -/
  | malformedArguments (line : String)
  /-- The source directory is not that of a CMake project. -/
  | notCMakeProject (directory : Path)
  /-- No `cmake` could be found. -/
  | cmakeNotFound
  deriving DecidableEq, Repr

namespace Diagnostic

/-- The message of a diagnostic. -/
def message : Diagnostic → String
  | unknownVariant name _ => "unknown variant `" ++ name ++ "`"
  | unknownTarget name _ => "unknown run target `" ++ name ++ "`"
  | duplicateVariant key => "variant `" ++ key ++ "` is declared more than once"
  | noVariants => "plan declares no variants"
  | unreadablePlan path _ => "failed to read plan file: " ++ path.text
  | malformedPlan path => "failed to parse plan file: " ++ path.text
  | malformedArguments line => "cannot split argument line `" ++ line ++ "`"
  | notCMakeProject directory => "no CMakeLists.txt in " ++ directory.text
  | cmakeNotFound => "CMake not found"

/-- The code of a diagnostic. -/
def code : Diagnostic → String
  | unknownVariant .. => "varia::plan::unknown_variant"
  | unknownTarget .. => "varia::plan::unknown_target"
  | duplicateVariant .. => "varia::plan::duplicate_variant"
  | noVariants => "varia::plan::empty"
  | unreadablePlan .. => "varia::config::read"
  | malformedPlan .. => "varia::config::parse"
  | malformedArguments .. => "varia::args::malformed"
  | notCMakeProject .. => "varia::cmake::no_project"
  | cmakeNotFound => "varia::cmake::not_found"

/-- What to do about a diagnostic. -/
def help? : Diagnostic → Option String
  | unknownVariant _ available => some ("available variants: " ++ joinNames available)
  | unknownTarget _ available => some ("available targets: " ++ joinNames available)
  | duplicateVariant .. => none
  | noVariants => some "add a [[variant]] table to Variants.toml"
  | unreadablePlan .. => none
  | malformedPlan .. =>
    some "check Variants.toml against the output of `varia plan --format toml`"
  | malformedArguments .. => some "check for an unbalanced quote or a trailing backslash"
  | notCMakeProject .. => some "set `src_dir` in the [options] table of Variants.toml"
  | cmakeNotFound => some "install CMake and ensure it is in your PATH"

end Diagnostic

/-- What ends an operation early. -/
inductive Failure
  /-- A mistake in the plan or in the request. -/
  | diagnosed (diagnostic : Diagnostic)
  /-- There is no working directory. -/
  | noWorkingDirectory (cause : OsError)
  /-- The system refused a request. -/
  | refused (cause : OsError)
  /-- A directory could not be made. -/
  | createDirectory (path : Path) (cause : OsError)
  /-- A directory could not be removed. -/
  | removeDirectory (path : Path) (cause : OsError)
  /-- A process could not be started. -/
  | execute (program : Path) (cause : OsError)
  /-- A step whose output was shown did not succeed; no code if a signal ended it. -/
  | stepExit (step : String) (code : Option Nat)
  /-- A step whose output was kept did not succeed. -/
  | stepOutput (step : String) (stdout stderr : String)
  /-- A run target has not been built. -/
  | missingExecutable (program : Path) (target : String)
  deriving DecidableEq, Repr

namespace Failure

/-- An exit code, as a step's failure shows it. -/
def codeText : Option Nat → String
  | none => "None"
  | some n => "Some(" ++ toString n ++ ")"

/-- The message of a failure with its causes. -/
def message : Failure → String
  | diagnosed d => d.message
  | noWorkingDirectory cause => "failed to get current directory: " ++ cause.message
  | refused cause => cause.message
  | createDirectory path cause =>
    "failed to create directory: " ++ path.text ++ ": " ++ cause.message
  | removeDirectory path cause =>
    "failed to remove directory: " ++ path.text ++ ": " ++ cause.message
  | execute program cause => "failed to execute `" ++ program.text ++ "`: " ++ cause.message
  | stepExit step code => step ++ " failed with exit code " ++ codeText code
  | stepOutput step stdout stderr => step ++ " failed:\n" ++ stdout ++ stderr
  | missingExecutable program target =>
    "executable not found: " ++ program.text ++ "\n\nhelp: Run `varia build-run " ++ target
      ++ "` to build it first"

end Failure

end BuildVariants
