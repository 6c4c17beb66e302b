import BuildVariants.Command
import BuildVariants.Environment
import BuildVariants.FileTree
import BuildVariants.Search

/-!
# Launching a process

Which file a command starts, and with what.  A program with a slash in its name is looked up from
the directory the process is to run in; a bare name is searched for in the directories of `PATH`:
the one the command sets, or else that of the program which starts it.  If nothing is found there,
the reason is that of the last directory, unless a file was met that may not be executed.  A NUL
anywhere in a command is noticed before anything else.
-/

namespace BuildVariants

/-- A process that is about to start. -/
structure Launch where
  /-- The path the program is started by. -/
  program : Path
  /-- The bytes of the program. -/
  contents : ByteArray
  /-- Its arguments. -/
  args : List String
  /-- Its whole environment. -/
  environment : Environment
  /-- The directory it runs in. -/
  cwd : Place

/-- Whether a text holds the character NUL. -/
def hasNul (s : String) : Bool :=
  s.toList.contains '\x00'

/-- Whether anything in a command holds the character NUL. -/
def Command.hasNul (c : Command) : Bool :=
  BuildVariants.hasNul c.program.text || c.args.any BuildVariants.hasNul
    || c.env.entries.any (fun e => BuildVariants.hasNul e.1 || BuildVariants.hasNul e.2)
    || c.cwd?.any fun d => BuildVariants.hasNul d.text

/-- The longest argument or variable that a process can be given, in bytes. -/
def maxArgumentBytes : Nat := 131071

/-- Whether an argument, or a variable with its value, is too long for a process. -/
def hasLongArgument (args : List String) (environment : Environment) : Bool :=
  (args ++ environment.texts).any fun s => maxArgumentBytes < s.utf8ByteSize

namespace FileTree

/-- The bytes of the executable at a path. -/
def executable (t : FileTree) (cwd : Place) (p : Path) : Except OsError ByteArray :=
  match t.resolve cwd p with
  | .error e => .error e
  | .ok (_, .file contents true) => .ok contents
  | .ok _ => .error .permissionDenied

/-- The first executable among some paths.  If there is none, the reason is that of the last path,
or that a file may not be executed, if one was met (`denied`). -/
def searchExecutable (t : FileTree) (cwd : Place) :
    (denied : Bool) → (reason : OsError) → List Path → Except OsError (Path × ByteArray)
  | denied, reason, [] => .error (if denied then .permissionDenied else reason)
  | denied, _, p :: ps =>
    match t.executable cwd p with
    | .ok contents => .ok (p, contents)
    | .error .permissionDenied => t.searchExecutable cwd true .permissionDenied ps
    | .error .noEntry => t.searchExecutable cwd denied .noEntry ps
    | .error .notDirectory => t.searchExecutable cwd denied .notDirectory ps
    | .error e => .error e

/-- The directories that are searched where the environment has no search list. -/
def standardSearchList : String := "/bin:/usr/bin"

/-- The path of a name in a directory of a search list: a slash is put between the two in any case,
unless the directory is left empty. -/
def searchPath (name directory : Path) : Path :=
  if directory.text = "" then name else ⟨directory.text ++ "/" ++ name.text⟩

/-- The program that a name stands for in a directory, with a list of directories to search. -/
def program (t : FileTree) (cwd : Place) (searchList : String) (name : Path) :
    Except OsError (Path × ByteArray) :=
  if name.text.toList.contains '/' then
    match t.executable cwd name with
    | .ok contents => .ok (name, contents)
    | .error e => .error e
  else if name.text = "" then .error .noEntry
  else if maxNameBytes < name.text.utf8ByteSize then .error .nameTooLong
  else t.searchExecutable cwd false .noEntry ((searchDirectories searchList).map (searchPath name))

/-- The directory a process runs in. -/
def workingDirectory (t : FileTree) (cwd : Place) : Option Path → Except OsError Place
  | none => .ok cwd
  | some d =>
    match t.resolve cwd d with
    | .error e => .error e
    | .ok (l, .directory) => .ok l
    | .ok (_, .file ..) => .error .notDirectory

/-- The directories that are searched for the program of a command: those it sets itself, or those
of the environment it is run in. -/
def searchList (environment : Environment) (c : Command) : String :=
  ((c.env.lookup? "PATH").or (environment.value? "PATH")).getD standardSearchList

/-- What starts when a command is run in a directory and an environment. -/
def launch (t : FileTree) (cwd : Place) (environment : Environment) (c : Command) :
    Except OsError Launch :=
  if c.hasNul then .error .nulInCommand
  else match t.workingDirectory cwd c.cwd? with
    | .error e => .error e
    | .ok here =>
      let all := environment.assign c.env
      match t.program here (searchList environment c) c.program with
      | .error e => .error e
      | .ok (path, contents) =>
        if hasLongArgument c.args all then .error .argumentsTooLong
        else .ok ⟨path, contents, c.args, all, here⟩

end FileTree

end BuildVariants
