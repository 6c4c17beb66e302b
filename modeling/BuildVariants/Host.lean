import BuildVariants.Command
import BuildVariants.Log
import BuildVariants.OsError
import BuildVariants.Status

/-!
# The host

What the program asks of the machine it runs on.  A `Host` is a monad that answers these requests;
everything above it is written for any host, so the same operations run against a real machine and
against a simulated one.

A child process is started with one of two wirings: its output is shown to the user as it comes,
or it is kept.  The answer is how the process ended, or why it could not be started.
-/

namespace BuildVariants

/-- What stands at a path, as far as the program looks. -/
inductive EntryKind
  | directory
  | file (executable : Bool)
  deriving DecidableEq, Repr

/-- Where the output of a child process goes. -/
inductive Wiring
  /-- To the output of the program itself. -/
  | shown
  /-- To the program, which may show it later. -/
  | kept
  deriving DecidableEq, Repr

/-- How a process ended. -/
inductive Ending
  | exited (code : Nat)
  /-- By a signal. -/
  | killed
  deriving DecidableEq, Repr

/-- The exit code, if there is one. -/
def Ending.code? : Ending → Option Nat
  | exited code => some code
  | killed => none

/-- Whether a process ended well. -/
def Ending.isSuccess (e : Ending) : Bool :=
  e = .exited 0

/-- A process that has ended, with what it wrote. -/
structure Exit where
  /-- How it ended. -/
  ending : Ending
  /-- What it wrote to its standard output. -/
  stdout : String
  /-- What it wrote to its standard error. -/
  stderr : String
  deriving DecidableEq, Repr

/-- Something the program itself writes. -/
inductive Emission
  /-- A text on standard output. -/
  | output (text : String)
  /-- A text on standard error. -/
  | notice (text : String)
  /-- A log record. -/
  | log (record : LogRecord)
  deriving DecidableEq, Repr

/-- A machine to run on. -/
class Host (m : Type → Type) where
  /-- The value of a variable of the environment. -/
  environment : String → m (Option String)
  /-- The directory that relative paths start from; it may have been removed. -/
  currentDirectory : m (Except OsError Path)
  /-- What stands at a path, if anything does. -/
  entryKind? : Path → m (Option EntryKind)
  /-- The text of a file. -/
  readText : Path → m (Except OsError String)
  /-- Makes a directory and those above it as far as they are missing. -/
  createAll : Path → m (Except OsError Unit)
  /-- Removes a directory with everything in it. -/
  removeTree : Path → m (Except OsError Unit)
  /-- Runs a process to its end. -/
  run : Command → Wiring → m (Except OsError Exit)
  /-- Writes something. -/
  emit : Emission → m Unit
  /-- The time on a clock, in milliseconds. -/
  milliseconds : m Nat

namespace Host

variable {m : Type → Type} [Monad m] [Host m]

/-- The user's home. -/
def home? : m (Option Path) := do
  match ← environment "HOME" with
  | some home => return if home = "" then none else some ⟨home⟩
  | none => return none

/-- Whether anything stands at a path. -/
def pathExists (p : Path) : m Bool :=
  return (← entryKind? p).isSome

/-- Whether a file stands at a path. -/
def isFile (p : Path) : m Bool :=
  return match ← entryKind? p with
    | some (.file _) => true
    | _ => false

/-- Whether an executable file stands at a path. -/
def isExecutable (p : Path) : m Bool :=
  return (← entryKind? p) = some (.file true)

/-- Writes a line to standard output. -/
def printLine (s : String) : m Unit :=
  emit (.output (s ++ "\n"))

/-- Writes a log record. -/
def debug (message : String) : m Unit :=
  emit (.log ⟨.debug, message⟩)

/-- Writes a status line, unless the shell is quiet. -/
def status (shell : Shell) (s : Status) (message : String) : m Unit :=
  if shell.isQuiet then pure () else emit (.notice (shell.statusLine s message))

end Host

end BuildVariants
