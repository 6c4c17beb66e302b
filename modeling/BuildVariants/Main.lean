import BuildVariants.CommandLine.Execute

/-!
# The program

The command line on the machine itself: a `Host` that reads the file system and writes to the
standard streams, and `main`.  All decisions are made by the modules below.

This host starts no processes; an operation that needs one ends with the refusal `unsupported`, so
from here the commands are shown (`--dry-run`, `args`, `plan`) and not carried out.  It cannot see
either whether a file may be executed, and takes every file for an executable.
-/

namespace BuildVariants

/-- A program on the machine itself, with the log records it shows. -/
abbrev Console := ReaderT LogView IO

/-- The refusal an error of the system stands for. -/
def OsError.ofError : IO.Error → OsError
  | .alreadyExists .. => .alreadyExists
  | .resourceBusy .. => .busy
  | .permissionDenied .. => .permissionDenied
  | .noFileOrDirectory .. => .noEntry
  | .inappropriateType .. => .notDirectory
  | .unsatisfiedConstraints .. => .notEmpty
  | .unsupportedOperation .. => .unsupported
  | _ => .invalidArgument

namespace Console

/-- Does something that the system may refuse. -/
def attempt {α : Type} (action : IO α) : Console (Except OsError α) := fun _ => do
  match ← action.toBaseIO with
  | .ok x => return .ok x
  | .error e => return .error (.ofError e)

/-- What stands at a path. -/
def kindAt (p : Path) : IO (Option EntryKind) := do
  if p.text = "" then return none
  let place := (← IO.currentDir) / p.text
  if ← place.isDir then return some .directory
  else if ← place.pathExists then return some (.file true)
  else return none

/-- The text of a file. -/
def textAt (p : Path) : Console (Except OsError String) := do
  match ← attempt (IO.FS.readBinFile ⟨p.text⟩) with
  | .error e => return .error e
  | .ok bytes =>
    match String.fromUTF8? bytes with
    | some text => return .ok text
    | none => return .error .notUtf8

/-- Writes something to the stream it belongs to. -/
def write (view : LogView) : Emission → IO Unit
  | .output text => IO.print text
  | .notice text => IO.eprint text
  | .log r => IO.eprint (view.text r)

end Console

instance : Host Console where
  environment name := IO.getEnv name
  currentDirectory := Console.attempt do return ⟨(← IO.currentDir).toString⟩
  entryKind? p := Console.kindAt p
  readText := Console.textAt
  createAll p := Console.attempt (IO.FS.createDirAll ⟨p.text⟩)
  removeTree p := Console.attempt (IO.FS.removeDirAll ⟨p.text⟩)
  run _ _ := return .error .unsupported
  emit e := fun view => Console.write view e
  milliseconds := IO.monoMsNow

end BuildVariants

open BuildVariants in
/-- Reads the command line and carries it out. -/
def main (words : List String) : IO UInt32 := do
  let plan? ← IO.getEnv CommandLine.planVariable
  let terminal ← (← IO.getStderr).isTty
  match CommandLine.parse words plan? with
  | .error stop => return (← (stop.report terminal : Console Nat).run .nothing).toUInt32
  | .ok order =>
    return (← (order.execute terminal : Console Nat).run (order.logView terminal)).toUInt32
