import BuildVariants.Invocation
import BuildVariants.Project
import BuildVariants.Search

/-!
# Operations and their steps

An operation works on a project with a registry, talks to a shell, and is either done or only
displayed (a dry run).  It ends with a result or a `Failure`.

The `cmake` commands of an operation are its steps.  A dry run prints the command of a step; a
verbose shell shows the output of the process as it comes; any other shell keeps the output and
shows it only if the step fails.
-/

namespace BuildVariants

/-- What an operation works on. -/
structure Task where
  /-- The project. -/
  project : Project
  /-- Its variants and run targets. -/
  registry : Registry
  /-- How the user is told. -/
  shell : Shell
  /-- Whether commands are only displayed. -/
  dryRun : Bool

/-- An operation on a host. -/
abbrev Operation (m : Type → Type) (α : Type) : Type := ExceptT Failure m α

namespace Operation

variable {m : Type → Type} [Monad m] [Host m] {α : Type}

/-- Ends an operation with a diagnostic. -/
def diagnose (d : Diagnostic) : Operation m α :=
  throw (.diagnosed d)

/-- Takes a result, or ends an operation with the diagnostic that came instead. -/
def ofExcept : Except Diagnostic α → Operation m α
  | .ok x => pure x
  | .error d => diagnose d

/-- Asks the host. -/
def ask (x : m α) : Operation m α :=
  ExceptT.lift x

/-- The project that the working directory belongs to. -/
def workingProject : Operation m Project := do
  match ← ask Host.currentDirectory with
  | .ok here => ask (Host.projectAt here)
  | .error e => throw (.noWorkingDirectory e)

/-- The project of a named plan file. -/
def namedProject (planPath : Path) : Operation m Project := do
  match ← ask Host.currentDirectory with
  | .ok here => return .withPlan here planPath
  | .error e => throw (.refused e)

/-- Runs a command to its end. -/
def runCommand (c : Command) (w : Wiring) : Operation m Exit := do
  match w with
  | .kept => ask (Host.debug ("exec: " ++ c.display))
  | .shown => ask (Host.debug ("run: " ++ c.display))
  match ← ask (Host.run c w) with
  | .ok exit => return exit
  | .error e => throw (.execute c.program e)

end Operation

namespace Task

variable {m : Type → Type} [Monad m] [Host m]

open Operation

/-- The `cmake` of a task; a dry run does with the bare name. -/
def cmake (t : Task) : Operation m Path := do
  match ← ask Host.findCMake with
  | some path => return path
  | none => if t.dryRun then return ⟨"cmake"⟩ else diagnose .cmakeNotFound

/-- A step whose output is shown. -/
def shownStep (t : Task) (status : Status) (what : String) (c : Command) : Operation m Unit := do
  ask (Host.status t.shell status what)
  let exit ← runCommand c .shown
  if exit.ending.isSuccess then return ()
  else throw (.stepExit what exit.ending.code?)

/-- A step whose output is kept. -/
def keptStep (t : Task) (status : Status) (what : String) (c : Command) : Operation m Unit := do
  let started ← ask Host.milliseconds
  ask (Host.status t.shell status what)
  let exit ← runCommand c .kept
  if exit.ending.isSuccess then
    let finished ← ask Host.milliseconds
    ask (Host.status t.shell .finished (what ++ " in " ++ elapsedText (finished - started)))
  else throw (.stepOutput what exit.stdout exit.stderr)

/-- One step of an operation. -/
def step (t : Task) (status : Status) (what : String) (c : Command) : Operation m Unit :=
  if t.dryRun then ask (Host.printLine c.display)
  else if t.shell.isVerbose then t.shownStep status what c
  else t.keptStep status what c

/-- The build directory of a variant, seen from the project. -/
def buildDir (t : Task) (v : Variant) : Path :=
  t.project.path (t.registry.buildDir v)

/-- The `cmake` commands of a variant. -/
def invocation (t : Task) (v : Variant) : Operation m Invocation := do
  let cmake ← t.cmake
  return ⟨cmake, t.project.path t.registry.shared.sourceDir, t.buildDir v, v.resolved,
    t.registry.shared.env⟩

end Task

end BuildVariants
