import BuildVariants.Operation.Build

/-!
# Running targets

Running a target starts its executable in its working directory and gives the executable's exit
code; an executable that a signal ends counts as exit code 1.  It can be built first.
-/

namespace BuildVariants

/-- What is asked of a run. -/
structure RunRequest where
  /-- The run target. -/
  target : String
  /-- The variant, unless it is the first one. -/
  variant? : Option String
  /-- Arguments behind those of the target. -/
  extraArgs : List String
  /-- The number of parallel jobs when building. -/
  jobs? : Option Nat
  deriving DecidableEq, Repr

namespace Task

variable {m : Type → Type} [Monad m] [Host m]

open Operation

/-- The process that runs a target for a variant. -/
def targetCommand (t : Task) (target : Target) (v : Variant) (extraArgs : List String) :
    Except Diagnostic Command :=
  let workDir := (t.buildDir v).join target.cwd
  match target.args.expand with
  | .error e => .error e
  | .ok args =>
    .ok <| ((((Command.ofProgram (workDir.join target.run)).addArgs args).addArgs extraArgs).addEnv
      t.registry.shared.env.entries).inDirectory workDir

/-- The process that a run starts. -/
def runCommand (t : Task) (r : RunRequest) : Except Diagnostic Command :=
  match t.registry.target r.target with
  | .error e => .error e
  | .ok target =>
    match t.registry.variantOrDefault r.variant? with
    | .error e => .error e
    | .ok v => t.targetCommand target v r.extraArgs

/-- Displays a command with the directory it would be started in. -/
def displayCommand (c : Command) : Operation m Unit := do
  match c.cwd? with
  | some cwd => ask (Host.printLine ("cd " ++ cwd.text))
  | none => pure ()
  ask (Host.printLine c.display)

/-- Runs a target and gives its exit code. -/
def run (t : Task) (r : RunRequest) : Operation m Nat := do
  let command ← ofExcept (t.runCommand r)
  if t.dryRun then
    displayCommand command
    return 0
  else if ← ask (Host.isFile command.program) then
    ask (Host.status t.shell .running command.display)
    let exit ← Operation.runCommand command .shown
    return exit.ending.code?.getD 1
  else throw (.missingExecutable command.program r.target)

/-- What a run asks of the build in front of it. -/
def RunRequest.buildRequest (r : RunRequest) (target : Target) : BuildRequest :=
  ⟨r.variant?, some target.build, r.jobs?, false⟩

/-- Builds a target, runs it, and gives its exit code. -/
def buildRun (t : Task) (r : RunRequest) : Operation m Nat := do
  let target ← ofExcept (t.registry.target r.target)
  let _ ← t.build (RunRequest.buildRequest r target)
  t.run r

end Task

end BuildVariants
