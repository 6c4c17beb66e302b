import BuildVariants.CommandLine.Reading
import BuildVariants.Operation.Clean
import BuildVariants.Operation.Run

/-!
# Orders

What a command line asks for, once it has been read.  The parameters that every level admits count
wherever they are given, and the command's level wins over the program's; the path of the plan
file may come from the environment, where it counts least.
-/

namespace BuildVariants

namespace CommandLine

/-- What is to be done. -/
inductive Action
  | list
  | args (variant? : Option String) (json : Bool)
  | plan (format : PlanFormat)
  | configure (variant? : Option String) (dryRun : Bool)
  | build (request : BuildRequest) (dryRun : Bool)
  | run (request : RunRequest) (dryRun : Bool)
  | buildRun (request : RunRequest) (dryRun : Bool)
  | clean (request : CleanRequest) (dryRun : Bool)
  | completions (shell : CompletionShell)
  deriving DecidableEq, Repr

/-- What a command line asks for. -/
structure Order where
  /-- Whether to tell more. -/
  verbose : Bool
  /-- Whether to tell only of errors. -/
  quiet : Bool
  /-- Whether to use color. -/
  color : ColorChoice
  /-- The plan file, if it is named. -/
  planPath? : Option Path
  /-- What is to be done. -/
  action : Action
  deriving DecidableEq, Repr

/-- What a command's level asks for in a run. -/
def Reading.runRequest (r : Reading) : RunRequest where
  target := (r.value? .runTarget).getD ""
  variant? := r.value? .inVariant
  extraArgs := r.values .extraArgs
  jobs? := r.value? .jobs

/-- What a command's level asks for. -/
def Reading.action (r : Reading) : Verb → Action
  | .list => .list
  | .args => .args (r.value? .variant) (r.has .json)
  | .plan => .plan ((r.value? .format).getD .json)
  | .configure => .configure (r.value? .variant) (r.has .dryRun)
  | .build =>
    .build ⟨r.value? .variant, r.value? .target, r.value? .jobs, r.has .reconfigure⟩
      (r.has .dryRun)
  | .run => .run r.runRequest (r.has .dryRun)
  | .buildRun => .buildRun r.runRequest (r.has .dryRun)
  | .clean => .clean ⟨r.value? .variant, r.has .all⟩ (r.has .dryRun)
  | .completions => .completions ((r.value? .shell).getD .bash)

namespace Levels

/-- Whether a switch is given at either level. -/
def has (l : Levels) (p : Parameter) : Bool :=
  l.command.has p || l.program.has p

/-- The value of a parameter; the command's level wins. -/
def value? (l : Levels) (p : Parameter) : Option p.Value :=
  (l.command.value? p).or (l.program.value? p)

/-- What both levels ask for together. -/
def order (l : Levels) (plan? : Option String) : Order where
  verbose := l.has .verbose
  quiet := l.has .quiet
  color := (l.value? .color).getD .auto
  planPath? := (l.value? .manifestPath).or (plan?.map Path.mk)
  action := l.command.action l.verb

end Levels

/-- Reads a command line: the words behind the name of the program, and the path of the plan file
from the environment. -/
def parse (words : List String) (plan? : Option String) : Except Stop Order :=
  match readLevels plan? (.start .program) words with
  | .error e => .error e
  | .ok levels => .ok (levels.order plan?)

/-- The variable that may name the plan file. -/
def planVariable : String := "VARIA_PLAN"

end CommandLine

end BuildVariants
