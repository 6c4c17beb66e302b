import BuildVariants.CommandLine.Completions
import BuildVariants.CommandLine.Help
import BuildVariants.CommandLine.Order
import BuildVariants.Plan.Render
import BuildVariants.TaskConfig

/-!
# Carrying out orders

What the program does about an order, on any host.  It ends with an exit code: that of the
executable that was run, 0 if all went well, 1 if something failed, 2 after a mistake on the
command line.
-/

namespace BuildVariants

/-! ## Listings -/

/-- The width of the column of names in a listing. -/
def nameWidth : Nat := 20

/-- The line of a variant in a listing. -/
def Registry.variantLine (r : Registry) (isFirst : Bool) (v : Variant) : String :=
  "    " ++ Text.padRight nameWidth v.name ++ " toolchain=" ++ v.resolved.request.toolchain
    ++ " config=" ++ v.resolved.request.config ++ " dir=" ++ (r.buildDir v).text
    ++ if isFirst then " (default)" else ""

/-- The line of a run target in a listing. -/
def Target.line (t : Target) : String :=
  "    " ++ Text.padRight nameWidth t.name ++ " build=" ++ t.build ++ " run=" ++ t.run.text
    ++ " cwd=" ++ t.cwd.text

/-- The lines of the variants; the first one is marked. -/
def Registry.variantLines (r : Registry) : List String :=
  match r.variants with
  | [] => []
  | v :: vs => r.variantLine true v :: vs.map (r.variantLine false)

/-- The variants and the run targets, line by line. -/
def Registry.listing (r : Registry) : List String :=
  "variants:" :: r.variantLines
    ++ if r.targets = [] then [] else "targets:" :: r.targets.map Target.line

/-! ## Reports -/

/-- A diagnostic as it is told to the user. -/
def Diagnostic.report (d : Diagnostic) : String :=
  d.message ++ "\n    Diagnostic severity: error\n"
    ++ (match d.help? with
      | some help => "diagnostic help: " ++ help ++ "\n"
      | none => "")
    ++ "diagnostic code: " ++ d.code ++ "\n\n"

/-- A failure as it is told to the user. -/
def Failure.report : Failure → String
  | diagnosed d => d.report
  | f => "error: " ++ f.message ++ "\n"

namespace CommandLine

variable {m : Type → Type} [Monad m] [Host m]

open Operation

/-! ## Actions -/

/-- Prints lines. -/
def printLines : List String → m Unit
  | [] => return ()
  | s :: ss => do
    Host.printLine s
    printLines ss

/-- Takes the result of something that may end in a diagnostic. -/
def diagnosed {α : Type} (x : ExceptT Diagnostic m α) : Operation m α := do
  ofExcept (← ask x.run)

/-- Prints the arguments of a variant. -/
def printArguments (r : Registry) (variant? : Option String) (json : Bool) :
    Operation m Unit := do
  let v ← ofExcept (r.variantOrDefault variant?)
  ask (Host.printLine (if json then v.resolved.record.pretty else v.resolved.line))

/-- Tells the user if there was nothing to remove. -/
def tellIfNothing (shell : Shell) (dryRun : Bool) (removed : List Path) : m Unit :=
  if removed = [] ∧ dryRun = false then Host.status shell .info "nothing to clean" else pure ()

/-- Does what is asked for, and gives the exit code. -/
def Action.perform (project : Project) (shell : Shell) : Action → Operation m Nat
  | list => do
    let r ← diagnosed (Host.loadRegistry project)
    ask (printLines r.listing)
    return 0
  | args variant? json => do
    let r ← diagnosed (Host.loadRegistry project)
    printArguments r variant? json
    return 0
  | plan .json => do
    let r ← diagnosed (Host.loadRegistry project)
    ask (Host.printLine r.taskConfig.text)
    return 0
  | plan .toml => do
    let plan ← diagnosed (Host.loadPlan project)
    ask (Host.emit (.output plan.text))
    return 0
  | configure variant? dryRun => do
    let r ← diagnosed (Host.loadRegistry project)
    let _ ← Task.configure ⟨project, r, shell, dryRun⟩ variant?
    return 0
  | build request dryRun => do
    let r ← diagnosed (Host.loadRegistry project)
    let dir ← Task.build ⟨project, r, shell, dryRun⟩ request
    ask (Host.debug ("build output in " ++ dir.text))
    return 0
  | run request dryRun => do
    let r ← diagnosed (Host.loadRegistry project)
    Task.run ⟨project, r, shell, dryRun⟩ request
  | buildRun request dryRun => do
    let r ← diagnosed (Host.loadRegistry project)
    Task.buildRun ⟨project, r, shell, dryRun⟩ request
  | clean request dryRun => do
    let r ← diagnosed (Host.loadRegistry project)
    let removed ← Task.clean ⟨project, r, shell, dryRun⟩ request
    ask (tellIfNothing shell dryRun removed)
    return 0
  | completions s => do
    ask (Host.emit (.output s.script))
    return 0

/-! ## Orders -/

namespace Order

/-- How the user is told what goes on. -/
def shell (o : Order) (terminal : Bool) : Shell :=
  .ofFlags o.quiet o.verbose o.color terminal

/-- Which log records are shown: all of them if more is to be told, none if only errors are, and
otherwise the warnings. -/
def logView (o : Order) (terminal : Bool) : LogView where
  shows level := if o.verbose then true else if o.quiet then false else level = .warn
  useColor := (o.shell terminal).useColor

/-- The project that is meant. -/
def project (o : Order) : Operation m Project :=
  match o.planPath? with
  | some path => namedProject path
  | none => workingProject

/-- Carries out an order. -/
def perform (o : Order) (terminal : Bool) : Operation m Nat := do
  let project ← o.project
  o.action.perform project (o.shell terminal)

/-- Carries out an order and gives the exit code. -/
def execute (o : Order) (terminal : Bool) : m Nat := do
  match ← (o.perform terminal).run with
  | .ok code => return code
  | .error failure => do
    Host.emit (.notice failure.report)
    return 1

end Order

/-- Whether a variable of the environment is there and not empty. -/
def isGiven (name : String) : m Bool :=
  return (← Host.environment name).getD "" ≠ ""

/-- Whether a mistake is told in color.  The environment may forbid that or force it; otherwise
it is done on terminals that have color, unless it is switched off. -/
def tellsInColor (terminal : Bool) : m Bool := do
  if ← isGiven "NO_COLOR" then return false
  else if ← isGiven "CLICOLOR_FORCE" then return true
  else
    let switch? ← Host.environment "CLICOLOR"
    let kind? ← Host.environment "TERM"
    let automatic? ← Host.environment "CI"
    let able := kind?.any (· ≠ "dumb") || switch?.isSome || automatic?.isSome
    return terminal && switch? ≠ some "0" && able

/-- What is written where there is no order, and the exit code. -/
def Stop.report (terminal : Bool) : Stop → m Nat
  | mistake level what => do
    let useColor ← tellsInColor terminal
    Host.emit (.notice ((what.report level).render useColor))
    return 2
  | help topic => do
    Host.emit (.output topic.text)
    return 0
  | version => do
    Host.printLine (programName ++ " " ++ programVersion)
    return 0
  | nothingGiven => do
    Host.emit (.notice Level.program.help)
    return 2

end CommandLine

end BuildVariants
