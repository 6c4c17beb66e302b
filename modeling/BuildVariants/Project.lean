import BuildVariants.Host
import BuildVariants.Plan.Decode

/-!
# Projects

A project is where a plan is, or could be: the plan file, and the project's root, which is the
directory that holds it.  Unless a plan file is named, it is looked for in the working directory
and in the directories above it; the nearest one counts, and if there is none the working
directory is the root of a project with the built-in plan.

A plan file that was named has to be there; one that was looked for need not.
-/

namespace BuildVariants

/-- Where the plan of a project is. -/
structure Project where
  /-- The working directory. -/
  cwd : Path
  /-- The directory that paths in the plan are seen from. -/
  root : Path
  /-- The plan file. -/
  planPath : Path
  /-- Whether the plan file was named. -/
  named : Bool
  deriving DecidableEq, Repr

namespace Project

/-- The project of a plan file. -/
def ofPlanPath (cwd planPath : Path) (named : Bool) : Project :=
  ⟨cwd, planPath.parent?.getD cwd, planPath, named⟩

/-- The project whose plan file is named; a relative name is seen from the working directory. -/
def withPlan (cwd planPath : Path) : Project :=
  ofPlanPath cwd (if planPath.isAbsolute then planPath else cwd.join planPath) true

/-- A path of the plan, seen from the project's root. -/
def path (p : Project) (q : Path) : Path :=
  if q.isAbsolute then q else p.root.join q

end Project

namespace Host

variable {m : Type → Type} [Monad m] [Host m]

/-- The first file among some paths. -/
def firstFile : List Path → m (Option Path)
  | [] => return none
  | p :: ps => do
    if ← isFile p then return some p else firstFile ps

/-- The nearest plan file, from a directory upwards. -/
def findPlan (start : Path) : m (Option Path) :=
  firstFile (start.ancestors.map (·.child planFileName))

/-- The project a directory belongs to. -/
def projectAt (cwd : Path) : m Project := do
  let found ← findPlan cwd
  return .ofPlanPath cwd (found.getD (cwd.child planFileName)) false

/-- The plan in a file. -/
def loadPlanFile (path : Path) : ExceptT Diagnostic m Plan := do
  match ← (readText path : m _) with
  | .error e => throw (.unreadablePlan path e)
  | .ok text =>
    match Plan.parse text path with
    | .error e => throw e
    | .ok plan => return plan

/-- The plan of a project. -/
def loadPlan (p : Project) : ExceptT Diagnostic m Plan := do
  if p.named then loadPlanFile p.planPath
  else if ← (pathExists p.planPath : m _) then
    (debug ("loading plan from " ++ p.planPath.text) : m Unit)
    loadPlanFile p.planPath
  else
    (debug ("no " ++ planFileName ++ " found, using built-in plan") : m Unit)
    return .builtin

/-- The user's package overrides, if there are any. -/
def findOverride : m (Option Path) := do
  match ← home? with
  | none => return none
  | some home =>
    let file := overrideFile home
    return if ← pathExists file then some file else none

/-- Writes log records. -/
def logAll : List LogRecord → m Unit
  | [] => return ()
  | r :: rs => do
    emit (.log r)
    logAll rs

/-- The registry of a project. -/
def loadRegistry (p : Project) : ExceptT Diagnostic m Registry := do
  let plan ← loadPlan p
  let override? ← (findOverride : m _)
  (logAll (plan.registryLog override?) : m Unit)
  return plan.registry override?

end Host

end BuildVariants
