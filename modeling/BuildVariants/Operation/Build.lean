import BuildVariants.Operation.Step

/-!
# Configuring and building

Configuring a variant needs a CMake project in the source directory and makes the build directory.
Building a variant configures it first if the build directory has not been configured, or if that
is asked for.
-/

namespace BuildVariants

/-- What is asked of a build. -/
structure BuildRequest where
  /-- The variant, unless it is the first one. -/
  variant? : Option String
  /-- The build target, unless it is everything. -/
  target? : Option String
  /-- The number of parallel jobs; zero leaves it to the build tool. -/
  jobs? : Option Nat
  /-- Whether to configure in any case. -/
  reconfigure : Bool
  deriving DecidableEq, Repr

namespace Host

variable {m : Type → Type} [Monad m] [Host m]

/-- Whether a directory holds a CMake project. -/
def isCMakeProject (directory : Path) : m Bool :=
  pathExists (directory.child "CMakeLists.txt")

/-- Whether a build directory has been configured. -/
def isConfigured (directory : Path) : m Bool :=
  isFile (directory.child "CMakeCache.txt")

/-- Makes a directory unless something stands at its place. -/
def ensureDirectory (path : Path) : Operation m Unit := do
  if ← Operation.ask (pathExists path) then return ()
  match ← Operation.ask (createAll path) with
  | .ok () => return ()
  | .error e => throw (.createDirectory path e)

end Host

namespace Task

variable {m : Type → Type} [Monad m] [Host m]

open Operation

/-- Makes sure that the source directory is a project and that the build directory is there. -/
def prepare (i : Invocation) : Operation m Unit := do
  if ← ask (Host.isCMakeProject i.sourceDir) then Host.ensureDirectory i.buildDir
  else diagnose (.notCMakeProject i.sourceDir)

/-- Configures the build directory of a variant. -/
def configureVariant (t : Task) (i : Invocation) (v : Variant) : Operation m Unit := do
  let command ← ofExcept i.configure
  if t.dryRun then pure () else prepare i
  t.step .configuring (v.name ++ " (" ++ i.buildDir.text ++ ")") command

/-- Configures a variant and gives its build directory. -/
def configure (t : Task) (variant? : Option String) : Operation m Path := do
  let v ← ofExcept (t.registry.variantOrDefault variant?)
  let i ← t.invocation v
  t.configureVariant i v
  return i.buildDir

/-- What a build calls itself. -/
def buildName (target? : Option String) (v : Variant) : String :=
  match target? with
  | some target => target ++ " (" ++ v.name ++ ")"
  | none => v.name

/-- Configures a variant if that is needed or asked for. -/
def configureIfNeeded (t : Task) (reconfigure : Bool) (i : Invocation) (v : Variant) :
    Operation m Unit := do
  if reconfigure then t.configureVariant i v
  else if ← ask (Host.isConfigured i.buildDir) then
    ask (Host.debug (i.buildDir.text ++ " already configured"))
  else t.configureVariant i v

/-- Builds a variant and gives its build directory. -/
def build (t : Task) (r : BuildRequest) : Operation m Path := do
  let v ← ofExcept (t.registry.variantOrDefault r.variant?)
  let i ← t.invocation v
  t.configureIfNeeded r.reconfigure i v
  t.step .building (buildName r.target? v) (i.build r.target? r.jobs?)
  return i.buildDir

end Task

end BuildVariants
