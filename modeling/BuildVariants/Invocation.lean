import BuildVariants.Command
import BuildVariants.Variant

/-!
# Invocations of CMake

The two commands that bring a variant from its source directory to its build directory.
-/

namespace BuildVariants

/-- What the `cmake` commands of a variant are made of. -/
structure Invocation where
  /-- The `cmake` to call. -/
  cmake : Path
  /-- The source directory. -/
  sourceDir : Path
  /-- The build directory. -/
  buildDir : Path
  /-- The arguments of the variant. -/
  resolved : Resolved
  /-- The environment of the process. -/
  env : Variables

namespace Invocation

/-- The command that configures the build directory. -/
def configure (i : Invocation) : Except Diagnostic Command :=
  match i.resolved.words with
  | .error e => .error e
  | .ok words =>
    .ok <| ((Command.ofProgram i.cmake).addArgs
      (["-S", i.sourceDir.text, "-B", i.buildDir.text] ++ words)).addEnv i.env.entries

/-- The arguments that select a build target. -/
def targetArgs : Option String → List String
  | none => []
  | some target => ["--target", target]

/-- The arguments that ask for parallel jobs; zero leaves their number to the build tool. -/
def jobsArgs : Option Nat → List String
  | none => []
  | some 0 => ["--parallel"]
  | some n => ["--parallel", toString n]

/-- The command that builds in the build directory. -/
def build (i : Invocation) (target : Option String) (jobs : Option Nat) : Command :=
  ((Command.ofProgram i.cmake).addArgs
    (["--build", i.buildDir.text] ++ targetArgs target ++ jobsArgs jobs)).addEnv i.env.entries

end Invocation

end BuildVariants
