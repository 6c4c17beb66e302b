import BuildVariants.Registry

/-!
# The task configuration

What a task runner is told about a registry: the arguments and the build directory of each
variant, and how to build and run each target.  Both tables keep the order of the registry.
-/

namespace BuildVariants

/-- What a task runner is told about a variant. -/
structure VariantTask where
  /-- The arguments of `cmake`, on one line. -/
  args : String
  /-- The build directory. -/
  buildDir : String
  deriving DecidableEq, Repr

/-- What a task runner is told about a run target. -/
structure RunTask where
  /-- The build target. -/
  build : String
  /-- The executable. -/
  run : String
  /-- The arguments of the executable. -/
  args : ArgumentText
  /-- The working directory. -/
  cwd : String
  deriving DecidableEq, Repr

/-- What a task runner is told about a registry. -/
structure TaskConfig where
  /-- The source directory. -/
  sourceDir : String
  /-- The environment of every process. -/
  env : Variables
  /-- The variants. -/
  configs : Keyed VariantTask
  /-- The run targets. -/
  runs : Keyed RunTask

/-- The entry of a variant. -/
def Registry.variantTask (r : Registry) (v : Variant) : VariantTask :=
  ⟨v.resolved.line, (r.buildDir v).text⟩

/-- The entry of a run target. -/
def Target.task (t : Target) : RunTask :=
  ⟨t.build, t.run.text, t.args, t.cwd.text⟩

/-- The task configuration of a registry.  Of several targets of one name the last one counts, in
the place of the first. -/
def Registry.taskConfig (r : Registry) : TaskConfig where
  sourceDir := r.shared.sourceDir.text
  env := r.shared.env
  configs := .ofList (r.variants.map fun v => (v.name, r.variantTask v))
  runs := .ofList (r.targets.map fun t => (t.name, t.task))

/-- Arguments as JSON. -/
def ArgumentText.toJson : ArgumentText → Json
  | line text => .string text
  | list items => .array (items.map .string)

/-- Variables as JSON. -/
def Variables.toJson (vars : Variables) : Json :=
  .object (vars.entries.map fun e => (e.1, .string e.2))

/-- The entry of a variant as JSON. -/
def VariantTask.toJson (t : VariantTask) : Json :=
  .object [("options", .object [("args", .string t.args), ("buildDir", .string t.buildDir)])]

/-- The entry of a run target as JSON. -/
def RunTask.toJson (t : RunTask) : Json :=
  .object [("build", .string t.build), ("run", .string t.run), ("args", t.args.toJson),
    ("cwd", .string t.cwd)]

/-- A task configuration as JSON. -/
def TaskConfig.toJson (c : TaskConfig) : Json :=
  .object [
    ("cmake_config", .object [
      ("options", .object [("srcDir", .string c.sourceDir), ("env", c.env.toJson)]),
      ("configs", .object (c.configs.entries.map fun e => (e.1, e.2.toJson)))]),
    ("cmake_run", .object (c.runs.entries.map fun e => (e.1, e.2.toJson)))]

/-- The text of a task configuration. -/
def TaskConfig.text (c : TaskConfig) : String :=
  c.toJson.pretty

end BuildVariants
