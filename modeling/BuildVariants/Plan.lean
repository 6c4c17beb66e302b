import BuildVariants.Registry

/-!
# Plans

A plan is what a project declares: options for all variants, the variants, and the run targets.
Everything that may be left out is kept as left out, so that a plan can be written down again as
it was read; the defaults come in when a registry is made of it (`Plan.shared`, `Plan.declared`,
`Plan.runTargets`).

A plan is valid when it declares at least one variant and no two of the same key.  `builtin` is
the plan of a project that has none, with every default spelled out.
-/

namespace BuildVariants

/-- The name of a plan file. -/
def planFileName : String := "Variants.toml"

/-- Options for all variants. -/
structure PlanOptions where
  /-- The source directory. -/
  sourceDir? : Option Path
  /-- The directory that holds the build directories. -/
  buildRoot? : Option Path
  /-- The environment of every process; an empty one is not the same as none. -/
  env? : Option Variables
  deriving DecidableEq

/-- A declared variant. -/
structure VariantDecl where
  /-- The key, unless it is made of the toolchain and the configuration. -/
  name? : Option String
  /-- The toolchain. -/
  toolchain : String
  /-- The configuration. -/
  config : String
  /-- What is said to `cmake` besides. -/
  options : Option ArgumentText
  deriving DecidableEq

/-- A declared run target. -/
structure TargetDecl where
  /-- The build target, unless it has the name of the run target. -/
  build? : Option String
  /-- The executable, unless it has the name of the run target. -/
  run? : Option Path
  /-- The arguments of the executable. -/
  args : ArgumentText
  /-- The working directory, unless it is the build directory. -/
  cwd? : Option Path
  deriving DecidableEq

/-- What a project declares. -/
structure Plan where
  /-- Options for all variants. -/
  options : PlanOptions
  /-- The variants in order. -/
  variants : List VariantDecl
  /-- The run targets under their names, in order. -/
  targets : Keyed TargetDecl
  deriving DecidableEq

/-! ## Keys and validity -/

/-- The request of a declared variant. -/
def VariantDecl.request (d : VariantDecl) : Request :=
  ⟨d.toolchain, d.config, d.options⟩

/-- The key of a declared variant. -/
def VariantDecl.key (d : VariantDecl) : String :=
  d.name?.getD d.request.name

/-- The first text of a list that stands in it a second time, or among those `seen` before. -/
def firstRepeated (seen : List String) : List String → Option String
  | [] => none
  | k :: ks => if k ∈ seen then some k else firstRepeated (k :: seen) ks

/-- Texts of which none is repeated are distinct, also from those seen before. -/
theorem nodup_of_firstRepeated_eq_none {seen ks : List String}
    (h : firstRepeated seen ks = none) : ks.Nodup ∧ ∀ k ∈ ks, k ∉ seen := by
  induction ks generalizing seen with
  | nil => exact ⟨.nil, fun _ mem => absurd mem List.not_mem_nil⟩
  | cons k ks ih =>
    rw [firstRepeated] at h
    split at h
    · cases h
    · next new =>
      obtain ⟨distinct, fresh⟩ := ih h
      refine ⟨List.nodup_cons.2 ⟨fun mem => fresh k mem List.mem_cons_self, distinct⟩, ?_⟩
      intro x mem
      rcases List.mem_cons.1 mem with rfl | mem
      · exact new
      · exact fun old => fresh x mem (List.mem_cons_of_mem _ old)

namespace Plan

/-- Refuses a plan without variants, and one with two variants of the same key. -/
def validate (p : Plan) : Except Diagnostic Unit :=
  if p.variants = [] then .error .noVariants
  else match firstRepeated [] (p.variants.map VariantDecl.key) with
    | some key => .error (.duplicateVariant key)
    | none => .ok ()

/-- The keys of a valid plan are distinct. -/
theorem nodup_keys_of_validate {p : Plan} (valid : p.validate = .ok ()) :
    (p.variants.map VariantDecl.key).Nodup := by
  unfold validate at valid
  split at valid
  · cases valid
  · split at valid
    · cases valid
    · next distinct => exact (nodup_of_firstRepeated_eq_none distinct).1

/-! ## From a plan to a registry -/

/-- The source directory of a plan. -/
def sourceDir (p : Plan) : Path :=
  p.options.sourceDir?.getD defaultSourceDir

/-- The directory that holds the build directories of a plan. -/
def buildRoot (p : Plan) : Path :=
  p.options.buildRoot?.getD defaultBuildRoot

/-- The environment of a plan. -/
def env (p : Plan) : Variables :=
  p.options.env?.getD defaultEnv

/-- What all variants of a plan share. -/
def shared (p : Plan) : Shared :=
  ⟨p.sourceDir, byConfig p.buildRoot, p.env⟩

/-- The variants of a plan under their keys. -/
def declared (p : Plan) : List (String × Request) :=
  p.variants.map fun d => (d.key, d.request)

end Plan

/-- The run target that is declared under a name. -/
def TargetDecl.target (d : TargetDecl) (name : String) : Target :=
  { name
    build := d.build?.getD (Target.ofName name).build
    run := d.run?.getD (Target.ofName name).run
    args := d.args
    cwd := d.cwd?.getD (Target.ofName name).cwd }

namespace Plan

/-- The run targets of a plan. -/
def runTargets (p : Plan) : List Target :=
  p.targets.entries.map fun e => e.2.target e.1

/-- The registry of a plan. -/
def registry (p : Plan) (override? : Option Path) : Registry :=
  .construct override? p.shared p.declared p.runTargets

/-- The variants of a valid plan are resolved one by one. -/
theorem variants_registry {p : Plan} (valid : p.validate = .ok ()) (override? : Option Path) :
    (p.registry override?).variants
      = p.variants.map fun d => ⟨d.key, ⟨d.request, override?⟩⟩ := by
  have keys : ((p.declared.map fun d => (d.1, Resolved.mk d.2 override?)).map Prod.fst).Nodup := by
    simpa [declared, Function.comp_def] using nodup_keys_of_validate valid
  unfold registry Registry.construct Registry.variants
  rw [Keyed.entries_ofList keys]
  simp [declared, Function.comp_def]

/-- What the log says while the registry of a plan is made. -/
def registryLog (p : Plan) (override? : Option Path) : List LogRecord :=
  Registry.constructionLog override? p.declared

/-! ## The plan of a project without one -/

/-- The plan of a project that has none. -/
def builtin : Plan where
  options := ⟨some defaultSourceDir, some defaultBuildRoot, some defaultEnv⟩
  variants := defaultVariants.map fun v =>
    ⟨none, v.2.toolchain, v.2.config, v.2.options⟩
  targets := .ofList <| defaultTargets.map fun t =>
    (t.name, ⟨some t.build, some t.run, t.args, some t.cwd⟩)

end Plan

end BuildVariants
