import BuildVariants.Proofs.Plan.RoundTrip
import BuildVariants.TaskConfig

/-!
# What a plan declares is registered

A registry finds each of its variants under the variant's name, because no name stands in it twice;
a run target it finds if no earlier one has the same name.  The keys of a valid plan are distinct,
and so are the names of its run targets.  Therefore a declaration is lost neither on the way into
the registry nor on the way from there into the task configuration, and both keep the order of the
plan (`Plan.registered_of_parse`).
-/

namespace BuildVariants

/-! ## What a registry finds -/

namespace Registry

variable {r : Registry}

/-- The names of the variants are distinct, however they were declared. -/
theorem nodup_names_variants (r : Registry) : (r.variants.map Variant.name).Nodup := by
  have names : r.variants.map Variant.name = r.resolved.entries.map Prod.fst := by
    unfold variants
    rw [List.map_map]
    rfl
  rw [names]
  exact r.resolved.nodup

/-- Every variant is found under its name. -/
theorem variant_of_mem {v : Variant} (mem : v ∈ r.variants) : r.variant v.name = .ok v := by
  obtain ⟨e, he, rfl⟩ := List.mem_map.1 mem
  show r.variant e.1 = .ok ⟨e.1, e.2⟩
  unfold variant
  rw [Keyed.lookup?_of_mem he]

/-- A run target is found under its name if the names are distinct. -/
theorem target_of_mem (distinct : (r.targets.map Target.name).Nodup) {t : Target}
    (mem : t ∈ r.targets) : r.target t.name = .ok t := by
  obtain ⟨before, after, split⟩ := List.append_of_mem mem
  have first : r.targets.find? (·.name = t.name) = some t := by
    rw [List.find?_eq_some_iff_append]
    refine ⟨decide_eq_true rfl, before, after, split, ?_⟩
    intro u hu
    rw [split, List.map_append, List.nodup_append] at distinct
    have ne : u.name ≠ t.name :=
      distinct.2.2 _ (List.mem_map_of_mem hu) _ List.mem_cons_self
    rw [decide_eq_false ne]
    rfl
  unfold target
  rw [first]

/-- The task configuration has one entry for each variant, in order. -/
theorem entries_configs (r : Registry) :
    r.taskConfig.configs.entries = r.variants.map fun v => (v.name, r.variantTask v) := by
  refine Keyed.entries_ofList ?_
  rw [List.map_map]
  exact r.nodup_names_variants

/-- It has one entry for each run target, in order, if their names are distinct. -/
theorem entries_runs (distinct : (r.targets.map Target.name).Nodup) :
    r.taskConfig.runs.entries = r.targets.map fun t => (t.name, t.task) := by
  refine Keyed.entries_ofList ?_
  rw [List.map_map]
  exact distinct

/-- What a task configuration says under a name is said of the variant or of the run target that the
registry finds under that name. -/
structure DescribedBy (r : Registry) (c : TaskConfig) : Prop where
  /-- A variant is described by its argument line and its build directory. -/
  configs : ∀ e ∈ c.configs.entries, ∃ v, r.variant e.1 = .ok v ∧
    e.2 = ⟨v.resolved.line, (r.buildDir v).text⟩
  /-- A run target is described by what it builds and runs, with which arguments and where. -/
  runs : ∀ e ∈ c.runs.entries, ∃ t, r.target e.1 = .ok t ∧
    e.2 = ⟨t.build, t.run.text, t.args, t.cwd.text⟩

/-- The task configuration describes the registry, if no two of its targets have the same name. -/
theorem describedBy_taskConfig (distinct : (r.targets.map Target.name).Nodup) :
    r.DescribedBy r.taskConfig := by
  constructor
  · intro e he
    rw [entries_configs] at he
    obtain ⟨v, hv, rfl⟩ := List.mem_map.1 he
    exact ⟨v, variant_of_mem hv, rfl⟩
  · intro e he
    rw [entries_runs distinct] at he
    obtain ⟨t, ht, rfl⟩ := List.mem_map.1 he
    exact ⟨t, target_of_mem distinct ht, rfl⟩

end Registry

/-! ## Plans -/

/-- The variant that is registered for a declaration. -/
def VariantDecl.variant (d : VariantDecl) (override? : Option Path) : Variant :=
  ⟨d.key, ⟨⟨d.toolchain, d.config, d.options⟩, override?⟩⟩

namespace Plan

/-- A registry has what a plan declares, and finds it. -/
structure RegisteredIn (p : Plan) (override? : Option Path) (r : Registry) : Prop where
  /-- There is one variant for each declaration, in the order of the plan. -/
  variants : r.variants = p.variants.map (·.variant override?)
  /-- The variant of a declaration is found under its key. -/
  variant : ∀ d ∈ p.variants, r.variant d.key = .ok (d.variant override?)
  /-- The first declaration is the default; there always is one. -/
  default : ∃ d rest, p.variants = d :: rest ∧ r.defaultVariant = .ok (d.variant override?)
  /-- A run target is found under its key, with what it leaves out taken from its name. -/
  target : ∀ e ∈ p.targets.entries, r.target e.1 = .ok
    { name := e.1
      build := e.2.build?.getD e.1
      run := e.2.run?.getD ⟨"./" ++ e.1⟩
      args := e.2.args
      cwd := e.2.cwd?.getD ⟨"."⟩ }

theorem variants_ne_nil_of_validate {p : Plan} (valid : p.validate = .ok ()) :
    p.variants ≠ [] := by
  intro none
  unfold validate at valid
  rw [if_pos none] at valid
  cases valid

/-- The names of the run targets of a plan are distinct. -/
theorem nodup_names_runTargets (p : Plan) : (p.runTargets.map Target.name).Nodup := by
  have names : p.runTargets.map Target.name = p.targets.entries.map Prod.fst := by
    unfold runTargets
    rw [List.map_map]
    rfl
  rw [names]
  exact p.targets.nodup

/-- The registry of a valid plan registers it, whichever override is in force. -/
theorem registeredIn_registry {p : Plan} (valid : p.validate = .ok ()) (override? : Option Path) :
    p.RegisteredIn override? (p.registry override?) := by
  have all : (p.registry override?).variants = p.variants.map (·.variant override?) :=
    variants_registry valid override?
  refine ⟨all, ?_, ?_, ?_⟩
  · intro d hd
    have mem : d.variant override? ∈ (p.registry override?).variants := by
      rw [all]
      exact List.mem_map_of_mem hd
    exact Registry.variant_of_mem mem
  · obtain ⟨d, rest, split⟩ := List.exists_cons_of_ne_nil (variants_ne_nil_of_validate valid)
    refine ⟨d, rest, split, ?_⟩
    unfold Registry.defaultVariant
    rw [all, split, List.map_cons]
  · intro e he
    have mem : e.2.target e.1 ∈ (p.registry override?).targets := List.mem_map_of_mem he
    exact Registry.target_of_mem p.nodup_names_runTargets mem

/-- **A plan that was parsed is registered without loss.**  Whatever is known about the user, every
declaration has its variant and every run target its place, in the order of the plan; both are found
under their keys, and the task configuration says under each key what is found there. -/
theorem registered_of_parse {text : String} {path : Path} {p : Plan}
    (accepted : parse text path = .ok p) (probe : Probe) :
    let r := p.registry probe.override?
    p.RegisteredIn probe.override? r ∧
    r.taskConfig.configs.keys = p.variants.map VariantDecl.key ∧
    r.taskConfig.runs.keys = p.targets.keys ∧
    r.DescribedBy r.taskConfig := by
  intro r
  have registered := registeredIn_registry (validate_of_parse accepted) probe.override?
  refine ⟨registered, ?_, ?_, Registry.describedBy_taskConfig p.nodup_names_runTargets⟩
  · unfold Keyed.keys
    rw [Registry.entries_configs, registered.variants, List.map_map, List.map_map]
    rfl
  · unfold Keyed.keys
    rw [Registry.entries_runs p.nodup_names_runTargets, List.map_map]
    show (p.targets.entries.map fun e => e.2.target e.1).map _ = _
    rw [List.map_map]
    rfl

end Plan

/-! ## A plan with declarations of several kinds -/

namespace SeveralDeclarations

/-- Two variants of one configuration, one of them under a name of its own, and two run targets of
which one leaves everything out. -/
def plan : Plan where
  options := ⟨none, some ⟨"out"⟩, none⟩
  variants := [⟨some "checked", "clang", "Debug", some (.list ["-DCHECKS=ON"])⟩,
    ⟨none, "clang", "Debug", none⟩]
  targets := .ofList [("tool", ⟨none, none, .list [], none⟩),
    ("tests", ⟨some "unit", some ⟨"./unit"⟩, .line "--all", some ⟨"bin"⟩⟩)]

/-- A user with package overrides. -/
def probe : Probe :=
  ⟨some ⟨"/home/dev"⟩, fun _ => true⟩

end SeveralDeclarations

open SeveralDeclarations in
/-- The theorem for that plan: its second variant and its first run target are found. -/
theorem several_declarations_registered :
    Plan.parse plan.text ⟨planFileName⟩ = .ok plan ∧
    (plan.registry probe.override?).variant "clang-Debug"
      = .ok ⟨"clang-Debug", ⟨⟨"clang", "Debug", none⟩, probe.override?⟩⟩ ∧
    (plan.registry probe.override?).target "tool"
      = .ok ⟨"tool", "tool", ⟨"./tool"⟩, .list [], ⟨"."⟩⟩ ∧
    (plan.registry probe.override?).taskConfig.runs.keys = ["tool", "tests"] := by
  have accepted : Plan.parse plan.text ⟨planFileName⟩ = .ok plan := Plan.parse_text_of_valid rfl _
  obtain ⟨registered, -, runs, -⟩ := Plan.registered_of_parse accepted probe
  have second : (⟨none, "clang", "Debug", none⟩ : VariantDecl) ∈ plan.variants :=
    List.mem_cons_of_mem _ List.mem_cons_self
  have tool : ("tool", ⟨none, none, .list [], none⟩) ∈ plan.targets.entries := List.mem_cons_self
  exact ⟨accepted, registered.variant _ second, registered.target _ tool, runs⟩

end BuildVariants
