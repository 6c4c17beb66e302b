import BuildVariants.Proofs.Operation.DryRun
import BuildVariants.Proofs.Path.Joining
import BuildVariants.Proofs.Plan.RoundTrip
import BuildVariants.Proofs.Simulation.Triple

/-!
# Where a cleaning reaches

The directory that a cleaning removes comes from two joins: the build root with the configuration,
and the project's root with the result.  The configuration is a text that nobody has checked, so
where the directory lies depends on it: its names are added to the build root, it leaves the build
root by a `..`, it stays there if it has no name at all, and an absolute one stands alone.
-/

namespace BuildVariants

/-- A path goes on where another one ends, by at least one component, and never up. -/
def Path.StrictlyBelow (p root : Path) : Prop :=
  ∃ more, more ≠ [] ∧ .up ∉ more ∧ p.components = root.components ++ more

/-! ## Projects of an absolute working directory -/

namespace Project

/-- A project that is found from a working directory: its plan file is named, or is looked for. -/
def OpenedFrom (p : Project) (cwd : Path) : Prop :=
  (∃ planPath, p = withPlan cwd planPath) ∨
    ∃ s w, p = ((Host.projectAt cwd : Simulation Project) s w).1

/-- The root is absolute if the plan is named by an absolute path or from an absolute directory. -/
theorem isAbsolute_root_ofPlanPath {cwd planPath : Path} (named : Bool)
    (hc : cwd.isAbsolute = true) (hp : planPath.isAbsolute = true) :
    (ofPlanPath cwd planPath named).root.isAbsolute = true := by
  show (planPath.parent?.getD cwd).isAbsolute = true
  cases above : planPath.parent? with
  | none => exact hc
  | some q => exact Path.isAbsolute_parent? above hp

/-- The root of a project is absolute if the working directory is. -/
theorem OpenedFrom.isAbsolute_root {p : Project} {cwd : Path} (h : p.OpenedFrom cwd)
    (absolute : cwd.isAbsolute = true) : p.root.isAbsolute = true := by
  rcases h with ⟨planPath, rfl⟩ | ⟨s, w, rfl⟩
  · refine isAbsolute_root_ofPlanPath true absolute ?_
    split
    · next named => exact named
    · rw [Path.isAbsolute_join, absolute, Bool.true_or]
  · refine isAbsolute_root_ofPlanPath false absolute ?_
    have child (q : Path) (hq : q.isAbsolute = true) :
        (q.child planFileName).isAbsolute = true := by
      unfold Path.child
      rw [Path.isAbsolute_join, hq, Bool.true_or]
    change (((Host.findPlan cwd : Simulation _) s w).1.getD _).isAbsolute = true
    cases found : ((Host.findPlan cwd : Simulation _) s w).1 with
    | none => exact child cwd absolute
    | some q =>
      unfold Host.findPlan at found
      rw [Simulation.firstFile_apply] at found
      obtain ⟨above, mem, rfl⟩ := List.mem_map.1 (List.mem_of_find?_eq_some found)
      exact child above (Path.isAbsolute_of_mem_ancestors mem absolute)

/-- A relative path adds its names to the root of a project. -/
theorem components_path {p : Project} {q : Path} (absolute : p.root.isAbsolute = true)
    (relative : q.isAbsolute = false) :
    (p.path q).components = p.root.components ++ q.names := by
  unfold path
  rw [relative, if_neg Bool.false_ne_true]
  exact Path.components_join (Path.text_ne_empty_of_isAbsolute absolute) relative

/-- The build directory of a relative configuration goes on where the build root ends. -/
theorem components_path_child {p : Project} (absolute : p.root.isAbsolute = true) (root : Path)
    {config : String} (relative : (Path.mk config).isAbsolute = false) :
    (p.path (root.child config)).components
      = (p.path root).components ++ (Path.mk config).names := by
  have joined : (root.child config).isAbsolute = root.isAbsolute := by
    unfold Path.child
    rw [Path.isAbsolute_join, relative, Bool.or_false]
  cases placed : root.isAbsolute with
  | true =>
    unfold path
    rw [joined, placed, if_pos rfl, if_pos rfl]
    exact Path.components_join (Path.text_ne_empty_of_isAbsolute placed) relative
  | false =>
    rw [placed] at joined
    rw [components_path absolute joined, components_path absolute placed]
    unfold Path.child
    rw [Path.names_join relative, List.append_assoc]

/-- An absolute configuration is the build directory itself. -/
theorem path_child_of_isAbsolute (p : Project) (root : Path) {config : String}
    (h : (Path.mk config).isAbsolute = true) : p.path (root.child config) = ⟨config⟩ := by
  unfold Path.child
  rw [Path.join_of_isAbsolute h]
  unfold path
  rw [if_pos h]

end Project

/-! ## What a cleaning touches -/

namespace Task

open Operation

variable {s : Setting} {w : World}

/-- What a cleaning says of a directory: that it would be removed, that it has been removed, or that
it is not there. -/
def SaysOf (t : Task) (d : Path) (e : Event) : Prop :=
  e = .emitted (.output (removalLine d)) ∨
  e = .emitted (.notice (t.shell.statusLine .removed d.text)) ∨
  e = .emitted (.notice (t.shell.statusLine .skipped (d.text ++ " (not present)")))

/-- Since a past, something may have been said of some directories, and nothing else. -/
def OnlySaysOf (t : Task) (named : List Path) (past : List Event) (w : World) : Prop :=
  ∃ said, w.events = past ++ said ∧ ∀ e ∈ said, ∃ d ∈ named, t.SaysOf d e

variable {t : Task} {named : List Path} {past : List Event}

theorem onlySaysOf_refl (t : Task) (named : List Path) (w : World) :
    t.OnlySaysOf named w.events w :=
  ⟨[], (List.append_nil _).symm, fun _ mem => absurd mem List.not_mem_nil⟩

/-- One more event may be added that speaks of a named directory. -/
theorem OnlySaysOf.record (h : t.OnlySaysOf named past w) {d : Path} (mem : d ∈ named) {e : Event}
    (speaks : t.SaysOf d e) : t.OnlySaysOf named past (w.record e) := by
  obtain ⟨said, events, all⟩ := h
  refine ⟨said ++ [e], ?_, ?_⟩
  · rw [World.events_record, events, List.append_assoc]
  · intro e' he'
    rcases List.mem_append.1 he' with old | new
    · exact all e' old
    · rw [List.mem_singleton.1 new]
      exact ⟨d, mem, speaks⟩

/-- A status line about a directory says something of it. -/
theorem keeps_onlySaysOf_status {d : Path} (mem : d ∈ named) {status : Status} {message : String}
    (speaks : t.SaysOf d (.emitted (.notice (t.shell.statusLine status message)))) :
    Keeps (t.OnlySaysOf named past) (ask (Host.status t.shell status message)) s := by
  refine .ask fun w h => ?_
  rw [Simulation.status_apply]
  split
  · exact h
  · exact h.record mem speaks

theorem keeps_onlySaysOf_displayRemovals (ds : List Path) (sub : ∀ d ∈ ds, d ∈ named) :
    Keeps (t.OnlySaysOf named past) (displayRemovals ds) s := by
  induction ds with
  | nil => exact .pure fun _ => id
  | cons d ds ih =>
    have shown : Keeps (t.OnlySaysOf named past) (ask (Host.printLine ("rm -rf " ++ d.text))) s :=
      .ask fun w h => h.record (sub d List.mem_cons_self) (.inl rfl)
    exact shown.bind fun _ => ih fun q hq => sub q (List.mem_cons_of_mem d hq)

/-- A cleaning speaks of the directories on its list, in a dry run and in earnest. -/
theorem keeps_onlySaysOf_clean {r : CleanRequest} {vs : List Variant}
    (chosen : t.chosenVariants r = .ok vs) :
    Keeps (t.OnlySaysOf (t.directories vs) past) (t.clean r) s := by
  unfold clean
  rw [chosen]
  refine .ofExcept_bind (fun _ => id) ?_
  rintro _ ⟨⟩
  split
  · exact (keeps_onlySaysOf_displayRemovals _ fun _ => id).bind fun _ => .pure fun _ => id
  · refine keeps_removeAll (t.directories vs) (fun _ _ => id) ?_
    intro d mem
    exact ⟨keeps_onlySaysOf_status mem (.inr (.inl rfl)),
      keeps_onlySaysOf_status mem (.inr (.inr rfl))⟩

/-- A list of what would be removed looks at nothing and removes nothing. -/
theorem shadows_displayRemovals (ds : List Path) (w : World) :
    Shadows (displayRemovals ds) (displayRemovals ds) s w [] := by
  induction ds generalizing w with
  | nil => exact .pure ()
  | cons d ds ih => exact (Shadows.printLine _).bind_of_ok (exec_ask _ s w) (ih _)

/-- A dry run makes no visits. -/
theorem shadows_clean_rehearsing (t : Task) {r : CleanRequest} {vs : List Variant}
    (chosen : t.chosenVariants r = .ok vs) :
    Shadows (t.rehearsing.clean r) (t.rehearsing.clean r) s w [] := by
  obtain ⟨w', shown, -⟩ := exec_displayRemovals (s := s) (t.directories vs) w
  unfold clean
  rw [show t.rehearsing.chosenVariants r = .ok vs from chosen]
  exact (shadows_displayRemovals (t.directories vs) w).bind_of_ok shown (.pure [])

theorem mem_variants_of_chosenVariants {t : Task} {r : CleanRequest} {vs : List Variant}
    (h : t.chosenVariants r = .ok vs) : ∀ v ∈ vs, v ∈ t.registry.variants := by
  unfold chosenVariants at h
  split at h
  · cases h
    exact fun _ => id
  · split at h
    · cases h
    · next chosen =>
      cases h
      intro v mem
      rw [List.mem_singleton.1 mem]
      exact Registry.mem_variants_of_variantOrDefault chosen

/-- A directory on the list of a cleaning is the build directory of a variant. -/
theorem exists_variant_of_mem_directories {t : Task} {r : CleanRequest} {vs : List Variant}
    (chosen : t.chosenVariants r = .ok vs) {d : Path} (mem : d ∈ t.directories vs) :
    ∃ v ∈ t.registry.variants, t.buildDir v = d := by
  have all := (distinctPart_distinctPaths (vs.map t.buildDir)).sublist.subset mem
  obtain ⟨v, hv, is⟩ := List.mem_map.1 all
  exact ⟨v, mem_variants_of_chosenVariants chosen v hv, is⟩

/-- Every directory that a cleaning removes or speaks of is the build directory of a variant. -/
theorem clean_touches (t : Task) (r : CleanRequest) (s : Setting) (w : World) :
    ∃ (visits : List Visit) (named : List Path), Shadows (t.clean r) (t.clean r) s w visits ∧
      t.OnlySaysOf named w.events ((t.clean r).exec s w).2 ∧
      ∀ d, d ∈ named ∨ .removed d ∈ visits → ∃ v ∈ t.registry.variants, t.buildDir v = d := by
  cases chosen : t.chosenVariants r with
  | error e =>
    refine ⟨[], [], ?_, ?_, ?_⟩
    · unfold clean
      rw [chosen]
      exact .throw _
    · rw [t.exec_clean_of_error chosen]
      exact t.onlySaysOf_refl [] w
    · intro d touched
      simp at touched
  | ok vs =>
    have speaks := (keeps_onlySaysOf_clean (s := s) chosen).exec_snd
      (t.onlySaysOf_refl (t.directories vs) w)
    cases dry : t.dryRun with
    | true =>
      -- A rehearsal visits nothing, so only what it says counts.
      have shadows := t.shadows_clean_rehearsing (s := s) (w := w) chosen
      rw [rehearsing_of_dryRun dry] at shadows
      refine ⟨[], t.directories vs, shadows, speaks, ?_⟩
      rintro d (mem | visit)
      · exact exists_variant_of_mem_directories chosen mem
      · cases visit
    | false =>
      obtain ⟨visits, shadows, walk⟩ := t.clean_walks (s := s) (w := w) chosen
      rw [acting_of_not_dryRun dry] at shadows
      refine ⟨visits, t.directories vs, shadows, speaks, ?_⟩
      rintro d (mem | visit)
      · exact exists_variant_of_mem_directories chosen mem
      · have removed : d ∈ visits.filterMap Visit.removed? :=
          List.mem_filterMap.2 ⟨_, visit, rfl⟩
        exact exists_variant_of_mem_directories chosen
          (walk.looked.subset (walk.removed.subset removed))

/-- **A cleaning reaches as far as the configurations say.**  For a plan that was parsed and a
project of an absolute working directory, every directory that a cleaning removes or speaks of is
the build directory of a declared variant.  If the configuration is relative, the directory lies
strictly below the build root just when the configuration has a name and no `..`; if it is
absolute, it is the directory itself. -/
theorem clean_stays_below_iff {text : String} {planPath cwd : Path} {plan : Plan} {p : Project}
    (accepted : Plan.parse text planPath = .ok plan) (absolute : cwd.isAbsolute = true)
    (opened : p.OpenedFrom cwd) (override? : Option Path) (shell : Shell) (dryRun : Bool)
    (r : CleanRequest) (s : Setting) (w : World) :
    let t : Task := ⟨p, plan.registry override?, shell, dryRun⟩
    ∃ (visits : List Visit) (named : List Path),
      (t.clean r).watch [] s w
        = ((((t.clean r).exec s w).1, visits), ((t.clean r).exec s w).2) ∧
      t.OnlySaysOf named w.events ((t.clean r).exec s w).2 ∧
      ∀ d, d ∈ named ∨ .removed d ∈ visits → ∃ v ∈ plan.variants,
        d = p.path (plan.buildRoot.child v.config) ∧
        if (Path.mk v.config).isAbsolute then d = ⟨v.config⟩
        else (d.StrictlyBelow (p.path plan.buildRoot) ↔
          (Path.mk v.config).names ≠ [] ∧ .up ∉ (Path.mk v.config).names) := by
  intro t
  obtain ⟨visits, named, shadows, speaks, touches⟩ := t.clean_touches r s w
  refine ⟨visits, named, shadows [], speaks, ?_⟩
  intro d touched
  obtain ⟨u, hu, rfl⟩ := touches d touched
  rw [Plan.variants_registry (Plan.validate_of_parse accepted)] at hu
  obtain ⟨v, hv, rfl⟩ := List.mem_map.1 hu
  refine ⟨v, hv, rfl, ?_⟩
  change if (Path.mk v.config).isAbsolute then p.path (plan.buildRoot.child v.config) = _
    else (p.path (plan.buildRoot.child v.config)).StrictlyBelow _ ↔ _
  split
  · next alone => exact Project.path_child_of_isAbsolute p plan.buildRoot alone
  · next relative =>
    -- A relative configuration adds its names to the components of the build root.
    have added := Project.components_path_child (opened.isAbsolute_root absolute) plan.buildRoot
      (Bool.eq_false_iff.2 relative)
    constructor
    · rintro ⟨more, some, noUp, is⟩
      rw [added] at is
      rw [List.append_cancel_left is]
      exact ⟨some, noUp⟩
    · rintro ⟨some, noUp⟩
      exact ⟨_, some, noUp, added⟩

end Task

/-! ## A configuration that leads out of the build root -/

namespace ParentConfiguration

/-- A plan with a usual configuration, and with one that leads upwards. -/
def plan : Plan where
  options := ⟨none, none, none⟩
  variants := [⟨none, "clang", "Debug", none⟩, ⟨none, "clang", "..", none⟩]
  targets := .empty

/-- The project of the plan, in the directory `/p`. -/
def project : Project :=
  .withPlan ⟨"/p"⟩ ⟨planFileName⟩

/-- A task for the plan. -/
def task (dryRun : Bool) : Task :=
  ⟨project, plan.registry none, ⟨.normal, false⟩, dryRun⟩

/-- A setting in which no process can be started. -/
def setting : Setting :=
  ⟨⟨[]⟩, fun _ _ _ _ => .error .noEntry⟩

/-- A project with a source file and a build root. -/
def world : World :=
  .ofTree ⟨[(["p"], .directory), (["p", "main.c"], .file .empty false),
    (["p", "build"], .directory)]⟩ ⟨["p"], 0⟩

/-- The same project when the first variant has been built. -/
def built : World :=
  world.withTree (world.tree.put ["p", "build", "Debug"] .directory)

end ParentConfiguration

open ParentConfiguration in
/-- The theorem for a cleaning of the first variant: its directory is removed, and lies strictly
below the build root. -/
theorem clean_stays_below_of_debug :
    let t := task false
    let r : CleanRequest := ⟨none, false⟩
    Plan.parse plan.text ⟨planFileName⟩ = .ok plan ∧ (Path.mk "/p").isAbsolute = true ∧
      project.OpenedFrom ⟨"/p"⟩ ∧
      ∃ (visits : List Visit) (named : List Path),
        (t.clean r).watch [] setting built
          = ((((t.clean r).exec setting built).1, visits), ((t.clean r).exec setting built).2) ∧
        t.OnlySaysOf named built.events ((t.clean r).exec setting built).2 ∧
        (∀ d, d ∈ named ∨ .removed d ∈ visits → ∃ v ∈ plan.variants,
          d = project.path (plan.buildRoot.child v.config) ∧
          (d.StrictlyBelow (project.path plan.buildRoot) ↔
            (Path.mk v.config).names ≠ [] ∧ .up ∉ (Path.mk v.config).names)) ∧
        .removed ⟨"/p/build/Debug"⟩ ∈ visits ∧
        (Path.mk "/p/build/Debug").StrictlyBelow (project.path plan.buildRoot) := by
  intro t r
  have accepted := Plan.parse_text_of_valid (p := plan) rfl ⟨planFileName⟩
  have absolute : (Path.mk "/p").isAbsolute = true := by decide +kernel
  have opened : project.OpenedFrom ⟨"/p"⟩ := .inl ⟨_, rfl⟩
  have relative : ∀ v ∈ plan.variants, ¬ (Path.mk v.config).isAbsolute := by decide +kernel
  obtain ⟨visits, named, watched, speaks, touches⟩ := Task.clean_stays_below_iff accepted absolute
    opened none ⟨.normal, false⟩ false r setting built
  have reaches : ∀ d, d ∈ named ∨ .removed d ∈ visits → ∃ v ∈ plan.variants,
      d = project.path (plan.buildRoot.child v.config) ∧
      (d.StrictlyBelow (project.path plan.buildRoot) ↔
        (Path.mk v.config).names ≠ [] ∧ .up ∉ (Path.mk v.config).names) := by
    intro d touched
    obtain ⟨v, hv, is, below⟩ := touches d touched
    rw [if_neg (relative v hv)] at below
    exact ⟨v, hv, is, below⟩
  have removed : .removed ⟨"/p/build/Debug"⟩ ∈ visits := by
    have seen : .removed ⟨"/p/build/Debug"⟩ ∈ ((t.clean r).watch [] setting built).1.2 := by
      decide +kernel
    rwa [show (t.clean r).watch [] setting built = _ from watched] at seen
  refine ⟨accepted, absolute, opened, visits, named, watched, speaks, reaches, removed, ?_⟩
  -- Only the first configuration leads to this directory.
  have only : ∀ v ∈ plan.variants, Path.mk "/p/build/Debug"
      = project.path (plan.buildRoot.child v.config) →
        (Path.mk v.config).names ≠ [] ∧ .up ∉ (Path.mk v.config).names := by decide +kernel
  obtain ⟨v, hv, is, below⟩ := reaches _ (.inr removed)
  exact below.2 (only v hv is)

open ParentConfiguration in
/-- **A cleaning may leave the build root.**  The configuration `..` of a valid plan stands for the
directory above it: a dry run displays the removal of the project, and in earnest its files are
gone. -/
theorem clean_leaves_build_root :
    Plan.parse plan.text ⟨planFileName⟩ = .ok plan ∧ (Path.mk "/p").isAbsolute = true ∧
      project.OpenedFrom ⟨"/p"⟩ ∧
      (((task true).clean ⟨some "clang-..", false⟩).exec setting world).2.printed
        = ["rm -rf /p/build/..\n"] ∧
      Visit.removed ⟨"/p/build/.."⟩
        ∈ (((task false).clean ⟨some "clang-..", false⟩).watch [] setting world).1.2 ∧
      (((task false).clean ⟨some "clang-..", false⟩).exec setting world).2.tree.kind? world.cwd
        ⟨"/p/main.c"⟩ = none ∧
      ¬ (Path.mk "/p/build/..").StrictlyBelow (project.path plan.buildRoot) := by
  refine ⟨Plan.parse_text_of_valid rfl _, ?_, .inl ⟨_, rfl⟩, ?_, ?_, ?_, ?_⟩
  · decide +kernel
  · decide +kernel
  · decide +kernel
  · decide +kernel
  · have components : (Path.mk "/p/build/..").components
        = (project.path plan.buildRoot).components ++ [.up] := by decide +kernel
    rintro ⟨more, -, noUp, is⟩
    rw [components] at is
    rw [← List.append_cancel_left is] at noUp
    exact noUp List.mem_cons_self

end BuildVariants
