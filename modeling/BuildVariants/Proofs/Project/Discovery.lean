import BuildVariants.Project
import BuildVariants.Proofs.Path.Parents
import BuildVariants.Proofs.Simulation.Execution

/-!
# Finding a plan

The project of a directory is that of the nearest plan file, from the directory upwards, and if
there is none it has its root in the directory itself (`Host.projectAt_spec`).  The root is cut off
the path of the plan file, so it may be spelled in another way than the directory that was looked
into; the paths of the project are the same all the same.

Looking for a plan asks for a file, and loading one that need not be there asks for anything.  So
where no plan file is found, the built-in plan is used unless a directory has its name
(`Host.planAt_of_planless`).
-/

namespace BuildVariants

namespace World

/-- A directory holds a plan when the plan file is in it. -/
def HoldsPlan (w : World) (d : Path) : Prop :=
  w.HasFile (d.child planFileName)

instance (w : World) (d : Path) : Decidable (w.HoldsPlan d) :=
  inferInstanceAs (Decidable (w.HasFile _))

/-- The first directory that holds a plan, from a directory upwards. -/
def NearestPlan (w : World) (start d : Path) : Prop :=
  ∃ n, start.above? n = some d ∧ w.HoldsPlan d ∧
    ∀ m < n, ∀ e, start.above? m = some e → ¬ w.HoldsPlan e

/-- Neither a directory nor one above it holds a plan. -/
def Planless (w : World) (start : Path) : Prop :=
  ∀ n d, start.above? n = some d → ¬ w.HoldsPlan d

end World

/-! ## Looking upwards -/

namespace Host

variable (s : Setting) (w : World)

/-- Whether a plan file is seen in a directory. -/
def seesPlan (d : Path) : Bool :=
  ((isFile (d.child planFileName) : Simulation _) s w).1

/-- What the program asks of a directory is whether it holds the file of a plan. -/
theorem seesPlan_iff (d : Path) : seesPlan s w d = true ↔ w.HoldsPlan d :=
  Simulation.isFile_iff s w (d.child planFileName)

/-- The search looks at the directory and those above it, from the inside out, and takes the first
hit. -/
theorem findPlan_apply (start : Path) : (findPlan start : Simulation _) s w
    = ((start.ancestors.find? (seesPlan s w)).map (·.child planFileName), w) := by
  unfold findPlan
  rw [Simulation.firstFile_apply, List.find?_map]
  rfl

variable {s w}

/-- The first hit is the nearest plan. -/
theorem nearestPlan_of_find?_eq_some {start d : Path}
    (found : start.ancestors.find? (seesPlan s w) = some d) : w.NearestPlan start d := by
  obtain ⟨holds, n, inside, here, before⟩ := List.find?_eq_some_iff_getElem.1 found
  refine ⟨n, ?_, (seesPlan_iff s w d).1 holds, fun m lower e above => ?_⟩
  · rw [← Path.getElem?_ancestors, List.getElem?_eq_getElem inside, here]
  · have notSeen := before m lower
    rw [← Path.getElem?_ancestors, List.getElem?_eq_getElem (lower.trans inside)] at above
    rw [Option.some.inj above, Bool.not_eq_true', Bool.eq_false_iff, Ne, seesPlan_iff] at notSeen
    exact notSeen

/-- Where nothing is hit there is no plan, neither here nor above. -/
theorem planless_of_find?_eq_none {start : Path}
    (found : start.ancestors.find? (seesPlan s w) = none) : w.Planless start := by
  intro n d above holds
  rw [← Path.getElem?_ancestors] at above
  have notSeen := List.find?_eq_none.1 found d (List.mem_of_getElem? above)
  exact notSeen ((seesPlan_iff s w d).2 holds)

variable (s w)

/-- Looking for a project changes nothing and ends in the nearest directory with a plan, or where
it started. -/
theorem exists_projectAt_eq (cwd : Path) :
    ∃ d, (w.NearestPlan cwd d ∨ w.Planless cwd ∧ d = cwd) ∧
      (projectAt cwd : Simulation Project) s w
        = (.ofPlanPath cwd (d.child planFileName) false, w) := by
  unfold projectAt
  rw [Simulation.bind_apply, findPlan_apply]
  cases found : cwd.ancestors.find? (seesPlan s w) with
  | none => exact ⟨cwd, .inr ⟨planless_of_find?_eq_none found, rfl⟩, rfl⟩
  | some d => exact ⟨d, .inl (nearestPlan_of_find?_eq_some found), rfl⟩

end Host

/-! ## Where the project is -/

theorem components_planFileName : (Path.mk planFileName).components = [.name planFileName] := by
  decide +kernel

@[simp] theorem Project.planPath_ofPlanPath (cwd planPath : Path) (named : Bool) :
    (ofPlanPath cwd planPath named).planPath = planPath := rfl

/-- The root of a project is the directory of its plan, perhaps in another spelling. -/
theorem Project.same_root_ofPlanPath (cwd d : Path) (named : Bool) :
    (ofPlanPath cwd (d.child planFileName) named).root.Same d := by
  obtain ⟨above, parent, same⟩ := Path.parent?_join d components_planFileName
  unfold ofPlanPath Path.child
  rw [parent]
  exact same

/-- The root loses what is not followed at the end of the working directory. -/
example : (Project.ofPlanPath ⟨"/w//src/./"⟩ ((Path.mk "/w//src/./").child planFileName) false).root
    = ⟨"/w//src"⟩ := by decide +kernel

/-- A relative path of a project is seen from the root, however the root is spelled. -/
theorem Project.same_path {p : Project} {d q : Path} (root : p.root.Same d)
    (relative : q.isAbsolute = false) : (p.path q).Same (d.join q) := by
  unfold path
  rw [relative, if_neg Bool.false_ne_true]
  exact root.join q

/-- **The nearest plan is found.**  The plan file of a directory's project is in the first
directory that has one, from the directory upwards, or would be in the directory itself if there
is none; the root of the project is that directory, and relative paths are seen from there. -/
theorem Host.projectAt_spec (s : Setting) (w : World) (cwd : Path) :
    let found := (projectAt cwd : Simulation Project) s w
    found.2 = w ∧ found.1.cwd = cwd ∧ found.1.named = false ∧
      ∃ d, (w.NearestPlan cwd d ∨ w.Planless cwd ∧ d = cwd) ∧
        found.1.planPath = d.child planFileName ∧ found.1.root.Same d ∧
        ∀ q : Path, q.isAbsolute = false → (found.1.path q).Same (d.join q) := by
  obtain ⟨d, nearest, found⟩ := exists_projectAt_eq s w cwd
  have root := Project.same_root_ofPlanPath cwd d false
  rw [found]
  exact ⟨rfl, rfl, rfl, d, nearest, rfl, root, fun q relative => Project.same_path root relative⟩

/-! ## Loading the plan -/

/-- What is seen as a directory is not read. -/
theorem FileTree.readText_of_kind?_eq_directory {t : FileTree} {cwd : Place} {p : Path}
    (directory : t.kind? cwd p = some .directory) : t.readText cwd p = .error .isDirectory := by
  unfold kind? at directory
  unfold readText
  split at directory
  · next l e at_ =>
    rw [at_]
    cases e with
    | directory => rfl
    | file contents executable => cases directory
  · cases directory

/-- A directory is without a plan when it holds none and the directory above it is without one. -/
theorem World.planless_iff {w : World} {start : Path} :
    w.Planless start ↔ ¬ w.HoldsPlan start ∧ ∀ q, start.parent? = some q → w.Planless q := by
  constructor
  · intro planless
    refine ⟨planless 0 start rfl, fun q parent n d above => planless (n + 1) d ?_⟩
    rw [Path.above?, parent]
    exact above
  · rintro ⟨here, higher⟩ n d above
    cases n with
    | zero =>
      cases above
      exact here
    | succ n =>
      obtain ⟨q, parent, above⟩ := Option.bind_eq_some_iff.1 above
      exact higher q parent n d above

namespace Host

/-- Without a plan, the project is that of a plan file in the directory itself. -/
theorem projectAt_of_planless (s : Setting) {w : World} {cwd : Path} (planless : w.Planless cwd) :
    (projectAt cwd : Simulation Project) s w
      = (.ofPlanPath cwd (cwd.child planFileName) false, w) := by
  obtain ⟨d, nearest | ⟨-, rfl⟩, found⟩ := exists_projectAt_eq s w cwd
  · obtain ⟨n, above, holds, -⟩ := nearest
    exact absurd holds (planless n d above)
  · exact found

variable {α β : Type} (s : Setting) (w : World)

/-- What only asks the host cannot end the opening of a project. -/
theorem run_liftM_bind (x : Simulation α) (f : α → ExceptT Diagnostic Simulation β) :
    ((liftM x : ExceptT Diagnostic Simulation α) >>= f).run s w = (f (x s w).1).run s (x s w).2 :=
  rfl

/-- Reading a plan file changes nothing. -/
theorem run_loadPlanFile (path : Path) :
    (loadPlanFile path : ExceptT Diagnostic Simulation Plan).run s w
      = (match w.tree.readText w.cwd path with
        | .error e => .error (.unreadablePlan path e)
        | .ok text => Plan.parse text path, w) := by
  have readText_apply : (readText path : Simulation (Except OsError String)) s w
      = (w.tree.readText w.cwd path, w) := rfl
  unfold loadPlanFile
  rw [run_liftM_bind, readText_apply]
  cases w.tree.readText w.cwd path with
  | error e => rfl
  | ok text => cases parsed : Plan.parse text path <;> simp only [parsed] <;> rfl

/-- A plan file that was looked for is read if anything stands there. -/
theorem run_loadPlan_fst {p : Project} (unnamed : p.named = false) :
    ((loadPlan p : ExceptT Diagnostic Simulation Plan).run s w).1
      = if (w.tree.kind? w.cwd p.planPath).isSome then
          ((loadPlanFile p.planPath : ExceptT Diagnostic Simulation Plan).run s w).1
        else .ok .builtin := by
  have exists_apply : (pathExists p.planPath : Simulation Bool) s w
      = ((w.tree.kind? w.cwd p.planPath).isSome, w) := rfl
  unfold loadPlan
  rw [unnamed, if_neg Bool.false_ne_true, run_liftM_bind, exists_apply]
  split
  · -- The log record in between is not seen by the reading.
    rw [run_liftM_bind, run_loadPlanFile, run_loadPlanFile]
    rfl
  · rfl

/-- The plan of the project that a directory belongs to. -/
def planAt (cwd : Path) : ExceptT Diagnostic Simulation Plan := do
  let project ← (projectAt cwd : Simulation Project)
  loadPlan project

/-- **Without a plan file, the built-in plan is used**, unless a directory stands where the plan
file would be: that one is tried to be read. -/
theorem planAt_of_planless (cwd : Path) (planless : w.Planless cwd) :
    ((planAt cwd).run s w).1
      = if (w.tree.kind? w.cwd (cwd.child planFileName)).isSome then
          .error (.unreadablePlan (cwd.child planFileName) .isDirectory)
        else .ok .builtin := by
  unfold planAt
  rw [run_liftM_bind, projectAt_of_planless s planless]
  refine (run_loadPlan_fst s w rfl).trans ?_
  rw [run_loadPlanFile, Project.planPath_ofPlanPath]
  split
  · next there =>
    obtain ⟨kind, there⟩ := Option.isSome_iff_exists.1 there
    cases kind with
    | directory => rw [FileTree.readText_of_kind?_eq_directory there]
    | file executable => exact absurd ⟨executable, there⟩ (planless 0 cwd rfl)
  · rfl

end Host

namespace DirectoryOfPlanName

/-- A directory `/w/Variants.toml` next to `/w/src`. -/
def world : World :=
  .ofTree ⟨[(["w"], .directory), (["w", "src"], .directory), (["w", planFileName], .directory)]⟩
    ⟨["w"], 0⟩

theorem planless_root : world.Planless ⟨"/"⟩ := by
  have above : (Path.mk "/").parent? = none := by decide +kernel
  refine World.planless_iff.2 ⟨by decide +kernel, fun q parent => ?_⟩
  rw [above] at parent
  cases parent

theorem planless_w : world.Planless ⟨"/w"⟩ := by
  have above : (Path.mk "/w").parent? = some ⟨"/"⟩ := by decide +kernel
  refine World.planless_iff.2 ⟨by decide +kernel, fun q parent => ?_⟩
  cases above.symm.trans parent
  exact planless_root

theorem planless_src : world.Planless ⟨"/w/src"⟩ := by
  have above : (Path.mk "/w/src").parent? = some ⟨"/w"⟩ := by decide +kernel
  refine World.planless_iff.2 ⟨by decide +kernel, fun q parent => ?_⟩
  cases above.symm.trans parent
  exact planless_w

end DirectoryOfPlanName

open DirectoryOfPlanName in
/-- The theorem for the directory `/w/src`: what stands in the directory above does not count. -/
theorem builtin_below_directory_of_plan_name :
    world.Planless ⟨"/w/src"⟩ ∧
      ((Host.planAt ⟨"/w/src"⟩).run .childless world).1 = .ok .builtin := by
  refine ⟨planless_src, (Host.planAt_of_planless .childless world ⟨"/w/src"⟩ planless_src).trans ?_⟩
  exact if_neg (by decide +kernel)

open DirectoryOfPlanName in
/-- **The built-in plan need not be used where there is no plan file**: in the directory `/w` the
directory of that name is found, and cannot be read. -/
theorem unreadable_in_directory_of_plan_name :
    world.Planless ⟨"/w"⟩ ∧ ((Host.planAt ⟨"/w"⟩).run .childless world).1
      = .error (.unreadablePlan ⟨"/w/Variants.toml"⟩ .isDirectory) := by
  refine ⟨planless_w, ?_⟩
  unfold Host.planAt
  rw [Host.run_liftM_bind, Host.projectAt_of_planless .childless planless_w]
  decide +kernel

end BuildVariants
