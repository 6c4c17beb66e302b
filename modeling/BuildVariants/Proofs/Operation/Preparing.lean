import BuildVariants.Proofs.FileTree.Making
import BuildVariants.Proofs.Operation.Commands
import BuildVariants.Proofs.Operation.Outline
import BuildVariants.Proofs.Plan.RoundTrip
import BuildVariants.Proofs.Simulation.Observing

/-!
# Configuring in prepared directories

When a command that configures is tried, there is a `CMakeLists.txt` in the source directory that it
names, whatever the operation found on its way.  The build directory that it names is a directory,
too, unless a file stood in its place from the start: the program makes a directory only where
nothing stands, and does not look what else it may be (`Task.configured_in_prepared_directories`).
-/

namespace BuildVariants

namespace World

/-- The program sees a directory at a path. -/
def HasDirectory (w : World) (p : Path) : Prop :=
  w.tree.kind? w.cwd p = some .directory

instance (w : World) (p : Path) : Decidable (w.HasDirectory p) :=
  inferInstanceAs (Decidable (_ = _))

variable {w w' : World} {p : Path} {tree : FileTree}

/-- A directory that is seen has a path that is not empty: the empty path leads nowhere. -/
theorem text_ne_empty_of_hasDirectory (h : w.HasDirectory p) : p.text ≠ "" := by
  intro empty
  have unseen : w.tree.kind? w.cwd p = none := FileTree.kind?_of_text_eq_empty empty
  rw [show w.tree.kind? w.cwd p = some .directory from h] at unseen
  cases unseen

/-- What is seen and is no file is a directory. -/
theorem hasDirectory_iff_of_sees (h : w.Sees p) : w.HasDirectory p ↔ ¬ w.HasFile p := by
  obtain ⟨kind, seen⟩ := Option.isSome_iff_exists.1 h
  unfold HasDirectory HasFile
  rw [seen]
  cases kind with
  | directory => exact ⟨fun _ => nofun, fun _ => rfl⟩
  | file executable => exact ⟨nofun, fun none => absurd ⟨executable, rfl⟩ none⟩

/-- In a tree that has grown the program sees what it saw. -/
theorem sees_withTree (standing : w.tree.get? w.cwd.location = some .directory)
    (grown : w.tree.Grown tree) (h : w.Sees p) : (w.withTree tree).Sees p := by
  obtain ⟨kind, seen⟩ := Option.isSome_iff_exists.1 h
  unfold Sees
  rw [tree_withTree, cwd_withTree, grown.settle standing, grown.kind?_eq seen]
  rfl

end World

/-- If the command configures, it finds a project in the source directory that it names, and for a
build directory a directory, provided that there was no file in its place in an earlier world and
that its path is not empty. -/
def Occasion.PreparedSince (o : Occasion) (earlier : World) : Prop :=
  ∀ source build words, o.command.args = "-S" :: source :: "-B" :: build :: words →
    o.command.cwd? = none ∧ o.world.Sees (Path.child ⟨source⟩ "CMakeLists.txt") ∧
      (o.world.HasDirectory ⟨build⟩ ↔ ¬ earlier.HasFile ⟨build⟩ ∧ build ≠ "")

namespace Task

open Operation

variable {t : Task} {i : Invocation} {s : Setting} {w w' : World}

/-! ## Making sure of the directories -/

/-- The directories of an invocation are as they have to be, for all that was there before. -/
structure Prepared (i : Invocation) (before after : World) : Prop where
  /-- There is a project in the source directory. -/
  source : after.Sees (i.sourceDir.child "CMakeLists.txt")
  /-- The build directory is a directory, if no file was in its place. -/
  build : after.HasDirectory i.buildDir ↔ ¬ before.HasFile i.buildDir ∧ i.buildDir.text ≠ ""

/-- Messages leave the directories as they are. -/
theorem Prepared.tells (h : Prepared i w w') {w'' : World} (told : World.Tells w' w'') :
    Prepared i w w'' := by
  obtain ⟨source, build⟩ := h
  constructor
  · unfold World.Sees
    rw [told.tree, told.cwd]
    exact source
  · unfold World.HasDirectory
    rw [told.tree, told.cwd]
    exact build

/-- Something stands at the build directory already. -/
theorem Prepared.of_sees (source : w.Sees (i.sourceDir.child "CMakeLists.txt"))
    (there : w.Sees i.buildDir) : Prepared i w w := by
  refine ⟨source, ?_⟩
  constructor
  · intro directory
    exact ⟨(World.hasDirectory_iff_of_sees there).1 directory,
      World.text_ne_empty_of_hasDirectory directory⟩
  · rintro ⟨noFile, -⟩
    exact (World.hasDirectory_iff_of_sees there).2 noFile

/-- The build directory has been made. -/
theorem Prepared.of_createAll {tree : FileTree}
    (standing : w.tree.get? w.cwd.location = some .directory)
    (source : w.Sees (i.sourceDir.child "CMakeLists.txt")) (missing : ¬ w.Sees i.buildDir)
    (made : w.tree.createAll w.cwd i.buildDir = (.ok (), tree)) :
    Prepared i w (w.withTree tree) := by
  have grown : w.tree.Grown tree := by
    have := FileTree.grown_createAll w.tree w.cwd i.buildDir
    rwa [made] at this
  refine ⟨World.sees_withTree standing grown source, ?_⟩
  constructor
  · intro directory
    refine ⟨?_, World.text_ne_empty_of_hasDirectory directory⟩
    rintro ⟨executable, file⟩
    refine missing ?_
    unfold World.Sees
    rw [file]
    rfl
  · rintro ⟨-, nonempty⟩
    unfold World.HasDirectory
    rw [World.tree_withTree, World.cwd_withTree, grown.settle standing]
    exact FileTree.kind?_createAll made nonempty

/-- **Whatever was there before**, the program goes on only after it has made sure of the
directories. -/
theorem prepared_of_prepare (standing : w.tree.get? w.cwd.location = some .directory)
    (ok : (prepare i).exec s w = (.ok (), w')) : Prepared i w w' := by
  unfold prepare at ok
  rw [exec_ask_bind] at ok
  change (if (w.tree.kind? w.cwd (i.sourceDir.child "CMakeLists.txt")).isSome
    then Host.ensureDirectory i.buildDir else _ : Operation Simulation Unit).exec s w = _ at ok
  split at ok
  · next source =>
    unfold Host.ensureDirectory at ok
    rw [exec_ask_bind] at ok
    change (if (w.tree.kind? w.cwd i.buildDir).isSome then pure () else _ :
      Operation Simulation Unit).exec s w = _ at ok
    split at ok
    · next there =>
      cases ok
      -- The build directory is not asked for its kind: something is there, and that is all.
      exact .of_sees source there
    · next missing =>
      rw [exec_ask_bind] at ok
      rcases made : w.tree.createAll w.cwd i.buildDir with ⟨result, tree⟩
      have created : (Host.createAll i.buildDir : Simulation _) s w
          = (result, w.withTree tree) := by
        show Simulation.change (fun cwd t => t.createAll cwd i.buildDir) s w = _
        simp only [Simulation.change, made]
      rw [created] at ok
      cases result with
      | error e => cases ok
      | ok _ =>
        cases ok
        exact .of_createAll standing source missing made
  · cases ok

/-- Making sure of the directories tries no process, whatever is asked of processes. -/
theorem triesWhen_prepare (P : Occasion → Prop) (i : Invocation) :
    TriesWhen P (prepare i) (prepare i) s w := by
  have looks (p : Path) : (Host.pathExists p : Simulation _).Looks := fun _ _ => rfl
  refine .looks_bind (Observed.passing.pathExists _) (looks _) ?_
  cases ((Host.isCMakeProject i.sourceDir : Simulation _) s w).1 with
  | false => exact .throw _
  | true =>
    refine .looks_bind (Observed.passing.pathExists _) (looks _) ?_
    cases ((Host.pathExists i.buildDir : Simulation _) s w).1 with
    | true => exact .pure ()
    | false =>
      refine TriesWhen.bind (.ask rfl rfl) fun result w' _ => ?_
      cases result with
      | ok _ => exact .pure ()
      | error e => exact .throw _

theorem triesWhen_cmake_bind {α : Type} {P : Occasion → Prop} {f : Path → Operation Observed α}
    {g : Path → Operation Simulation α} (k : ∀ cmake, TriesWhen P (f cmake) (g cmake) s w) :
    TriesWhen P (t.cmake >>= f) (t.cmake >>= g) s w := by
  unfold cmake
  rw [bind_assoc, bind_assoc]
  refine .looks_bind Observed.passing.findCMake .findCMake ?_
  cases ((Host.findCMake : Simulation _) s w).1 with
  | some cmake => exact k cmake
  | none =>
    cases t.dryRun with
    | true => exact k _
    | false => exact .throw _

/-! ## Operations -/

/-- What is known of a world that an operation in earnest has come to from an earlier one: while it
makes its checks it is still the same, and then the directories have been made sure of. -/
def Since (earlier : World) : Stage → World → Prop
  | .checking, w => w = earlier
  | .prepared i, w => Prepared i earlier w
  | .configured _, _ | .built, _ => True

/-- **Whatever configures finds its directories prepared**, because its step comes right after they
have been made sure of; a command that builds does not configure. -/
def preparedOutline (t : Task) (s : Setting) (earlier : World)
    (standing : earlier.tree.get? earlier.cwd.location = some .directory) :
    Outline Observed Simulation t t.acting.manner t.acting.manner where
  Holds stage x y := ∀ w, Since earlier stage w → TriesWhen (·.PreparedSince earlier) x y s w
  pure _ x _ _ := .pure x
  diagnose _ _ _ := .throw _
  cmake_bind k w still := triesWhen_cmake_bind fun cmake => k cmake w still
  prepare_bind i _ _ k w still := by
    cases still
    refine (triesWhen_prepare _ i).bind fun _ w' ok => ?_
    exact k w' (prepared_of_prepare standing ok)
  configuring_bind declared made k w prepared := by
    refine (triesWhen_step rfl (fun w' told => ?_) _ _).bind fun _ w'' _ => k w'' trivial
    have ready := Prepared.tells prepared told
    obtain ⟨words, -, rfl⟩ := Invocation.configure_eq_ok.1 made
    rintro source build rest ⟨⟩
    exact ⟨rfl, ready.source, ready.build⟩
  isConfigured_bind {_ v _ _} _ found missing w still := by
    refine .looks_bind (Observed.passing.isFile _) (fun _ _ => rfl) ?_
    cases ((Host.isConfigured (t.buildDir v) : Simulation _) s w).1 with
    | true => exact found w trivial
    | false => exact missing w still
  debug_bind k w _ := TriesWhen.tells_bind rfl (.debug _) fun w' _ => k w' trivial
  building_bind declared k w _ := by
    refine (triesWhen_step rfl ?_ _ _).bind fun _ w' _ => k w' trivial
    intro _ _ source build rest args
    exact absurd (List.cons.inj args).1 (by decide)

/-- A variant is configured in the directories that are made sure of in front of its step. -/
theorem triesWhen_configure (t : Task)
    (standing : w.tree.get? w.cwd.location = some .directory) (variant? : Option String) :
    TriesWhen (·.PreparedSince w) (t.acting.configure variant?) (t.acting.configure variant?) s w :=
  (t.preparedOutline s w standing).configure variant? w rfl

/-- **Configuring finds its directories prepared.**  For every task, setting and world: when a
process is tried on behalf of `configure` or `build`, and its command configures, then there is a
`CMakeLists.txt` in the source directory; and the build directory is a directory just when no file
was in its place at the start and its path is not empty.  The current directory may have been
removed: its place is counted from the nearest directory above it that stands. -/
theorem configured_in_prepared_directories (t : Task) (s : Setting) (w : World)
    (standing : w.tree.get? w.cwd.location = some .directory) :
    (∀ variant?, TriesWhen (·.PreparedSince w) (t.acting.configure variant?)
      (t.acting.configure variant?) s w) ∧
    ∀ r, TriesWhen (·.PreparedSince w) (t.acting.build r) (t.acting.build r) s w :=
  ⟨t.triesWhen_configure standing, fun r => (t.preparedOutline s w standing).build r w rfl⟩

end Task

/-! ## A file in the place of the build directory -/

namespace OccupiedDirectory

/-- A plan with one variant. -/
def plan : Plan where
  options := ⟨none, none, none⟩
  variants := [⟨none, "clang", "Debug", none⟩]
  targets := .empty

/-- The plan in the directory `/p`. -/
def task : Task :=
  ⟨.withPlan ⟨"/p"⟩ ⟨planFileName⟩, plan.registry none, ⟨.normal, false⟩, false⟩

/-- A `cmake` that is named in the environment, and does nothing. -/
def setting : Setting :=
  ⟨⟨["CMAKE=/cmake"]⟩, fun _ _ _ t => .ok (⟨.exited 0, "", ""⟩, t)⟩

/-- A CMake project without a build directory. -/
def vacant : World :=
  .ofTree ⟨[(["cmake"], .file .empty true), (["p"], .directory),
    (["p", "CMakeLists.txt"], .file .empty false)]⟩ ⟨["p"], 0⟩

/-- The same project with a file in its place. -/
def occupied : World :=
  vacant.withTree
    ((vacant.tree.put ["p", "build"] .directory).put ["p", "build", "Debug"] (.file .empty false))

/-- The build directory. -/
def directory : Path := ⟨"/p/build/Debug"⟩

/-- The command that configures it. -/
def command : Command :=
  ⟨⟨"/cmake"⟩, ["-S", "/p/.", "-B", directory.text, "-DTOOLCHAIN=clang", "-DBUILD_CONFIG=Debug"],
    defaultEnv, none⟩

end OccupiedDirectory

open Operation OccupiedDirectory in
/-- The theorem for a project without a build directory: it is there when `cmake` is tried. -/
theorem configured_in_directory_made :
    vacant.tree.get? vacant.cwd.location = some .directory ∧ ∃ o : Occasion,
      Observes (task.acting.configure none) (task.acting.configure none) setting vacant [o] ∧
      o.command = command ∧ o.world.HasDirectory directory := by
  have tried : ((task.acting.configure none).exec setting vacant).2.commands
      = vacant.commands ++ [command] := by decide +kernel
  have free : ¬ vacant.HasFile directory ∧ directory.text ≠ "" := by decide +kernel
  refine ⟨rfl, ?_⟩
  obtain ⟨o, observed, configures, prepared⟩ :=
    ((Task.configured_in_prepared_directories task setting vacant rfl).1 none).exists_of_single
      tried
  refine ⟨o, observed, configures, ?_⟩
  exact (prepared _ _ _ (congrArg Command.args configures)).2.2.2 free

open Operation OccupiedDirectory in
/-- **A file in the place of the build directory is not noticed**: `cmake` is told to configure
it. -/
theorem configured_over_file :
    Plan.parse plan.text ⟨planFileName⟩ = .ok plan ∧ occupied.HasFile directory ∧ ∃ o : Occasion,
      Observes (task.acting.configure none) (task.acting.configure none) setting occupied [o] ∧
      o.command = command ∧ ¬ o.world.HasDirectory directory := by
  have tried : ((task.acting.configure none).exec setting occupied).2.commands
      = occupied.commands ++ [command] := by decide +kernel
  have taken : occupied.HasFile directory := by decide +kernel
  refine ⟨Plan.parse_text_of_valid rfl _, taken, ?_⟩
  obtain ⟨o, observed, configures, prepared⟩ :=
    (task.triesWhen_configure (s := setting) (w := occupied) rfl none).exists_of_single tried
  refine ⟨o, observed, configures, ?_⟩
  intro found
  exact ((prepared _ _ _ (congrArg Command.args configures)).2.2.1 found).1 taken

end BuildVariants
