import BuildVariants.Proofs.Operation.Commands
import BuildVariants.Proofs.Operation.History
import BuildVariants.Proofs.Operation.Outline
import BuildVariants.Proofs.Operation.Removal
import BuildVariants.Proofs.Plan.RoundTrip

/-!
# Builds use a configuration of their directory

Every operation keeps the invariant `Task.History`, so it holds after any sequence of calls
(`performAll`).  The step that carries the proof is a build: it either finds a cache, which comes
from the run, or configures its own variant before it goes on.
-/

namespace BuildVariants

variable {s : Setting} {here : Location}

/-! ## The commands of an operation -/

namespace Invocation

/-- The command that configures an invocation tells by its arguments what it configures: the build
directory, with the words of the variant. -/
theorem configured?_of_configure {i : Invocation} {c : Command} (h : i.configure = .ok c) :
    ∃ words, i.resolved.words = .ok words ∧ c.configured? = some (i.buildDir, words) ∧
      c.built? = none := by
  obtain ⟨words, resolved, rfl⟩ := configure_eq_ok.1 h
  exact ⟨words, resolved, rfl, rfl⟩

theorem built?_build (i : Invocation) (target : Option String) (jobs : Option Nat) :
    (i.build target jobs).built? = some i.buildDir := rfl

theorem configured?_build (i : Invocation) (target : Option String) (jobs : Option Nat) :
    (i.build target jobs).configured? = none := rfl

end Invocation

/-- A run target has a directory to run in, so it is never taken for a command that configures,
whatever its arguments are. -/
theorem Command.configured?_of_cwd? {c : Command} {d : Path} (h : c.cwd? = some d) :
    c.configured? = none := by
  unfold configured?
  rw [h]

theorem Command.built?_of_cwd? {c : Command} {d : Path} (h : c.cwd? = some d) :
    c.built? = none := by
  unfold built?
  rw [h]

namespace Task

open Operation

/-! ## Steps -/

/-- The run so far, with a command that may be started next. -/
def Ready (t : Task) (here : Location) (c : Command) (w : World) : Prop :=
  t.History here w ∧ ∀ v ∈ t.registry.variants, c.built? = some (t.buildDir v) →
    t.ConfiguredAt here w.events (t.buildLocation here v)

/-- The run so far, in which a command, if it was one that configures, was the last one that
configured its directory. -/
def Served (t : Task) (here : Location) (c : Command) (w : World) : Prop :=
  t.History here w ∧ ∀ d words, c.configured? = some (d, words) →
    lastConfigure here (d.locationFrom here) w.events = some words

variable {t : Task} {c : Command}

/-- What a command needs to be started is not lost by messages. -/
theorem lasting_ready : World.Lasting (t.Ready here c) := by
  intro w w' tells h
  refine ⟨lasting_history w w' tells h.1, ?_⟩
  intro v hv builds
  exact (h.2 v hv builds).of_tells tells

theorem lasting_served : World.Lasting (t.Served here c) := by
  intro w w' tells h
  refine ⟨lasting_history w w' tells h.1, ?_⟩
  intro d words configures
  refine tells.events_induction (lastConfigure here (d.locationFrom here) · = some words)
    (h.2 d words configures) ?_
  intro events e last
  rw [lastConfigure_snoc]
  exact last

variable (only : s.children.CacheByConfigure (t.buildLocations here)) (issued : t.Issues c)
include only issued

/-- A command of the task keeps the invariant, and if it ends well it is the last one that
configured its directory. -/
theorem ensures_runCommand (wiring : Wiring) :
    Ensures (t.Ready here c) (Operation.runCommand c wiring) s
      (fun exit w => t.History here w ∧ (exit.ending.isSuccess → t.Served here c w))
      (t.History here) := by
  have ran : Ensures (t.Ready here c) (ask (Host.run c wiring)) s
      (fun result w => t.History here w ∧
        ∀ exit, result = .ok exit → exit.ending.isSuccess → t.Served here c w)
      (t.History here) := by
    refine Ensures.ask fun w ready => ?_
    have kept := ready.1.run wiring only issued ready.2
    refine ⟨kept, ?_⟩
    intro exit ok success
    refine ⟨kept, ?_⟩
    intro d words configures
    change (Simulation.run c wiring s w).1 = .ok exit at ok
    show lastConfigure here _ (Simulation.run c wiring s w).2.events = some words
    unfold Simulation.run at ok ⊢
    split at ok
    · cases ok
    · next exit' tree _ =>
      cases ok
      show lastConfigure here _ (w.events ++ [.ran c wiring (.ok exit)]) = some words
      rw [lastConfigure_snoc]
      unfold configureStep
      rw [Event.configured?_ran_ok, if_pos success, configures]
      exact if_pos rfl
  -- Both kinds of wiring announce the command first, in words of their own.
  unfold Operation.runCommand
  cases wiring with
  | kept =>
    refine .tells_bind (.debug _) lasting_ready fun _ => ran.bind fun result => ?_
    cases result with
    | ok exit => exact .pure fun w h => ⟨h.1, h.2 exit rfl⟩
    | error e => exact .throw fun w h => h.1
  | shown =>
    refine .tells_bind (.debug _) lasting_ready fun _ => ran.bind fun result => ?_
    cases result with
    | ok exit => exact .pure fun w h => ⟨h.1, h.2 exit rfl⟩
    | error e => exact .throw fun w h => h.1

/-- A step that succeeds has served its purpose. -/
theorem ensures_step (shell : Shell) (status : Status) (what : String) :
    Ensures (t.Ready here c) ((t.inManner ⟨shell, false⟩).step status what c) s
      (fun _ => t.Served here c) (t.History here) := by
  unfold step
  rw [dryRun_inManner, if_neg Bool.false_ne_true]
  split
  · unfold shownStep
    refine .tells_bind (.status _ _ _) lasting_ready fun _ => ?_
    refine (ensures_runCommand only issued .shown).bind fun exit => ?_
    split
    · next success => exact .pure fun w h => h.2 success
    · exact .throw fun w h => h.1
  · unfold keptStep
    refine .tells_bind (.of_looks fun _ _ => rfl) lasting_ready fun started => ?_
    refine .tells_bind (.status _ _ _) lasting_ready fun _ => ?_
    refine (ensures_runCommand only issued .kept).bind fun exit => ?_
    split
    · next success =>
      refine Ensures.mono (P := t.Served here c) ?_ (fun w h => h.2 success) fun _ _ => id
      refine .tells_bind (.of_looks fun _ _ => rfl) lasting_served fun finished => ?_
      exact .ask_of_tells (.status _ _ _) lasting_served
    · exact .throw fun w h => h.1

omit only issued

/-! ## Operations -/

/-- What is known of the run at a stage of an operation. -/
def Reached (t : Task) (here : Location) : Stage → World → Prop
  | .configured v, w => t.History here w ∧ t.ConfiguredAt here w.events (t.buildLocation here v)
  | .checking, w | .prepared _, w | .built, w => t.History here w

/-- The invariant holds at every stage. -/
theorem Reached.history {stage : Stage} {w : World} (h : t.Reached here stage w) :
    t.History here w := by
  cases stage with
  | configured v => exact h.1
  | checking | prepared | built => exact h

/-- Looking for `cmake` tells nothing of the run. -/
theorem ensures_cmake_bind {α : Type} {P : World → Prop} {Q : α → World → Prop}
    {f : Path → Operation Simulation α}
    (k : ∀ cmake, Ensures P (f cmake) s Q P) : Ensures P (t.cmake >>= f) s Q P := by
  unfold cmake
  rw [bind_assoc]
  refine (Ensures.ask_of_looks .findCMake).bind fun found => ?_
  cases found with
  | some cmake => exact k cmake
  | none =>
    cases t.dryRun with
    | true => exact k _
    | false => exact .diagnose fun _ => id

/-- Making the directories adds no cache. -/
theorem keeps_prepareFor (i : Invocation) (shell : Shell) :
    Keeps (t.History here) ((t.inManner ⟨shell, false⟩).prepareFor i) s :=
  keeps_prepare i fun w h => h.withTree (FileTree.noNewFile_createAll w.tree w.cwd i.buildDir)

section Outline

variable (only : s.children.CacheByConfigure (t.buildLocations here)) (shell : Shell)
include only

variable {v : Variant} {cmake : Path}

/-- **Configuring a variant leaves its build directory configured.** -/
theorem ensures_configuring (declared : v ∈ t.registry.variants)
    (made : (t.invocationWith cmake v).configure = .ok c) (status : Status) (what : String) :
    Ensures (t.History here) ((t.inManner ⟨shell, false⟩).step status what c) s
      (fun _ => t.Reached here (.configured v)) (t.History here) := by
  obtain ⟨words, own, configures, builds⟩ := Invocation.configured?_of_configure made
  have issued : t.Issues c := by
    intro d words' is
    rw [configures] at is
    cases is
    exact ⟨v, declared, rfl, own⟩
  refine (ensures_step only issued shell status what).mono (fun w h => ⟨h, ?_⟩)
    fun _ w h => ⟨h.1, v, declared, rfl, words, own, h.2 _ _ configures⟩
  intro u _ is
  rw [builds] at is
  cases is

/-- What is built has been configured.  The build may also count as one of another variant with the
same directory. -/
theorem ensures_building (target? : Option String) (jobs? : Option Nat) (status : Status)
    (what : String) :
    Ensures (t.Reached here (.configured v))
      ((t.inManner ⟨shell, false⟩).step status what
        ((t.invocationWith cmake v).build target? jobs?)) s
      (fun _ => t.History here) (t.History here) := by
  have issued : t.Issues ((t.invocationWith cmake v).build target? jobs?) := by
    intro d words is
    rw [Invocation.configured?_build] at is
    cases is
  refine (ensures_step only issued shell status what).mono (fun w h => ⟨h.1, ?_⟩) fun _ w h => h.1
  intro u _ builds
  rw [Invocation.built?_build] at builds
  have place : t.buildLocation here u = t.buildLocation here v := by
    unfold buildLocation
    rw [show t.buildDir v = t.buildDir u from Option.some.inj builds]
  rw [place]
  exact h.2

/-- **Every part of an operation keeps the invariant.**  A build either finds a cache, which comes
from the run, or configures its variant now. -/
def historyOutline : Outline Simulation Simulation t ⟨shell, false⟩ ⟨shell, false⟩ where
  Holds stage x _ := Ensures (t.Reached here stage) x s (fun _ => t.History here) (t.History here)
  pure stage _ := .pure fun _ => Reached.history
  diagnose _ := .diagnose fun _ => id
  cmake_bind := ensures_cmake_bind
  prepare_bind i _ _ k := (keeps_prepareFor i shell).bind fun _ => k
  configuring_bind declared made k :=
    (ensures_configuring only shell declared made _ _).bind fun _ => k
  isConfigured_bind declared found missing := by
    refine Ensures.looks_bind (fun _ _ => rfl) fun configured => ?_
    cases configured with
    | false => exact Ensures.mono missing (fun w h => h.1) fun _ _ => id
    | true =>
      refine Ensures.mono found (fun w h => ?_) fun _ _ => id
      exact ⟨h.1, History.configuredAt_of_isConfigured h.1 declared h.2⟩
  debug_bind k := by
    refine .tells_bind (.debug _) (fun w w' told h => ?_) fun _ => k
    exact ⟨lasting_history w w' told h.1, ConfiguredAt.of_tells h.2 told⟩
  building_bind _ k := (ensures_building only shell _ _ _ _).bind fun _ => k

/-- A run target is no command of `cmake`, so it configures nothing; that it leaves the caches alone
is asked of the children. -/
theorem keeps_start {r : RunRequest} (made : t.runCommand r = .ok c) :
    Keeps (t.History here) ((t.inManner ⟨shell, false⟩).start r c) s := by
  obtain ⟨d, cwd⟩ := cwd?_of_runCommand made
  have issued : t.Issues c := by
    intro d words is
    rw [Command.configured?_of_cwd? cwd] at is
    cases is
  unfold start
  rw [dryRun_inManner, if_neg Bool.false_ne_true]
  refine (Ensures.ask_of_looks fun _ _ => rfl).bind fun found => ?_
  split
  · refine .tells_bind (.status _ _ _) lasting_history fun _ => ?_
    refine Ensures.bind ((ensures_runCommand only issued .shown).mono (fun w h => ⟨h, ?_⟩)
      fun _ _ => id) fun exit => .pure fun w h => h.1
    intro u _ builds
    rw [Command.built?_of_cwd? cwd] at builds
    cases builds
  · exact .throw fun _ => id

/-- A run keeps the invariant also where it stands alone, with no build in front of it. -/
theorem keeps_run (r : RunRequest) :
    Keeps (t.History here) ((t.inManner ⟨shell, false⟩).run r) s :=
  (historyOutline only shell).run .built r (fun _ => .diagnose fun _ => id) fun _ made =>
    keeps_start only shell made

omit only in
/-- A removal can only take caches away. -/
theorem keeps_remove (ds : List Path) :
    Keeps (t.History here) ((t.inManner ⟨shell, false⟩).remove ds) s := by
  unfold remove
  rw [dryRun_inManner, if_neg Bool.false_ne_true]
  refine keeps_removeAll ds ?_ ?_
  · exact fun w d h => h.withTree (FileTree.noNewFile_removeTree w.tree w.cwd d)
  · intro d _
    exact ⟨.ask_of_tells (.status _ _ _) lasting_history,
      .ask_of_tells (.status _ _ _) lasting_history⟩

/-- **Every call keeps the invariant**, however the user is told. -/
theorem keeps_perform (call : Call) :
    Keeps (t.History here) ((t.inManner ⟨shell, false⟩).perform call) s := by
  cases call with
  | configure variant? => exact .map _ ((historyOutline only shell).configure variant?)
  | build r => exact .map _ ((historyOutline only shell).build r)
  | run r => exact .map _ (keeps_run only shell r)
  | buildRun r => exact .map _ ((historyOutline only shell).buildRun r (keeps_run only shell r))
  | clean r =>
    exact .map _ ((historyOutline only shell).clean r fun _ _ => keeps_remove shell _)

end Outline

/-! ## Sequences of calls -/

/-- The invariant holds where no build directory has a cache and nothing has happened yet. -/
theorem history_ofTree {tree : FileTree}
    (fresh : ∀ l ∈ t.buildLocations here, ¬ tree.HasCache l) :
    t.History here (World.ofTree tree ⟨here, 0⟩) := by
  refine ⟨.of_location here, ?_, ?_⟩
  · intro l hl cache
    exact absurd cache (fresh l hl)
  · intro before c wiring result pre
    change before ++ [.ran c wiring result] <+: [] at pre
    rw [List.prefix_nil] at pre
    simp at pre

/-- The induction is on the calls. -/
theorem history_performAll (only : s.children.CacheByConfigure (t.buildLocations here))
    (calls : List (Shell × Call)) {w : World} (h : t.History here w) :
    t.History here (t.performAll s w calls) := by
  induction calls generalizing w with
  | nil => exact h
  | cons c calls ih =>
    exact ih ((keeps_perform only c.1 c.2).exec_snd h)

/-- **A build uses a configuration of its directory.**  Whatever calls are made, in whatever order:
whenever a build is started for a variant `v`, the last process that configured its build directory
with success was given the arguments of a variant with that build directory.  If all such variants
have the same arguments, those are the arguments of `v` itself. -/
theorem build_uses_configuration_of_directory (t : Task) (s : Setting) (here : Location)
    (tree : FileTree) (calls : List (Shell × Call))
    (only : s.children.CacheByConfigure (t.buildLocations here))
    (fresh : ∀ l ∈ t.buildLocations here, ¬ tree.HasCache l) (before : List Event) (c : Command)
    (wiring : Wiring) (result : Except OsError Exit)
    (started : before ++ [.ran c wiring result]
      <+: (t.performAll s (World.ofTree tree ⟨here, 0⟩) calls).events)
    (v : Variant) (hv : v ∈ t.registry.variants) (builds : c.built? = some (t.buildDir v)) :
    ∃ words, lastConfigure here (t.buildLocation here v) before = some words ∧
      (∃ u ∈ t.registry.variants, t.buildLocation here u = t.buildLocation here v ∧
        u.resolved.words = .ok words) ∧
      ((∀ u ∈ t.registry.variants, t.buildLocation here u = t.buildLocation here v →
        u.resolved.words = v.resolved.words) → v.resolved.words = .ok words) := by
  have history := history_performAll only calls (history_ofTree fresh)
  obtain ⟨u, hu, place, words, own, last⟩ :=
    history.built before c wiring result started v hv builds
  refine ⟨words, last, ⟨u, hu, place, own⟩, ?_⟩
  intro alone
  rw [← alone u hu place]
  exact own

end Task

/-! ## Two variants of one configuration

The variants `clang-Debug` and `gcc-Debug` share a build directory.  After a build of the first, a
build of the second finds the directory configured, and goes on with the arguments of the first. -/

/-- Children among which a command that configures leaves an empty cache, and fails if it cannot;
the others do nothing. -/
def cachingChildren : Children := fun _ c cwd t =>
  match c.configured? with
  | none => .ok (⟨.exited 0, "", ""⟩, t)
  | some (d, _) =>
    match t.writeFile cwd (d.child cacheName) .empty false with
    | .ok t' => .ok (⟨.exited 0, "", ""⟩, t')
    | .error _ => .ok (⟨.exited 1, "", ""⟩, t)

/-- The children of the example are of the kind that the theorem is about. -/
theorem cacheByConfigure_cachingChildren (locations : List Location) :
    cachingChildren.CacheByConfigure locations := by
  intro n c cwd t exit t' ran l _ cache
  unfold cachingChildren at ran
  split at ran
  · cases ran
    exact .inl cache
  · next d words configures =>
    split at ran
    · next written =>
      cases ran
      obtain ⟨k, inside, rfl, found⟩ := FileTree.resolve_writeFile written
      obtain ⟨contents, executable, there⟩ := cache
      by_cases same : l ++ [cacheName] = k
      · right
        subst same
        exact ⟨rfl, d, words, _, _, configures, found⟩
      · left
        rw [FileTree.get?_put _ inside, if_neg same] at there
        exact ⟨contents, executable, there⟩
    · cases ran
      exact .inl cache

namespace SharedDirectory

/-- Two variants with one configuration. -/
def plan : Plan where
  options := ⟨none, none, none⟩
  variants := [⟨none, "clang", "Debug", none⟩, ⟨none, "gcc", "Debug", none⟩]
  targets := .empty

/-- The plan in the directory `/p`. -/
def task : Task :=
  ⟨.withPlan ⟨"/p"⟩ ⟨planFileName⟩, plan.registry none, ⟨.normal, false⟩, false⟩

/-- The second variant. -/
def second : Variant :=
  ⟨"gcc-Debug", ⟨⟨"gcc", "Debug", none⟩, none⟩⟩

/-- A `cmake` that is named in the environment. -/
def setting : Setting :=
  ⟨⟨["CMAKE=/cmake"]⟩, cachingChildren⟩

/-- A project without a build directory. -/
def tree : FileTree :=
  ⟨[(["p"], .directory), (["p", "CMakeLists.txt"], .file .empty false),
    (["cmake"], .file .empty true)]⟩

/-- A build of a variant. -/
def build (name : String) : Shell × Call :=
  (⟨.normal, false⟩, .build ⟨some name, none, none, false⟩)

/-- The world after some variants have been built one after the other. -/
def after (names : List String) : World :=
  task.performAll setting (.ofTree tree ⟨["p"], 0⟩) (names.map build)

/-- The command that builds the second variant. -/
def command : Command :=
  Invocation.build ⟨⟨"/cmake"⟩, ⟨"/p/."⟩, ⟨"/p/build/Debug"⟩, second.resolved, defaultEnv⟩ none none

/-- What has happened when that command is started. -/
def before : List Event :=
  (after ["clang-Debug", "gcc-Debug"]).events.take 11

/-- No build directory of the example has a cache beforehand. -/
theorem fresh : ∀ l ∈ task.buildLocations ["p"], ¬ tree.HasCache l := by
  have locations : task.buildLocations ["p"] = [["p", "build", "Debug"], ["p", "build", "Debug"]] :=
    by decide +kernel
  have absent : tree.get? ["p", "build", "Debug", cacheName] = none := by decide +kernel
  intro l hl cache
  obtain ⟨contents, executable, there⟩ := cache
  rw [locations] at hl
  have only : l = ["p", "build", "Debug"] := by simpa using hl
  rw [only] at there
  exact absurd (absent.symm.trans there) nofun

theorem second_mem : second ∈ task.registry.variants := by
  have last : task.registry.variants[1]? = some second := rfl
  exact List.mem_of_getElem? last

theorem builds : command.built? = some (task.buildDir second) := by
  rfl

/-- The second build starts that command, and until then only the first variant was configured. -/
theorem observed :
    (after ["clang-Debug"]).events <+: before ∧
    before ++ [.ran command .kept (.ok ⟨.exited 0, "", ""⟩)]
      <+: (after ["clang-Debug", "gcc-Debug"]).events ∧
    lastConfigure ["p"] (task.buildLocation ["p"] second) before
      = some ["-DTOOLCHAIN=clang", "-DBUILD_CONFIG=Debug"] := by
  decide +kernel

end SharedDirectory

open SharedDirectory in
/-- The theorem for the build of the second variant: both variants have that directory. -/
theorem build_uses_configuration_of_shared_directory :
    setting.children.CacheByConfigure (task.buildLocations ["p"]) ∧
    (∀ l ∈ task.buildLocations ["p"], ¬ tree.HasCache l) ∧
    ∃ words, lastConfigure ["p"] (task.buildLocation ["p"] second) before = some words ∧
      ∃ u ∈ task.registry.variants,
        task.buildLocation ["p"] u = task.buildLocation ["p"] second ∧
          u.resolved.words = .ok words := by
  refine ⟨cacheByConfigure_cachingChildren _, fresh, ?_⟩
  obtain ⟨words, last, used, -⟩ := Task.build_uses_configuration_of_directory task setting ["p"]
    tree (["clang-Debug", "gcc-Debug"].map build) (cacheByConfigure_cachingChildren _) fresh before
    command
    .kept (.ok ⟨.exited 0, "", ""⟩) observed.2.1 second second_mem builds
  exact ⟨words, last, used⟩

open SharedDirectory in
/-- **A build need not use the configuration of its own variant.**  The plan is valid and only
configuring makes a cache, but the second variant is built with the arguments of the first. -/
theorem build_without_own_configuration :
    Plan.parse plan.text ⟨planFileName⟩ = .ok plan ∧
    setting.children.CacheByConfigure (task.buildLocations ["p"]) ∧
    (∀ l ∈ task.buildLocations ["p"], ¬ tree.HasCache l) ∧
    second ∈ task.registry.variants ∧
    (after ["clang-Debug"]).events <+: before ∧
    before ++ [.ran command .kept (.ok ⟨.exited 0, "", ""⟩)]
      <+: (after ["clang-Debug", "gcc-Debug"]).events ∧
    command.built? = some (task.buildDir second) ∧
    second.resolved.words = .ok ["-DTOOLCHAIN=gcc", "-DBUILD_CONFIG=Debug"] ∧
    lastConfigure ["p"] (task.buildLocation ["p"] second) before
      = some ["-DTOOLCHAIN=clang", "-DBUILD_CONFIG=Debug"] := by
  obtain ⟨first, started, last⟩ := observed
  exact ⟨Plan.parse_text_of_valid rfl _, cacheByConfigure_cachingChildren _, fresh, second_mem,
    first, started, builds, rfl, last⟩

end BuildVariants
