import BuildVariants.Proofs.Operation.CleanedPlaces
import BuildVariants.Proofs.Operation.Configuration
import BuildVariants.Proofs.Operation.StepOrder
import BuildVariants.Proofs.Simulation.Lockstep

/-!
# Anchored commands

A path in a command is read by another process, perhaps in another directory.  It means the same
there if it starts at the root (`FileTree.resolve_of_isAbsolute`).  The paths of a project do so if
the working directory does, because every one of them is seen from the project's root, and so do all
paths that an operation puts into a command (`Task.Anchored`).  An operation displays and tries no
other commands than these (`Operation.ConfinedTo`), and each of them sets the variables of the plan.
-/

namespace BuildVariants

/-! ## Paths that start at the root -/

namespace Project

variable {p : Project}

/-- Whatever path is resolved against an absolute root becomes absolute. -/
theorem isAbsolute_path (absolute : p.root.isAbsolute = true) (q : Path) :
    (p.path q).isAbsolute = true := by
  unfold path
  split
  · next given => exact given
  · rw [Path.isAbsolute_join, absolute, Bool.true_or]

/-- A path that has been seen from the root of a project stays where it is. -/
theorem path_path (absolute : p.root.isAbsolute = true) (q : Path) :
    p.path (p.path q) = p.path q := by
  have seen := isAbsolute_path absolute q
  generalize p.path q = r at seen
  unfold path
  exact if_pos seen

end Project

namespace FileTree

/-- An absolute path names the same from every place. -/
theorem resolve_of_isAbsolute (t : FileTree) {p : Path} (absolute : p.isAbsolute = true)
    (here there : Place) : t.resolve here p = t.resolve there p := by
  unfold resolve origin
  rw [if_pos absolute, if_pos absolute]

/-- What is executable at a path is a file that the path names. -/
theorem exists_resolve_of_executable {t : FileTree} {here : Place} {p : Path}
    {contents : ByteArray} (h : t.executable here p = .ok contents) :
    ∃ place, t.resolve here p = .ok (place, .file contents true) := by
  unfold executable at h
  split at h
  · cases h
  · next place found is =>
    cases h
    exact ⟨place, is⟩
  · cases h

/-- An absolute path holds a slash, so it is not looked up among the directories of the search
path. -/
theorem contains_slash_of_isAbsolute {p : Path} (absolute : p.isAbsolute = true) :
    p.text.toList.contains '/' = true := by
  have first : p.text.toList.head? = some '/' := of_decide_eq_true absolute
  exact List.contains_iff_mem.2 (List.mem_of_head? first)

/-- **What starts is what was seen.**  The file that is started for an absolute program is the one
that the program names where it is started from, whatever directory it is to run in. -/
theorem resolve_of_launch {t : FileTree} {here : Place} {environment : Environment} {c : Command}
    {l : Launch} (absolute : c.program.isAbsolute = true)
    (launched : t.launch here environment c = .ok l) :
    l.program = c.program ∧
      ∃ place, t.resolve here c.program = .ok (place, .file l.contents true) := by
  unfold launch at launched
  split at launched
  · cases launched
  · split at launched
    · cases launched
    · next there _ =>
      -- There is a slash in the program, so no list of directories is searched for it.
      unfold program at launched
      rw [if_pos (contains_slash_of_isAbsolute absolute)] at launched
      cases found : t.executable there c.program with
      | error e =>
        rw [found] at launched
        cases launched
      | ok contents =>
        simp only [found] at launched
        split at launched
        · cases launched
        · cases launched
          obtain ⟨place, is⟩ := exists_resolve_of_executable found
          exact ⟨rfl, place, (t.resolve_of_isAbsolute absolute here there).trans is⟩

end FileTree

/-! ## What an operation has to do with commands -/

/-- Since a world, some commands have been displayed and some have been tried, all of them of a
kind, and no other lines have been printed. -/
def World.ConfinedTo (P : Command → Prop) (before after : World) : Prop :=
  ∃ shown tried, after.printed = before.printed ++ shown.flatMap Command.lines ∧
    after.commands = before.commands ++ tried ∧ ∀ c ∈ shown ++ tried, P c

namespace World.ConfinedTo

variable {P : Command → Prop} {u v w : World}

/-- Where nothing is printed or run there is nothing to confine. -/
theorem of_quiet (printed : v.printed = w.printed) (commands : v.commands = w.commands) :
    World.ConfinedTo P w v :=
  ⟨[], [], printed.trans (List.append_nil _).symm, commands.trans (List.append_nil _).symm, nofun⟩

theorem trans (h : World.ConfinedTo P u v) (k : World.ConfinedTo P v w) :
    World.ConfinedTo P u w := by
  obtain ⟨shown, tried, printed, commands, all⟩ := h
  obtain ⟨shown', tried', printed', commands', all'⟩ := k
  refine ⟨shown ++ shown', tried ++ tried', ?_, ?_, ?_⟩
  · rw [printed', printed, List.flatMap_append, List.append_assoc]
  · rw [commands', commands, List.append_assoc]
  · intro c mem
    rcases List.mem_append.1 mem with mem | mem <;> rcases List.mem_append.1 mem with mem | mem
    · exact all c (List.mem_append_left _ mem)
    · exact all' c (List.mem_append_left _ mem)
    · exact all c (List.mem_append_right _ mem)
    · exact all' c (List.mem_append_right _ mem)

end World.ConfinedTo

namespace Operation

variable {α β : Type} {s : Setting} {P : Command → Prop} {x : Operation Simulation α}

/-- Wherever it starts, an operation displays and tries only commands of a kind, and prints nothing
else. -/
def ConfinedTo (P : Command → Prop) (x : Operation Simulation α) (s : Setting) : Prop :=
  ∀ w, World.ConfinedTo P w (x.exec s w).2

namespace ConfinedTo

theorem pure (a : α) : ConfinedTo P (Pure.pure a) s :=
  fun _ => .of_quiet rfl rfl

theorem throw (e : Failure) : ConfinedTo P (MonadExcept.throw e : Operation Simulation α) s :=
  fun _ => .of_quiet rfl rfl

theorem bind {f : α → Operation Simulation β} (h : ConfinedTo P x s)
    (k : ∀ a, ConfinedTo P (f a) s) : ConfinedTo P (x >>= f) s := by
  intro w
  have first := h w
  rcases result : x.exec s w with ⟨e | a, w'⟩ <;> rw [result] at first
  · rw [exec_bind_of_error result]
    exact first
  · rw [exec_bind_of_ok result]
    exact first.trans (k a w')

theorem map (f : α → β) (h : ConfinedTo P x s) : ConfinedTo P (f <$> x) s := by
  rw [map_eq_pure_bind]
  exact h.bind fun a => pure (f a)

/-- A request that prints nothing and runs nothing is confined to anything. -/
theorem ask {x : Simulation α} (printed : ∀ w, (x s w).2.printed = w.printed)
    (commands : ∀ w, (x s w).2.commands = w.commands) : ConfinedTo P (Operation.ask x) s :=
  fun w => .of_quiet (printed w) (commands w)

/-- A message beside the output is no command. -/
theorem ask_of_aside {x : Simulation α} (aside : x.Aside) : ConfinedTo P (Operation.ask x) s :=
  ask (fun w => (aside s w).printed) fun w => (aside s w).commands

theorem ask_of_looks {x : Simulation α} (looks : x.Looks) : ConfinedTo P (Operation.ask x) s :=
  ask (fun w => congrArg World.printed (looks s w)) fun w => congrArg World.commands (looks s w)

/-- An operation that only displays a script is confined if the script is. -/
theorem of_displays {script : List Command} (shows : ∀ w, Displays x s w script)
    (kind : ∀ c ∈ script, P c) : ConfinedTo P x s := by
  intro w
  refine ⟨script, [], (shows w).printed, ?_, ?_⟩
  · rw [List.append_nil]
    exact (shows w).commands
  · rw [List.append_nil]
    exact kind

/-- A command that is displayed is of the kind. -/
theorem displayCommand {c : Command} (kind : P c) : ConfinedTo P (Task.displayCommand c) s := by
  refine of_displays (fun w => Task.displays_displayCommand c) fun d mem => ?_
  rw [List.mem_singleton.1 mem]
  exact kind

/-- A command that is tried is of the kind. -/
theorem runCommand {c : Command} (kind : P c) (wiring : Wiring) :
    ConfinedTo P (Operation.runCommand c wiring) s := by
  have tried : ConfinedTo P (Operation.ask (Host.run c wiring)) s := by
    intro w
    have after : ((Operation.ask (Host.run c wiring)).exec s w).2
        = (Simulation.run c wiring s w).2 := rfl
    unfold Simulation.run at after
    refine ⟨[], [c], ?_, ?_, fun d mem => List.mem_singleton.1 mem ▸ kind⟩
    · rw [after]
      split <;> simp
    · rw [after]
      split <;> simp
  obtain ⟨message, is⟩ := exists_runCommand_eq c wiring
  rw [is]
  refine (ask_of_aside (.debug message)).bind fun _ => ?_
  refine tried.bind fun result => ?_
  cases result with
  | ok exit => exact pure exit
  | error e => exact throw _

end ConfinedTo

end Operation

namespace Task

open Operation

variable {t : Task} {s : Setting} {P : Command → Prop} {c : Command} {i : Invocation} {v : Variant}

/-! ## What the operations display and try -/

/-- A step shows its command or runs it, and the message in front of it is no command. -/
theorem confinedTo_step (kind : P c) (here : c.cwd? = none) (status : Status) (what : String) :
    ConfinedTo P (t.step status what c) s := by
  have ran (wiring : Wiring) : ConfinedTo P (Operation.runCommand c wiring) s :=
    .runCommand kind wiring
  have told (status : Status) (message : String) :
      ConfinedTo P (ask (Host.status t.shell status message)) s :=
    .ask_of_aside (.status _ _ _)
  -- The command names no directory, so it is displayed on one line.
  have shown : ConfinedTo P (ask (Host.printLine c.display)) s := by
    have displayed : ConfinedTo P (displayCommand c) s := .displayCommand kind
    unfold displayCommand at displayed
    rw [here] at displayed
    exact displayed
  unfold step
  split
  · exact shown
  · split
    · refine (told status what).bind fun _ => (ran .shown).bind fun exit => ?_
      split
      · exact .pure ()
      · exact .throw _
    · refine (ConfinedTo.ask_of_aside .milliseconds).bind fun started => ?_
      refine (told status what).bind fun _ => (ran .kept).bind fun exit => ?_
      split
      · exact (ConfinedTo.ask_of_aside .milliseconds).bind fun finished => told _ _
      · exact .throw _

/-- Making sure of the build directory displays and tries nothing. -/
theorem confinedTo_prepareFor (i : Invocation) : ConfinedTo P (t.prepareFor i) s := by
  unfold prepareFor
  split
  · exact .pure ()
  · intro w
    have events := events_prepare i s w
    exact .of_quiet (congrArg (List.filterMap Event.printed?) events)
      (congrArg (List.filterMap Event.command?) events)

theorem confinedTo_cmake : ConfinedTo P t.cmake s := by
  refine (ConfinedTo.ask_of_looks .findCMake).bind fun found => ?_
  cases found with
  | some path => exact .pure path
  | none =>
    show ConfinedTo P (if t.dryRun then _ else _) s
    split
    · exact .pure _
    · exact .throw _

/-- **What is displayed and tried is of a kind** when the commands of all variants are; at every
stage there is only this to be known. -/
def confinedOutline (t : Task) (s : Setting)
    (configuring : ∀ cmake v c, v ∈ t.registry.variants →
      (t.invocationWith cmake v).configure = .ok c → P c)
    (building : ∀ cmake v target? jobs?, v ∈ t.registry.variants →
      P ((t.invocationWith cmake v).build target? jobs?)) :
    Outline Simulation Simulation t t.manner t.manner where
  Holds _ x _ := ConfinedTo P x s
  pure _ := .pure
  diagnose _ := .throw _
  cmake_bind := confinedTo_cmake.bind
  prepare_bind i _ _ k := (confinedTo_prepareFor i).bind fun _ => k
  configuring_bind declared made k :=
    (confinedTo_step (configuring _ _ _ declared made) (Invocation.cwd?_of_configure made) _ _).bind
      fun _ => k
  isConfigured_bind _ found missing := (ConfinedTo.ask_of_looks fun _ _ => rfl).bind fun
    | true => found
    | false => missing
  debug_bind k := (ConfinedTo.ask_of_aside (.debug _)).bind fun _ => k
  building_bind declared k := (confinedTo_step (building _ _ _ _ declared) rfl _ _).bind fun _ => k

/-- The target is the last command of a run, shown or started. -/
theorem confinedTo_start {r : RunRequest} (kind : P c) : ConfinedTo P (t.start r c) s := by
  unfold start
  split
  · exact (ConfinedTo.displayCommand kind).bind fun _ => .pure 0
  · refine (ConfinedTo.ask_of_looks fun _ _ => rfl).bind fun found => ?_
    split
    · refine (ConfinedTo.ask_of_aside (.status _ _ _)).bind fun _ => ?_
      exact (ConfinedTo.runCommand kind .shown).bind fun exit => .pure _
    · exact .throw _

/-! ## Anchored commands -/

/-- The commands of a task, with their paths starting at the root. -/
inductive Anchored (t : Task) : Command → Prop
  /-- A command that configures a variant names its two directories. -/
  | configuring {cmake : Path} {v : Variant} {c : Command} {words : List String}
      (declared : v ∈ t.registry.variants)
      (made : (t.invocationWith cmake v).configure = .ok c)
      (args : c.args = ["-S", (t.project.path t.registry.shared.sourceDir).text,
        "-B", (t.buildDir v).text] ++ words)
      (source : (t.project.path t.registry.shared.sourceDir).isAbsolute = true)
      (build : (t.buildDir v).isAbsolute = true) : Anchored t c
  /-- A command that builds a variant names its build directory. -/
  | building {cmake : Path} {v : Variant} {c : Command} {target? : Option String}
      {jobs? : Option Nat} {more : List String}
      (declared : v ∈ t.registry.variants)
      (made : (t.invocationWith cmake v).build target? jobs? = c)
      (args : c.args = ["--build", (t.buildDir v).text] ++ more)
      (build : (t.buildDir v).isAbsolute = true) : Anchored t c
  /-- The command of a target starts, in the directory it names, the file that is seen from
  anywhere. -/
  | running {r : RunRequest} {c : Command} {directory : Path}
      (made : t.runCommand r = .ok c)
      (program : c.program.isAbsolute = true)
      (cwd : c.cwd? = some directory)
      (absolute : directory.isAbsolute = true)
      (starts : ∀ (tree : FileTree) (here : Place) (environment : Environment) (l : Launch),
        tree.launch here environment c = .ok l → l.program = c.program ∧
          ∃ place, tree.resolve here c.program = .ok (place, .file l.contents true)) :
      Anchored t c

variable {cmake : Path} {r : RunRequest}

/-- Build directories are resolved against the root of the project, and absolute if it is. -/
theorem isAbsolute_buildDir (root : t.project.root.isAbsolute = true) (v : Variant) :
    (t.buildDir v).isAbsolute = true :=
  t.project.isAbsolute_path root _

/-- The command that configures a variant has the environment of the plan, and names its directories
by absolute paths. -/
theorem anchored_configure (root : t.project.root.isAbsolute = true)
    (declared : v ∈ t.registry.variants) (made : (t.invocationWith cmake v).configure = .ok c) :
    c.env = t.registry.shared.env ∧ t.Anchored c := by
  refine ⟨Invocation.env_of_configure made, ?_⟩
  obtain ⟨words, -, is⟩ := Invocation.configure_eq_ok.1 made
  refine .configuring declared made (congrArg Command.args is) ?_ (isAbsolute_buildDir root v)
  exact t.project.isAbsolute_path root _

/-- The command that builds a variant has the environment of the plan, and names its directory by an
absolute path. -/
theorem anchored_build (cmake : Path) (root : t.project.root.isAbsolute = true)
    (declared : v ∈ t.registry.variants) (target? : Option String) (jobs? : Option Nat) :
    ((t.invocationWith cmake v).build target? jobs?).env = t.registry.shared.env ∧
      t.Anchored ((t.invocationWith cmake v).build target? jobs?) := by
  refine ⟨Invocation.env_build _ target? jobs?, ?_⟩
  exact .building declared rfl (List.append_assoc _ _ _) (isAbsolute_buildDir root v)

/-- The program of a target is seen from its directory, which is seen from the build directory. -/
theorem anchored_runCommand (root : t.project.root.isAbsolute = true)
    (made : t.runCommand r = .ok c) : c.env = t.registry.shared.env ∧ t.Anchored c := by
  obtain ⟨target, v, -, -, chosen⟩ := runCommand_eq_ok.1 made
  obtain ⟨words, -, is⟩ := targetCommand_eq_ok.1 chosen
  have directory : ((t.buildDir v).join target.cwd).isAbsolute = true := by
    rw [Path.isAbsolute_join, isAbsolute_buildDir root v, Bool.true_or]
  have program : c.program.isAbsolute = true := by
    rw [is]
    show (((t.buildDir v).join target.cwd).join target.run).isAbsolute = true
    rw [Path.isAbsolute_join, directory, Bool.true_or]
  refine ⟨congrArg Command.env is, .running made program (congrArg Command.cwd? is) directory ?_⟩
  exact fun tree here environment l => FileTree.resolve_of_launch program

/-- A cleaning tries nothing. -/
theorem commands_clean (r : CleanRequest) (s : Setting) (w : World) :
    ((t.clean r).exec s w).2.commands = w.commands := by
  obtain ⟨visits, named, -, ⟨said, events, speaks⟩, -⟩ := t.clean_touches r s w
  have silent : said.filterMap Event.command? = [] := by
    refine List.filterMap_eq_nil_iff.2 fun e mem => ?_
    obtain ⟨d, -, rfl | rfl | rfl⟩ := speaks e mem <;> rfl
  unfold World.commands
  rw [events, List.filterMap_append, silent, List.append_nil]

/-- **Every process is anchored, and has the variables of the plan.**  For a project of an absolute
working directory all paths of the plan are absolute, seen from the project, and stay so when they
are seen from it once more.  A call displays and tries only commands whose paths start at the root,
and which set the variables of the registry and no others; a cleaning tries nothing. -/
theorem processes_anchored (t : Task) {cwd : Path} (absolute : cwd.isAbsolute = true)
    (opened : t.project.OpenedFrom cwd) :
    t.project.root.isAbsolute = true ∧
    (∀ q, (t.project.path q).isAbsolute = true ∧
      t.project.path (t.project.path q) = t.project.path q) ∧
    ∀ (s : Setting) (w : World) (call : Call), match call with
      | .clean _ => ((t.perform call).exec s w).2.commands = w.commands
      | _ => w.ConfinedTo (fun c => c.env = t.registry.shared.env ∧ t.Anchored c)
          ((t.perform call).exec s w).2 := by
  have root := opened.isAbsolute_root absolute
  have configuring (cmake : Path) (v : Variant) (c : Command) (declared : v ∈ t.registry.variants)
      (made : (t.invocationWith cmake v).configure = .ok c) :=
    anchored_configure root declared made
  have building (cmake : Path) (v : Variant) (target? : Option String) (jobs? : Option Nat)
      (declared : v ∈ t.registry.variants) :=
    anchored_build cmake root declared target? jobs?
  refine ⟨root, fun q => ⟨t.project.isAbsolute_path root q, t.project.path_path root q⟩, ?_⟩
  intro s w call
  have running (r : RunRequest) : ConfinedTo _ (t.run r) s :=
    (t.confinedOutline s configuring building).run .built r (fun _ => .throw _) fun c made =>
      confinedTo_start (anchored_runCommand root made)
  cases call with
  | configure variant? =>
    exact ConfinedTo.map _ ((t.confinedOutline s configuring building).configure variant?) w
  | build r => exact ConfinedTo.map _ ((t.confinedOutline s configuring building).build r) w
  | run r => exact (running r).map _ w
  | buildRun r =>
    exact ConfinedTo.map _ ((t.confinedOutline s configuring building).buildRun r (running r)) w
  | clean r =>
    -- A cleaning tries nothing at all.
    show ((Outcome.removed <$> t.clean r).exec s w).2.commands = w.commands
    rw [exec_map]
    exact commands_clean r s w

end Task

/-! ## A plan in a directory of its own -/

namespace SeparatePlan

/-- A plan whose directories are relative, and lead out of the directory that holds it. -/
def registry : Registry :=
  .construct none ⟨⟨".."⟩, byConfig ⟨"../out"⟩, .ofList [("MODE", "fast")]⟩
    [("debug", ⟨"clang", "Debug", none⟩)] [⟨"tool", "all", ⟨"./tool"⟩, .list ["-v"], ⟨"bin"⟩⟩]

/-- The plan file has a relative name. -/
def task : Task :=
  ⟨.withPlan ⟨"/w"⟩ ⟨"conf/plan.toml"⟩, registry, ⟨.normal, false⟩, false⟩

/-- A `cmake` that is named in the environment, and leaves caches. -/
def setting : Setting :=
  ⟨⟨["CMAKE=/cmake"]⟩, cachingChildren⟩

/-- A project that has been built, and lost its cache. -/
def world : World :=
  .ofTree ⟨[(["cmake"], .file .empty true), (["w"], .directory), (["w", "conf"], .directory),
    (["w", "CMakeLists.txt"], .file .empty false), (["w", "out"], .directory),
    (["w", "out", "Debug"], .directory), (["w", "out", "Debug", "bin"], .directory),
    (["w", "out", "Debug", "bin", "tool"], .file .empty true)]⟩ ⟨["w"], 0⟩

/-- What a run of the tool tries, with a build in front of it. -/
def tried : List Command :=
  ((task.perform (.buildRun ⟨"tool", none, [], none⟩)).exec setting world).2.commands

end SeparatePlan

open SeparatePlan in
/-- The theorem for that plan: two commands of `cmake` and the tool are tried. -/
theorem separate_plan_anchored :
    (Path.mk "/w").isAbsolute = true ∧ task.project.OpenedFrom ⟨"/w"⟩ ∧
    task.project.root = ⟨"/w/conf"⟩ ∧
    tried.map Command.program = [⟨"/cmake"⟩, ⟨"/cmake"⟩, ⟨"/w/conf/../out/Debug/bin/./tool"⟩] ∧
    ∀ c ∈ tried, c.env = .ofList [("MODE", "fast")] ∧ task.Anchored c := by
  have absolute : (Path.mk "/w").isAbsolute = true := by decide +kernel
  have opened : task.project.OpenedFrom ⟨"/w"⟩ := .inl ⟨_, rfl⟩
  refine ⟨absolute, opened, by decide +kernel, by decide +kernel, ?_⟩
  obtain ⟨-, -, confined⟩ := task.processes_anchored absolute opened
  obtain ⟨shown, more, -, commands, all⟩ :=
    confined setting world (.buildRun ⟨"tool", none, [], none⟩)
  intro c mem
  have new : c ∈ world.commands ++ more := commands ▸ mem
  exact all c (List.mem_append_right shown new)

end BuildVariants
