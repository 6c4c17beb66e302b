import BuildVariants.Proofs.Simulation.Trials

/-!
# The commands of an operation

What kinds of commands the operations make: those of `cmake` are started where the program is,
those of a target in a directory of their own.  Before a command that configures is started, the
program makes sure of the build directory: it keeps what making a directory keeps, and nothing
else has happened (`Task.events_prepare`).
-/

namespace BuildVariants

namespace Invocation

variable {i : Invocation} {c : Command}

/-- The command that configures fails to be made only if the arguments of the variant do. -/
theorem configure_eq_ok :
    i.configure = .ok c ↔ ∃ words, i.resolved.words = .ok words ∧
      c = ((Command.ofProgram i.cmake).addArgs
        (["-S", i.sourceDir.text, "-B", i.buildDir.text] ++ words)).addEnv i.env.entries := by
  unfold configure
  constructor
  · intro h
    split at h
    · cases h
    · next words resolved =>
      cases h
      exact ⟨words, resolved, rfl⟩
  · rintro ⟨words, resolved, rfl⟩
    rw [resolved]

/-- The command that configures is run where the program is; only a run target has a directory of
its own. -/
theorem cwd?_of_configure (h : i.configure = .ok c) : c.cwd? = none := by
  obtain ⟨words, -, rfl⟩ := configure_eq_ok.1 h
  rfl

theorem env_of_configure (h : i.configure = .ok c) : c.env = i.env := by
  obtain ⟨words, -, rfl⟩ := configure_eq_ok.1 h
  exact Variables.ofList_entries i.env

theorem env_build (i : Invocation) (target : Option String) (jobs : Option Nat) :
    (i.build target jobs).env = i.env :=
  Variables.ofList_entries i.env

end Invocation

namespace Task

/-- The command of a target fails to be made only if the arguments of the target do. -/
theorem targetCommand_eq_ok {t : Task} {target : Target} {v : Variant} {extraArgs : List String}
    {c : Command} : t.targetCommand target v extraArgs = .ok c ↔
      ∃ words, target.args.expand = .ok words ∧
        c = ⟨((t.buildDir v).join target.cwd).join target.run, words ++ extraArgs,
          t.registry.shared.env, some ((t.buildDir v).join target.cwd)⟩ := by
  have given : Variables.empty.insertAll t.registry.shared.env.entries = t.registry.shared.env :=
    Variables.ofList_entries _
  unfold targetCommand
  cases target.args.expand with
  | error e => exact ⟨nofun, nofun⟩
  | ok words =>
    show Except.ok (Command.mk _ _ (Variables.empty.insertAll t.registry.shared.env.entries) _) = _
      ↔ _
    rw [given]
    constructor
    · rintro ⟨⟩
      exact ⟨words, rfl, rfl⟩
    · rintro ⟨_, ⟨⟩, rfl⟩
      rfl

/-- The process of a run is the command of its target for its variant. -/
theorem runCommand_eq_ok {t : Task} {r : RunRequest} {c : Command} :
    t.runCommand r = .ok c ↔ ∃ target v, t.registry.target r.target = .ok target ∧
      t.registry.variantOrDefault r.variant? = .ok v ∧
      t.targetCommand target v r.extraArgs = .ok c := by
  unfold runCommand
  constructor
  · intro h
    split at h
    · cases h
    · next target known =>
      split at h
      · cases h
      · next v chosen => exact ⟨target, v, known, chosen, h⟩
  · rintro ⟨target, v, known, chosen, made⟩
    simp only [known, chosen, made]

/-- When the target and the variant are known, only the arguments of the target can be at fault. -/
theorem runCommand_eq_error {t : Task} {r : RunRequest} {target : Target} {v : Variant}
    {d : Diagnostic} (known : t.registry.target r.target = .ok target)
    (chosen : t.registry.variantOrDefault r.variant? = .ok v) :
    t.runCommand r = .error d ↔ target.args.expand = .error d := by
  unfold runCommand targetCommand
  simp only [known, chosen]
  cases target.args.expand with
  | error e =>
    constructor
    · rintro ⟨⟩
      rfl
    · rintro ⟨⟩
      rfl
  | ok words => exact ⟨nofun, nofun⟩

/-- A target is run in a directory of its own. -/
theorem cwd?_of_runCommand {t : Task} {r : RunRequest} {c : Command}
    (h : t.runCommand r = .ok c) : ∃ d, c.cwd? = some d := by
  obtain ⟨target, v, -, -, made⟩ := runCommand_eq_ok.1 h
  obtain ⟨words, -, rfl⟩ := targetCommand_eq_ok.1 made
  exact ⟨_, rfl⟩

open Operation

/-- Making sure of the build directory keeps what making a directory keeps. -/
theorem keeps_prepare {I : World → Prop} {s : Setting} (i : Invocation)
    (made : ∀ w, I w → I (w.withTree (w.tree.createAll w.cwd i.buildDir).2)) :
    Keeps I (prepare i) s := by
  have looked (p : Path) : Keeps I (ask (Host.pathExists p)) s := .ask_of_looks fun _ _ => rfl
  unfold prepare
  refine (looked _).bind fun found => ?_
  cases found with
  | false => exact .diagnose fun _ => id
  | true =>
    rw [if_pos rfl]
    unfold Host.ensureDirectory
    refine (looked _).bind fun there => ?_
    cases there with
    | true => exact .pure fun _ => id
    | false =>
      have creation : Keeps I (ask (Host.createAll i.buildDir)) s := .ask made
      refine creation.bind fun result => ?_
      cases result with
      | ok _ => exact .pure fun _ => id
      | error e => exact .throw fun _ => id

/-- Making sure of the build directory writes nothing and tries nothing. -/
theorem events_prepare (i : Invocation) (s : Setting) (w : World) :
    ((prepare i : Operation Simulation Unit).exec s w).2.events = w.events := by
  have keeps : Keeps (fun w' => w'.events = w.events) (prepare i) s :=
    keeps_prepare i fun _ same => same
  exact keeps.exec_snd rfl

/-- Making sure of the directories tries no process. -/
theorem trials_prepare (i : Invocation) (s : Setting) (w : World) :
    ((prepare i : Operation Simulation Unit).exec s w).2.trials = w.trials :=
  congrArg (List.filterMap Event.trial?) (events_prepare i s w)

end Task

end BuildVariants
