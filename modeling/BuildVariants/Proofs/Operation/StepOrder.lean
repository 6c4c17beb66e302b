import BuildVariants.Proofs.Operation.Commands
import BuildVariants.Proofs.Operation.History
import BuildVariants.Proofs.Operation.Outline
import BuildVariants.Proofs.Simulation.Trials

/-!
# The order of the steps

A build has one step or two: it configures the build directory first if that is asked for or if the
directory holds no cache.  A run with a build in front of it starts the executable of the target
after that.  Whatever the processes do, and whatever they do to the file tree, the steps are taken
in this order, none is left out unless one in front of it has failed, and none is taken after one
that failed (`Task.steps_in_order`).
-/

namespace BuildVariants

open Operation

namespace Task

variable {t : Task} {i : Invocation} {v : Variant} {s : Setting} {w : World}

/-! ## What is asked for -/

/-- Whether a build has to configure: that is asked for, or the directory holds no cache. -/
def NeedsConfiguring (r : BuildRequest) (directory : Path) (w : World) : Prop :=
  r.reconfigure = true ∨ ¬ w.HasFile (directory.child cacheName)

/-- A build fails at once, and nothing has happened. -/
def BuildRefused (t : Task) (r : BuildRequest) (s : Setting) (w : World) (d : Diagnostic) : Prop :=
  (t.acting.build r).exec s w = (.error (.diagnosed d), w)

/-- A build takes these steps, and gives the build directory of a variant when all of them
succeed. -/
def BuildFollows (t : Task) (r : BuildRequest) (s : Setting) (w : World) (v : Variant)
    (steps : List Command) : Prop :=
  Follows (t.acting.build r) s w steps ∧
    ∀ d, ((t.acting.build r).exec s w).1 = .ok d → d = t.buildDir v

/-- **How a build goes.**  It is refused if there is no such variant, no `cmake`, or no way to make
the command that configures; otherwise it configures if it has to, and builds.  Before it configures
it makes sure of the two directories, and if that fails it ends before its first step. -/
def BuildsInOrder (t : Task) (r : BuildRequest) (s : Setting) (w : World) : Prop :=
  match t.registry.variantOrDefault r.variant?, ((Host.findCMake : Simulation _) s w).1 with
  | .error d, _ => t.BuildRefused r s w d
  | .ok _, none => t.BuildRefused r s w .cmakeNotFound
  | .ok v, some cmake =>
    let i := t.invocationWith cmake v
    let building := i.build r.target? r.jobs?
    (NeedsConfiguring r (t.buildDir v) w → match i.configure with
      | .error d => t.BuildRefused r s w d
      | .ok configuring => match (prepare i : Operation Simulation Unit).exec s w with
        | (.error e, w') => (t.acting.build r).exec s w = (.error e, w') ∧ w'.trials = w.trials
        | (.ok _, _) => t.BuildFollows r s w v [configuring, building]) ∧
    (¬ NeedsConfiguring r (t.buildDir v) w → t.BuildFollows r s w v [building])

/-- **How a run with a build in front of it goes.**  The run target is looked up first; the build is
the one of its build target, for the same variant; and only if it succeeds is the executable looked
for in the directory that was built, and tried if it is there. -/
def RunsInOrder (t : Task) (r : RunRequest) (s : Setting) (w : World) : Prop :=
  let out := (t.acting.buildRun r).exec s w
  match t.registry.target r.target with
  | .error d => out = (.error (.diagnosed d), w)
  | .ok target =>
    match (t.acting.build ⟨r.variant?, some target.build, r.jobs?, false⟩).exec s w with
    | (.error e, w') => out = (.error e, w')
    | (.ok directory, w') => ∃ v, t.registry.variantOrDefault r.variant? = .ok v ∧
      directory = t.buildDir v ∧
      match t.targetCommand target v r.extraArgs with
      | .error d => out = (.error (.diagnosed d), w')
      | .ok c =>
        c.program = (directory.join target.cwd).join target.run ∧
        c.cwd? = some (directory.join target.cwd) ∧
        (w'.HasFile c.program → ∃ result, out.2.trials = w'.trials ++ [⟨c, result⟩]) ∧
        (¬ w'.HasFile c.program → out = (.error (.missingExecutable c.program r.target), w'))

/-! ## Configuring -/

/-- Configuring in earnest makes sure of the build directory, and takes one step. -/
theorem exec_configureVariant (acting : t.dryRun = false) {c : Command}
    (made : i.configure = .ok c) :
    (t.configureVariant i v).exec s w
      = (do
          prepare i
          t.step .configuring (v.name ++ " (" ++ i.buildDir.text ++ ")") c
          : Operation Simulation Unit).exec s w := by
  have given : (ofExcept i.configure : Operation Simulation Command).exec s w = (.ok c, w) := by
    rw [made]
    rfl
  unfold configureVariant
  rw [exec_bind_of_ok given, if_neg (Bool.eq_false_iff.1 acting)]

/-- In earnest, configuring a variant follows a script of one command once the directories are
made. -/
theorem follows_configureVariant (acting : t.dryRun = false) {c : Command}
    (made : i.configure = .ok c) {w' : World} (prepared : (prepare i).exec s w = (.ok (), w')) :
    Follows (t.configureVariant i v) s w [c] := by
  have quiet := trials_prepare i s w
  rw [prepared] at quiet
  have same := exec_configureVariant (v := v) (s := s) (w := w) acting made
  refine Follows.of_exec_eq ?_ (congrArg Prod.snd same) (congrArg (·.1.isOk) same)
  exact Follows.quiet_bind prepared quiet (follows_step acting _ _ c)

theorem exec_configureVariant_of_error {d : Diagnostic} (refused : i.configure = .error d) :
    (t.configureVariant i v).exec s w = (.error (.diagnosed d), w) := by
  unfold configureVariant
  rw [refused]
  exact exec_bind_of_error rfl _

/-- Where there is no cache, or where it is asked for, the variant is configured. -/
theorem exec_configureIfNeeded_of_needed {r : BuildRequest}
    (needed : NeedsConfiguring r i.buildDir w) :
    (t.configureIfNeeded r.reconfigure i v).exec s w = (t.configureVariant i v).exec s w := by
  unfold configureIfNeeded
  split
  · rfl
  · next not_asked =>
    have missing := needed.resolve_left not_asked
    rw [← Simulation.isFile_iff s] at missing
    rw [exec_ask_bind]
    show (if ((Host.isFile (i.buildDir.child cacheName) : Simulation _) s w).1 then _ else _ :
      Operation Simulation Unit).exec s w = _
    rw [if_neg missing]

/-- Where there is a cache nothing is tried. -/
theorem follows_configureIfNeeded_of_not_needed {r : BuildRequest}
    (found : ¬ NeedsConfiguring r i.buildDir w) :
    Follows (t.configureIfNeeded r.reconfigure i v) s w [] := by
  obtain ⟨not_asked, there⟩ := not_or.1 found
  have present := (Simulation.isFile_iff s w _).2 (Classical.not_not.1 there)
  have is : (t.configureIfNeeded r.reconfigure i v).exec s w
      = (ask (Host.debug (i.buildDir.text ++ " already configured")) :
          Operation Simulation Unit).exec s w := by
    unfold configureIfNeeded
    rw [if_neg not_asked, exec_ask_bind]
    show (if ((Host.isFile (i.buildDir.child cacheName) : Simulation _) s w).1 then _ else _ :
      Operation Simulation Unit).exec s w = _
    rw [if_pos present]
  refine Follows.of_quiet ?_ ?_
  · rw [is]
    exact World.trials_record_emitted w _
  · rw [is]
    rfl

/-! ## Building -/

/-- A build of a variant whose commands are known. -/
theorem exec_build {r : BuildRequest} {cmake : Path}
    (chosen : t.registry.variantOrDefault r.variant? = .ok v)
    (found : ((Host.findCMake : Simulation _) s w).1 = some cmake) :
    (t.build r).exec s w
      = (do
          t.configureIfNeeded r.reconfigure (t.invocationWith cmake v) v
          t.step .building (buildName r.target? v)
            ((t.invocationWith cmake v).build r.target? r.jobs?)
          return t.buildDir v : Operation Simulation Path).exec s w := by
  have located : t.cmake.exec s w = (.ok cmake, w) := by
    rw [exec_cmake, found]
  have invoked : (t.invocation v).exec s w = (.ok (t.invocationWith cmake v), w) :=
    exec_bind_of_ok located _
  unfold build
  rw [chosen]
  exact exec_bind_of_ok invoked _

theorem follows_build {r : BuildRequest} {configuring : List Command} {building : Command}
    (acting : t.dryRun = false)
    (configured : Follows (t.configureIfNeeded r.reconfigure i v) s w configuring) :
    Follows (do
      t.configureIfNeeded r.reconfigure i v
      t.step .building (buildName r.target? v) building
      return i.buildDir : Operation Simulation Path) s w (configuring ++ [building]) := by
  refine configured.bind fun _ w' _ => ?_
  exact (follows_step acting _ _ building).bind fun _ w' _ => Follows.pure i.buildDir

/-- The checks in front of a build try nothing, so the script is that of its two steps. -/
theorem buildFollows_of_follows {r : BuildRequest} {cmake : Path} {configuring : List Command}
    (chosen : t.registry.variantOrDefault r.variant? = .ok v)
    (found : ((Host.findCMake : Simulation _) s w).1 = some cmake)
    (configured : Follows
      (t.acting.configureIfNeeded r.reconfigure (t.invocationWith cmake v) v) s w configuring) :
    t.BuildFollows r s w v
      (configuring ++ [(t.invocationWith cmake v).build r.target? r.jobs?]) := by
  have opened := exec_build (t := t.acting) chosen found
  constructor
  · exact (follows_build rfl configured).of_exec_eq (congrArg Prod.snd opened)
      (congrArg (·.1.isOk) opened)
  · intro d ok
    rw [opened] at ok
    obtain ⟨-, w₁, -, stepped⟩ := exec_bind_eq_ok.1 (Prod.ext ok rfl)
    obtain ⟨-, w₂, -, given⟩ := exec_bind_eq_ok.1 stepped
    exact (Except.ok.inj (congrArg Prod.fst given)).symm

/-- The cases are those of the operation: a variant that is not known, no `cmake`, arguments that
cannot be split, directories that cannot be made; and then the script with the step that configures
or without it. -/
theorem buildsInOrder (t : Task) (r : BuildRequest) (s : Setting) (w : World) :
    t.BuildsInOrder r s w := by
  unfold BuildsInOrder
  cases chosen : t.registry.variantOrDefault r.variant? with
  | error d =>
    show (t.acting.build r).exec s w = _
    unfold build
    rw [show t.acting.registry.variantOrDefault r.variant? = .error d from chosen]
    exact exec_bind_of_error rfl _
  | ok v =>
    cases found : ((Host.findCMake : Simulation _) s w).1 with
    | none =>
      have missing : t.acting.cmake.exec s w = (.error (.diagnosed .cmakeNotFound), w) := by
        rw [exec_cmake, found]
        rfl
      show (t.acting.build r).exec s w = _
      unfold build
      rw [show t.acting.registry.variantOrDefault r.variant? = .ok v from chosen]
      exact exec_bind_of_error (exec_bind_of_error missing _) _
    | some cmake =>
      constructor
      · intro needed
        have same : (t.acting.configureIfNeeded r.reconfigure (t.invocationWith cmake v) v).exec s w
            = _ := exec_configureIfNeeded_of_needed needed
        cases made : (t.invocationWith cmake v).configure with
        | error d =>
          show (t.acting.build r).exec s w = _
          rw [exec_build (t := t.acting) chosen found]
          exact exec_bind_of_error (same.trans (exec_configureVariant_of_error made)) _
        | ok c =>
          have opened := exec_configureVariant (t := t.acting) (v := v) (s := s) (w := w) rfl made
          -- Even where the directories cannot be made, nothing has been tried by then.
          have quiet := trials_prepare (t.invocationWith cmake v) s w
          rcases prepared : (prepare (t.invocationWith cmake v)).exec s w with ⟨e | _, w'⟩
          · rw [prepared] at quiet
            refine ⟨?_, quiet⟩
            rw [exec_build (t := t.acting) chosen found]
            refine exec_bind_of_error ?_ _
            exact (same.trans opened).trans (exec_bind_of_error prepared _)
          · have follows :=
              follows_configureVariant (t := t.acting) (v := v) rfl made prepared
            exact buildFollows_of_follows chosen found
              (follows.of_exec_eq (congrArg Prod.snd same) (congrArg (·.1.isOk) same))
      · intro ready
        exact buildFollows_of_follows chosen found (follows_configureIfNeeded_of_not_needed ready)

/-! ## Building and running -/

/-- A run in earnest of a command that was made. -/
theorem run_of_runCommand {r : RunRequest} {c : Command} (made : t.runCommand r = .ok c) :
    (w.HasFile c.program →
      ∃ result, ((t.acting.run r).exec s w).2.trials = w.trials ++ [⟨c, result⟩]) ∧
    (¬ w.HasFile c.program →
      (t.acting.run r).exec s w = (.error (.missingExecutable c.program r.target), w)) := by
  -- The command has been made, so what is left of the run is its start.
  have opened : (t.acting.run r).exec s w
      = (if ((Host.isFile c.program : Simulation _) s w).1 then (do
          ask (Host.status t.shell .running c.display)
          let exit ← Operation.runCommand c .shown
          return exit.ending.code?.getD 1)
        else throw (.missingExecutable c.program r.target)
        : Operation Simulation Nat).exec s w := by
    unfold run
    rw [show t.acting.runCommand r = .ok c from made]
    rfl
  rw [opened, ← Simulation.isFile_iff s]
  constructor
  · intro there
    rw [if_pos there, exec_ask_bind]
    obtain ⟨result, w', grown, is⟩ := exec_runCommand c .shown s
      ((Host.status t.shell .running c.display : Simulation _) s w).2
    refine ⟨result, ?_⟩
    rw [(Simulation.Tells.status t.shell .running c.display s w).trials_eq] at grown
    rw [exec_bind, is]
    cases result <;> exact grown
  · intro missing
    rw [if_neg missing]
    rfl

/-- A build ends before its first step, or it takes the steps of a variant. -/
theorem BuildsInOrder.ended_or_follows {r : BuildRequest} (h : t.BuildsInOrder r s w) :
    (∃ e w', (t.acting.build r).exec s w = (.error e, w') ∧ w'.trials = w.trials) ∨
    ∃ v steps, t.registry.variantOrDefault r.variant? = .ok v ∧ t.BuildFollows r s w v steps := by
  unfold BuildsInOrder at h
  split at h
  · exact .inl ⟨_, w, h, rfl⟩
  · exact .inl ⟨_, w, h, rfl⟩
  · next v cmake chosen found =>
    by_cases needed : NeedsConfiguring r (t.buildDir v) w
    · have configured := h.1 needed
      split at configured
      · exact .inl ⟨_, w, configured, rfl⟩
      · split at configured
        · exact .inl ⟨_, _, configured⟩
        · exact .inr ⟨v, _, chosen, configured⟩
    · exact .inr ⟨v, _, chosen, h.2 needed⟩

/-- A build that succeeds gives the build directory of its variant, and no process has failed. -/
theorem succeeded_of_build {r : BuildRequest} {d : Path} {w' : World}
    (built : (t.acting.build r).exec s w = (.ok d, w')) :
    ∃ v tried, t.registry.variantOrDefault r.variant? = .ok v ∧ d = t.buildDir v ∧
      w'.trials = w.trials ++ tried ∧ ∀ a ∈ tried, a.succeeded := by
  rcases (t.buildsInOrder r s w).ended_or_follows with
    ⟨e, w₁, ended, -⟩ | ⟨v, steps, chosen, follows⟩
  · rw [ended] at built
    cases built
  · obtain ⟨⟨tried, grown, played⟩, given⟩ := follows
    rw [built] at grown played given
    exact ⟨v, tried, chosen, given d rfl, grown, (played.done_iff.1 rfl).2⟩

/-- A run does not start behind a build that fails. -/
theorem exec_buildRun_of_error {r : RunRequest} {target : Target} {e : Failure} {w' : World}
    (known : t.registry.target r.target = .ok target)
    (failed : (t.build (RunRequest.buildRequest r target)).exec s w = (.error e, w')) :
    (t.buildRun r).exec s w = (.error e, w') := by
  unfold buildRun
  rw [known]
  exact (exec_bind_of_ok rfl _).trans (exec_bind_of_error failed _)

/-- After the build, the run goes on in the world that it has left. -/
theorem exec_buildRun_of_ok {r : RunRequest} {target : Target} {directory : Path} {w' : World}
    (known : t.registry.target r.target = .ok target)
    (built : (t.build (RunRequest.buildRequest r target)).exec s w = (.ok directory, w')) :
    (t.buildRun r).exec s w = (t.run r).exec s w' := by
  unfold buildRun
  rw [known]
  exact (exec_bind_of_ok rfl _).trans (exec_bind_of_ok built _)

/-- The cases are those of the operation: a target that is not known, arguments that cannot be
expanded, no executable; and then the command of the target. -/
theorem runsInOrder (t : Task) (r : RunRequest) (s : Setting) (w : World) :
    t.RunsInOrder r s w := by
  unfold RunsInOrder
  cases known : t.registry.target r.target with
  | error d =>
    show (t.acting.buildRun r).exec s w = _
    unfold buildRun
    rw [show t.acting.registry.target r.target = .error d from known]
    exact exec_bind_of_error rfl _
  | ok target =>
    rcases built : (t.acting.build ⟨r.variant?, some target.build, r.jobs?, false⟩).exec s w
      with ⟨e | directory, w'⟩
    · simp only [built]
      exact exec_buildRun_of_error (t := t.acting) known built
    · -- The run looks up its variant once more, and finds the one that was built.
      obtain ⟨v, -, chosen, rfl, -, -⟩ := succeeded_of_build built
      simp only [built]
      refine ⟨v, chosen, rfl, ?_⟩
      rw [exec_buildRun_of_ok (t := t.acting) known built]
      have made : t.runCommand r = t.targetCommand target v r.extraArgs := by
        unfold runCommand
        rw [known, chosen]
      cases command : t.targetCommand target v r.extraArgs with
      | error d =>
        show (t.acting.run r).exec s w' = _
        unfold run
        rw [show t.acting.runCommand r = .error d from made.trans command]
        exact exec_bind_of_error rfl _
      | ok c =>
        obtain ⟨tries, misses⟩ := run_of_runCommand (s := s) (w := w') (made.trans command)
        refine ⟨?_, ?_, tries, misses⟩
        all_goals
          unfold targetCommand at command
          split at command
          · cases command
          · cases command
            rfl

/-- A script is followed up to its first failure, so the same is true of a build. -/
theorem stopsAtFailure_build (t : Task) (r : BuildRequest) (s : Setting) (w : World) :
    w.StopsAtFailure ((t.acting.build r).exec s w).2 := by
  rcases (t.buildsInOrder r s w).ended_or_follows with
    ⟨e, w₁, ended, quiet⟩ | ⟨v, steps, -, follows, -⟩
  · rw [ended]
    exact ⟨[], quiet.trans (List.append_nil _).symm, nofun⟩
  · obtain ⟨tried, grown, played⟩ := follows
    exact ⟨tried, grown, played.earlier⟩

/-- The executable is tried after the steps of a build that have all succeeded. -/
theorem stopsAtFailure_buildRun (t : Task) (r : RunRequest) (s : Setting) (w : World) :
    w.StopsAtFailure ((t.acting.buildRun r).exec s w).2 := by
  have runs := t.runsInOrder r s w
  unfold RunsInOrder at runs
  split at runs
  · next d _ =>
    rw [show _ = _ from runs]
    exact .refl w
  · next target _ =>
    split at runs
    · next e w' built =>
      have stops := t.stopsAtFailure_build ⟨r.variant?, some target.build, r.jobs?, false⟩ s w
      rw [built] at stops
      rw [show _ = _ from runs]
      exact stops
    · next directory w' built =>
      obtain ⟨-, tried, -, -, grown, succeeded⟩ := succeeded_of_build built
      obtain ⟨v, -, -, runs⟩ := runs
      -- All steps of the build have succeeded, so any of them may be followed by the run.
      have nothing : w.StopsAtFailure w' :=
        ⟨tried, grown, fun a ha => succeeded a (List.dropLast_subset tried ha)⟩
      split at runs
      · rw [show _ = _ from runs]
        exact nothing
      · next c _ =>
        obtain ⟨-, -, tries, misses⟩ := runs
        by_cases there : w'.HasFile c.program
        · obtain ⟨result, one⟩ := tries there
          refine ⟨tried ++ [⟨c, result⟩], ?_, ?_⟩
          · rw [one, grown, List.append_assoc]
          · rw [List.dropLast_concat]
            exact succeeded
        · rw [misses there]
          exact nothing

/-- **The steps are taken in order.**  This is how a build goes, and a run with a build in front of
it, for all that the processes may do; and no process is tried after one that failed. -/
theorem steps_in_order (t : Task) (s : Setting) (w : World) :
    (∀ r, t.BuildsInOrder r s w) ∧
    ∀ r, t.RunsInOrder r s w ∧ w.StopsAtFailure ((t.acting.buildRun r).exec s w).2 := by
  refine ⟨fun r => t.buildsInOrder r s w, ?_⟩
  intro r
  exact ⟨t.runsInOrder r s w, t.stopsAtFailure_buildRun r s w⟩

end Task

end BuildVariants
