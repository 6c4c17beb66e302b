import BuildVariants.Proofs.Operation.Anchoring

/-!
# When a diagnostic is given

An operation makes its checks before it does anything: the variant is looked up, `cmake` is looked
for, the arguments are cut into words, and the source directory is looked into; then directories
are made, and commands displayed or tried.  So an operation that ends with a diagnostic has left
the world as it was (`Task.world_eq_of_diagnosed`).  In the proof an operation has two halves: in
the first one a diagnostic may come but nothing has happened (`Operation.DiagnosesFirst`), and in
the second one anything may happen but no diagnostic comes (`Operation.NeverDiagnoses`).

A run with a build in front of it is the exception.  It puts the checks of the run behind the
build, and one of them has not been made by then: whether the arguments of the target can be cut
into words (`Task.buildRun_diagnosed`).
-/

namespace BuildVariants

namespace Operation

variable {α β : Type} {s : Setting} {x : Operation Simulation α} {f : α → Operation Simulation β}

/-! ## The two halves of an operation -/

/-- Whatever else goes wrong in an operation, it does not end with a diagnostic. -/
def NeverDiagnoses (x : Operation Simulation α) (s : Setting) : Prop :=
  ∀ w d, (x.exec s w).1 ≠ .error (.diagnosed d)

/-- When an operation ends with a diagnostic, nothing has happened. -/
def DiagnosesFirst (x : Operation Simulation α) (s : Setting) : Prop :=
  ∀ w d, (x.exec s w).1 = .error (.diagnosed d) → (x.exec s w).2 = w

namespace NeverDiagnoses

theorem pure (a : α) : NeverDiagnoses (Pure.pure a) s := nofun

theorem ask (x : Simulation α) : NeverDiagnoses (Operation.ask x) s := nofun

/-- A failure that is no diagnostic. -/
theorem throw {e : Failure} (other : ∀ d, e ≠ .diagnosed d) :
    NeverDiagnoses (MonadExcept.throw e : Operation Simulation α) s :=
  fun _ d failed => other d (Except.error.inj failed)

theorem bind (hx : NeverDiagnoses x s) (hf : ∀ a, NeverDiagnoses (f a) s) :
    NeverDiagnoses (x >>= f) s := by
  intro w d failed
  rcases result : x.exec s w with ⟨e | a, w'⟩
  · rw [exec_bind_of_error result] at failed
    cases failed
    exact hx w d (congrArg Prod.fst result)
  · rw [exec_bind_of_ok result] at failed
    exact hf a w' d failed

/-- A command that cannot be started is a failure of the step, and no diagnostic. -/
theorem runCommand (c : Command) (wiring : Wiring) :
    NeverDiagnoses (Operation.runCommand c wiring) s := by
  obtain ⟨message, is⟩ := exists_runCommand_eq c wiring
  rw [is]
  refine (ask _).bind fun _ => (ask _).bind fun result => ?_
  cases result with
  | ok exit => exact pure exit
  | error e => exact throw nofun

end NeverDiagnoses

namespace DiagnosesFirst

/-- An operation without any diagnosis makes none after an effect. -/
theorem of_never (h : NeverDiagnoses x s) : DiagnosesFirst x s :=
  fun w d failed => absurd failed (h w d)

/-- A diagnosis that is made at once comes before any effect. -/
theorem diagnose (d : Diagnostic) :
    DiagnosesFirst (Operation.diagnose d : Operation Simulation α) s :=
  fun _ _ _ => rfl

/-- Behind what changes nothing, nothing has happened. -/
theorem still_bind (still : ∀ w, (x.exec s w).2 = w) (hf : ∀ a, DiagnosesFirst (f a) s) :
    DiagnosesFirst (x >>= f) s := by
  intro w d failed
  rcases result : x.exec s w with ⟨e | a, w'⟩
  all_goals
    have same : w' = w := (congrArg Prod.snd result).symm.trans (still w)
    rw [same] at result
  · rw [exec_bind_of_error result]
  · rw [exec_bind_of_ok result] at failed ⊢
    exact hf a w d failed

/-- The second half of an operation may do anything but give a diagnostic. -/
theorem bind_never (hx : DiagnosesFirst x s) (hf : ∀ a, NeverDiagnoses (f a) s) :
    DiagnosesFirst (x >>= f) s := by
  intro w d failed
  rcases result : x.exec s w with ⟨e | a, w'⟩
  · rw [exec_bind_of_error result] at failed ⊢
    cases failed
    exact (congrArg Prod.snd result).symm.trans (hx w d (congrArg Prod.fst result))
  · rw [exec_bind_of_ok result] at failed
    exact absurd failed (hf a w' d)

/-- Looking around is no effect, so a diagnosis may still follow it. -/
theorem looks_bind {x : Simulation α} (looks : x.Looks) (hf : ∀ a, DiagnosesFirst (f a) s) :
    DiagnosesFirst (Operation.ask x >>= f) s :=
  still_bind (looks s) hf

theorem map (f : α → β) (h : DiagnosesFirst x s) : DiagnosesFirst (f <$> x) s := by
  rw [map_eq_pure_bind]
  exact h.bind_never fun a => .pure (f a)

end DiagnosesFirst

/-- An operation that makes one check gives a diagnostic just when that fails. -/
theorem exec_ofExcept_bind_diagnosed_iff {r : Except Diagnostic α} {w w' : World} {d : Diagnostic}
    (later : ∀ a, NeverDiagnoses (f a) s) :
    (ofExcept r >>= f).exec s w = (.error (.diagnosed d), w') ↔ r = .error d ∧ w' = w := by
  cases r with
  | error e =>
    rw [exec_bind_of_error rfl]
    constructor
    · rintro ⟨⟩
      exact ⟨rfl, rfl⟩
    · rintro ⟨⟨⟩, rfl⟩
      rfl
  | ok a =>
    rw [exec_bind_of_ok rfl]
    exact iff_of_false (fun failed => later a w d (congrArg Prod.fst failed)) nofun

end Operation

namespace Task

open Operation

variable (t : Task) {s : Setting} {w : World}

/-! ## The operations -/

/-- A step can only fail with the outcome of its process. -/
theorem neverDiagnoses_step (status : Status) (what : String) (c : Command) :
    NeverDiagnoses (t.step status what c) s := by
  unfold step
  split
  · exact .ask _
  · split
    · refine (NeverDiagnoses.ask _).bind fun _ => (NeverDiagnoses.runCommand c .shown).bind ?_
      intro exit
      split
      · exact .pure ()
      · exact .throw nofun
    · refine (NeverDiagnoses.ask _).bind fun started => (NeverDiagnoses.ask _).bind fun _ => ?_
      refine (NeverDiagnoses.runCommand c .kept).bind fun exit => ?_
      split
      · exact (NeverDiagnoses.ask _).bind fun finished => .ask _
      · exact .throw nofun

/-- The source directory is looked into before the build directory is made. -/
theorem diagnosesFirst_prepareFor (i : Invocation) : DiagnosesFirst (t.prepareFor i) s := by
  unfold prepareFor prepare
  split
  · exact .of_never (.pure ())
  · refine .looks_bind (fun _ _ => rfl) fun found => ?_
    split
    · refine .of_never ?_
      unfold Host.ensureDirectory
      refine (NeverDiagnoses.ask _).bind fun there => ?_
      split
      · exact .pure ()
      · refine (NeverDiagnoses.ask _).bind fun result => ?_
        cases result with
        | ok _ => exact .pure ()
        | error e => exact .throw nofun
    · exact .diagnose _

/-- While an operation makes its checks, a diagnostic finds that nothing has happened, and later on
there is none. -/
def ChecksFirst {α : Type} (s : Setting) : Stage → Operation Simulation α → Prop
  | .checking, x => DiagnosesFirst x s
  | _, x => NeverDiagnoses x s

/-- Behind the last check any operation will do that makes none. -/
theorem ChecksFirst.of_never {α : Type} {x : Operation Simulation α} (h : NeverDiagnoses x s)
    (stage : Stage) : ChecksFirst s stage x := by
  cases stage with
  | checking => exact DiagnosesFirst.of_never h
  | prepared | configured | built => exact h

/-- **All checks come first**: those of the variant, of `cmake`, of the arguments and of the source
directory; the directories are made, and the two steps taken, in the second half. -/
def checkingOutline (s : Setting) : Outline Simulation Simulation t t.manner t.manner where
  Holds stage x _ := ChecksFirst s stage x
  pure stage x := .of_never (.pure x) stage
  diagnose := .diagnose
  cmake_bind := DiagnosesFirst.still_bind fun w => congrArg Prod.snd (t.exec_cmake s w)
  prepare_bind i _ _ k := (t.diagnosesFirst_prepareFor i).bind_never fun _ => k
  configuring_bind _ _ k := (t.neverDiagnoses_step _ _ _).bind fun _ => k
  isConfigured_bind _ found missing := DiagnosesFirst.looks_bind (fun _ _ => rfl) fun
    | true => .of_never found
    | false => missing
  debug_bind k := (NeverDiagnoses.ask _).bind fun _ => k
  building_bind _ k := (t.neverDiagnoses_step _ _ _).bind fun _ => k

/-- Whatever a build diagnoses, it diagnoses before its first effect. -/
theorem diagnosesFirst_build (r : BuildRequest) : DiagnosesFirst (t.build r) s :=
  (t.checkingOutline s).build r

/-- Once the command of a target is made, only the missing executable or its process can fail, and
neither is a diagnostic. -/
theorem neverDiagnoses_start (r : RunRequest) (c : Command) : NeverDiagnoses (t.start r c) s := by
  unfold start
  split
  · have displayed : NeverDiagnoses (displayCommand c) s := fun w d failed =>
      nomatch (exec_displayCommand_fst c).symm.trans failed
    exact displayed.bind fun _ => .pure 0
  · refine (NeverDiagnoses.ask _).bind fun found => ?_
    split
    · refine (NeverDiagnoses.ask _).bind fun _ => ?_
      exact (NeverDiagnoses.runCommand c .shown).bind fun exit => .pure _
    · exact .throw nofun

/-- A run gives a diagnostic just when its command cannot be made. -/
theorem exec_run_diagnosed_iff {r : RunRequest} {d : Diagnostic} {w' : World} :
    (t.run r).exec s w = (.error (.diagnosed d), w') ↔ t.runCommand r = .error d ∧ w' = w := by
  rw [run_eq]
  exact exec_ofExcept_bind_diagnosed_iff fun c => t.neverDiagnoses_start r c

theorem neverDiagnoses_displayRemovals (ds : List Path) :
    NeverDiagnoses (displayRemovals ds) s := by
  induction ds with
  | nil => exact .pure ()
  | cons d ds ih => exact (NeverDiagnoses.ask _).bind fun _ => ih

/-- The induction is on the directories. -/
theorem neverDiagnoses_removeAll (ds : List Path) : NeverDiagnoses (t.removeAll ds) s := by
  have removed (d : Path) : NeverDiagnoses (removeIfPresent d) s := by
    refine (NeverDiagnoses.ask _).bind fun there => ?_
    split
    · refine (NeverDiagnoses.ask _).bind fun result => ?_
      cases result with
      | ok _ => exact .pure true
      | error e => exact .throw nofun
    · exact .pure false
  induction ds with
  | nil => exact .pure []
  | cons d ds ih =>
    refine (removed d).bind fun gone => ?_
    split
    · exact (NeverDiagnoses.ask _).bind fun _ => ih.bind fun more => .pure _
    · exact (NeverDiagnoses.ask _).bind fun _ => ih

/-- A cleaning that has chosen its variants makes no further check. -/
theorem neverDiagnoses_remove (ds : List Path) : NeverDiagnoses (t.remove ds) s := by
  unfold remove
  split
  · exact (neverDiagnoses_displayRemovals ds).bind fun _ => .pure []
  · exact t.neverDiagnoses_removeAll ds

/-- **A diagnostic comes before everything else.**  When configuring, building, running or cleaning
ends with a diagnostic, in earnest or displayed only, the world is as it was: no process has been
tried, nothing has been written, and the file tree is the same. -/
theorem world_eq_of_diagnosed (t : Task) (s : Setting) (w : World) (call : Call) (d : Diagnostic)
    (single : ∀ r, call ≠ .buildRun r)
    (failed : ((t.perform call).exec s w).1 = .error (.diagnosed d)) :
    ((t.perform call).exec s w).2 = w := by
  have first : DiagnosesFirst (t.perform call) s := by
    cases call with
    | configure variant? => exact .map _ ((t.checkingOutline s).configure variant?)
    | build r => exact .map _ (t.diagnosesFirst_build r)
    | run r =>
      refine .map _ ((t.checkingOutline s).run .checking r .diagnose fun c _ => ?_)
      exact DiagnosesFirst.of_never (t.neverDiagnoses_start r c)
    | buildRun r => exact absurd rfl (single r)
    | clean r =>
      refine .map _ ((t.checkingOutline s).clean r fun vs _ => ?_)
      exact DiagnosesFirst.of_never (t.neverDiagnoses_remove _)
  exact first w d failed

end Task

/-! ## A target with an unbalanced quote -/

namespace UnbalancedTarget

/-- A plan with one variant, and a target whose arguments cannot be cut into words. -/
def plan : Plan where
  options := ⟨none, none, none⟩
  variants := [⟨none, "clang", "Debug", none⟩]
  targets := .ofList [("tool", ⟨none, none, .line "'", none⟩)]

/-- The plan in the directory `/p`. -/
def task : Task :=
  ⟨.withPlan ⟨"/p"⟩ ⟨planFileName⟩, plan.registry none, ⟨.normal, false⟩, false⟩

/-- A `cmake` that is named in the environment, and leaves caches. -/
def setting : Setting :=
  ⟨⟨["CMAKE=/cmake"]⟩, cachingChildren⟩

/-- A directory that is not one of a CMake project. -/
def bare : World :=
  .ofTree ⟨[(["cmake"], .file .empty true), (["p"], .directory)]⟩ ⟨["p"], 0⟩

/-- The same directory with a CMake project. -/
def project : World :=
  bare.withTree (bare.tree.put ["p", "CMakeLists.txt"] (.file .empty false))

/-- A run of the target. -/
def request : RunRequest :=
  ⟨"tool", none, [], none⟩

end UnbalancedTarget

open UnbalancedTarget in
/-- The theorem for configuring without a CMake project: the build directory is not made. -/
theorem nothing_configured_without_project :
    ((task.perform (.configure none)).exec setting bare).1
      = .error (.diagnosed (.notCMakeProject ⟨"/p/."⟩)) ∧
    ((task.perform (.configure none)).exec setting bare).2 = bare := by
  have failed : ((task.perform (.configure none)).exec setting bare).1
      = .error (.diagnosed (.notCMakeProject ⟨"/p/."⟩)) := by decide +kernel
  exact ⟨failed, Task.world_eq_of_diagnosed task setting bare (.configure none) _ nofun failed⟩

namespace Task

open Operation

variable (t : Task) {s : Setting} {w : World}

/-! ## A run with a build in front of it -/

/-- Since a world, a command has been displayed by a dry run or tried in earnest, and nothing has
been displayed or tried after it. -/
def Finishes (t : Task) (c : Command) (before after : World) : Prop :=
  if t.dryRun then ∃ lines, after.printed = before.printed ++ lines ++ [c.display ++ "\n"]
  else ∃ tried, after.commands = before.commands ++ tried ++ [c]

/-- In either manner, a step that succeeds has done all of its command. -/
theorem finishes_step {c : Command} {status : Status} {what : String} {w w' : World}
    (ok : (t.step status what c).exec s w = (.ok (), w')) : t.Finishes c w w' := by
  unfold Finishes
  cases dry : t.dryRun with
  | true =>
    unfold step at ok
    rw [dry, if_pos rfl, exec_ask, Simulation.printLine_apply] at ok
    cases ok
    rw [if_pos rfl]
    exact ⟨[], by rw [World.printed_record_output, List.append_nil]⟩
  | false =>
    obtain ⟨tried, grown, played⟩ := t.follows_step (s := s) (w := w) dry status what c
    rw [ok] at grown played
    have all := (played.done_iff.1 rfl).1
    rw [if_neg Bool.false_ne_true]
    refine ⟨[], ?_⟩
    rw [World.commands_eq, World.commands_eq, grown, List.map_append, all, List.append_nil]

/-- Something may have been displayed and tried before. -/
theorem Finishes.of_confinedTo {t : Task} {P : Command → Prop} {c : Command} {u v w : World}
    (h : World.ConfinedTo P u v) (k : t.Finishes c v w) : t.Finishes c u w := by
  obtain ⟨shown, tried, printed, commands, -⟩ := h
  unfold Finishes at k ⊢
  split
  · next dry =>
    rw [if_pos dry] at k
    obtain ⟨lines, more⟩ := k
    exact ⟨shown.flatMap Command.lines ++ lines, by rw [more, printed, List.append_assoc _ _ lines]⟩
  · next acting =>
    rw [if_neg acting] at k
    obtain ⟨tried', more⟩ := k
    exact ⟨tried ++ tried', by rw [more, commands, List.append_assoc _ _ tried']⟩

/-- The commands of a variant are made with some `cmake`, and that changes nothing. -/
theorem exec_invocation_eq_ok {v : Variant} {i : Invocation} {w' : World}
    (invoked : (t.invocation v).exec s w = (.ok i, w')) :
    w' = w ∧ ∃ cmake, i = t.invocationWith cmake v := by
  obtain ⟨cmake, _, located, made⟩ := exec_bind_eq_ok.1 invoked
  rw [t.exec_cmake s w] at located
  cases made
  exact ⟨(congrArg Prod.snd located).symm, cmake, rfl⟩

/-- A build that succeeds has displayed or tried its command last. -/
theorem finishes_build {r : BuildRequest} {directory : Path} {w' : World}
    (built : (t.build r).exec s w = (.ok directory, w')) :
    ∃ v cmake, t.registry.variantOrDefault r.variant? = .ok v ∧
      t.Finishes ((t.invocationWith cmake v).build r.target? r.jobs?) w w' := by
  unfold build at built
  cases chosen : t.registry.variantOrDefault r.variant? with
  | error d =>
    rw [chosen] at built
    cases built
  | ok v =>
    rw [chosen, exec_bind_of_ok rfl] at built
    obtain ⟨i, _, invoked, built⟩ := exec_bind_eq_ok.1 built
    obtain ⟨still, cmake, rfl⟩ := t.exec_invocation_eq_ok invoked
    rw [still] at built
    obtain ⟨_, between, configured, built⟩ := exec_bind_eq_ok.1 built
    obtain ⟨_, _, stepped, given⟩ := exec_bind_eq_ok.1 built
    cases given
    have confined : ConfinedTo (fun _ => True)
        (t.configureIfNeeded r.reconfigure (t.invocationWith cmake v) v) s :=
      (t.confinedOutline s (fun _ _ _ _ _ => trivial) fun _ _ _ _ _ => trivial).configureIfNeeded
        (Registry.mem_variants_of_variantOrDefault chosen) cmake r.reconfigure
    have before := confined w
    rw [configured] at before
    exact ⟨v, cmake, rfl, .of_confinedTo before (t.finishes_step stepped)⟩

/-- The build in front of a run succeeds although the arguments of the target cannot be cut into
words. -/
def BuildsInVain (t : Task) (r : RunRequest) (s : Setting) (w : World) : Prop :=
  ∃ target d, t.registry.target r.target = .ok target ∧ target.args.expand = .error d ∧
    ((t.build (RunRequest.buildRequest r target)).exec s w).1.isOk

/-- A build is in vain just where the arguments of the target cannot be expanded and the build in
front of the run succeeds. -/
theorem buildsInVain_iff {t : Task} {r : RunRequest} {target : Target}
    (known : t.registry.target r.target = .ok target) :
    t.BuildsInVain r s w ↔ ∃ d, target.args.expand = .error d ∧
      ((t.build (RunRequest.buildRequest r target)).exec s w).1.isOk := by
  constructor
  · rintro ⟨target', d, other, malformed, succeeded⟩
    cases known.symm.trans other
    exact ⟨d, malformed, succeeded⟩
  · rintro ⟨d, malformed, succeeded⟩
    exact ⟨target, d, known, malformed, succeeded⟩

/-- **A run with a build in front of it gives a diagnostic first, or builds in vain.**  When it ends
with a diagnostic, the world is as it was, unless the build has succeeded although the arguments of
the target cannot be cut into words.  Then the diagnostic is about these arguments, the world is the
one after the build, and the last thing displayed or tried is the command that builds the target. -/
theorem buildRun_diagnosed (t : Task) (s : Setting) (w : World) (r : RunRequest) (d : Diagnostic)
    (failed : ((t.buildRun r).exec s w).1 = .error (.diagnosed d)) :
    let after := ((t.buildRun r).exec s w).2
    (¬ t.BuildsInVain r s w → after = w) ∧
    (t.BuildsInVain r s w → ∃ target v cmake, t.registry.target r.target = .ok target ∧
      target.args.expand = .error d ∧
      ((t.build (RunRequest.buildRequest r target)).exec s w).2 = after ∧
      t.Finishes ((t.invocationWith cmake v).build (some target.build) r.jobs?) w after) := by
  cases known : t.registry.target r.target with
  | error e =>
    refine ⟨fun _ => ?_, ?_⟩
    · unfold buildRun
      rw [known, exec_bind_of_error rfl]
    · rintro ⟨target, _, other, -⟩
      cases known.symm.trans other
  | ok target =>
    rw [buildsInVain_iff known]
    rcases built : (t.build (RunRequest.buildRequest r target)).exec s w with ⟨e | directory, w'⟩
    · -- The build has failed, so the diagnostic is its own.
      have first : DiagnosesFirst (t.build (RunRequest.buildRequest r target)) s :=
        t.diagnosesFirst_build _
      have still := first w d
      rw [exec_buildRun_of_error known built] at failed ⊢
      cases failed
      rw [built] at still
      exact ⟨fun _ => still rfl, nofun⟩
    · -- The build has succeeded, so the command of the run could not be made.
      have goesOn := exec_buildRun_of_ok known built
      rw [goesOn] at failed
      obtain ⟨notMade, still⟩ := t.exec_run_diagnosed_iff.1 (Prod.ext failed rfl)
      obtain ⟨v, cmake, chosen, finishes⟩ := t.finishes_build built
      have words := (runCommand_eq_error known chosen).1 notMade
      refine ⟨fun useful => absurd ⟨d, words, rfl⟩ useful, fun _ => ?_⟩
      rw [goesOn, show ((t.run r).exec s w').2 = w' from still]
      exact ⟨target, v, cmake, rfl, words, congrArg Prod.snd built, finishes⟩

end Task

open UnbalancedTarget in
/-- The theorem for that target without a CMake project: the build fails, and nothing happens. -/
theorem nothing_run_without_project :
    ((task.buildRun request).exec setting bare).1
      = .error (.diagnosed (.notCMakeProject ⟨"/p/."⟩)) ∧
    ¬ task.BuildsInVain request setting bare ∧
    ((task.buildRun request).exec setting bare).2 = bare := by
  have failed : ((task.buildRun request).exec setting bare).1
      = .error (.diagnosed (.notCMakeProject ⟨"/p/."⟩)) := by decide +kernel
  obtain ⟨unchanged, -⟩ := Task.buildRun_diagnosed task setting bare request _ failed
  have useful : ¬ task.BuildsInVain request setting bare := by
    rintro ⟨target, d, known, -, succeeded⟩
    have declared : task.registry.target request.target
        = .ok { Target.ofName "tool" with args := .line "'" } := by decide +kernel
    cases declared.symm.trans known
    exact absurd succeeded (by decide +kernel)
  exact ⟨failed, useful, unchanged useful⟩

open UnbalancedTarget in
/-- **A run with a build in front of it may find a mistake too late.**  The arguments of the target
cannot be cut into words, but the variant is configured and the target is built before that is
noticed; a run without the build does nothing. -/
theorem target_built_before_diagnosed :
    ((task.buildRun request).exec setting project).1
      = .error (.diagnosed (.malformedArguments "'")) ∧
    ((task.buildRun request).exec setting project).2.commands.map Command.args
      = [["-S", "/p/.", "-B", "/p/build/Debug", "-DTOOLCHAIN=clang", "-DBUILD_CONFIG=Debug"],
        ["--build", "/p/build/Debug", "--target", "tool"]] ∧
    ((task.run request).exec setting project).1
      = .error (.diagnosed (.malformedArguments "'")) ∧
    ((task.run request).exec setting project).2.commands = [] := by
  decide +kernel

end BuildVariants
