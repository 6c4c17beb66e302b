import BuildVariants.Proofs.Operation.Outline
import BuildVariants.Proofs.Simulation.Lockstep

/-!
# How the user is told

A shell decides what the user is told about an operation, and where the output of its `cmake`
processes goes.  It decides nothing else: the same operation with two shells runs in lockstep.  The
step that carries the proof is that of a `cmake` command.  It is written once for a verbose shell,
which leaves the output to the process, and once for any other, which keeps it; both are in lockstep
with the bare command, which tells the user nothing (`lockstep_step`).
-/

namespace BuildVariants

namespace Task

open Operation

variable {s : Setting}

/-- The task with another way of telling the user. -/
def withShell (t : Task) (shell : Shell) : Task :=
  { t with shell := shell }

variable (t : Task) (a b : Shell)

/-! ## Steps -/

/-- A command that has to succeed, and nothing said about it. -/
def bareStep (c : Command) : Operation Simulation Unit := do
  let exit ← Operation.runCommand c .kept
  if exit.ending.isSuccess then return () else throw (.stepExit c.display exit.ending.code?)

/-- A verbose step lets its process write to the terminal, and tells more besides. -/
theorem lockstep_shownStep (status : Status) (what : String) (c : Command) :
    Lockstep (t.shownStep status what c) (bareStep c) s := by
  unfold shownStep bareStep
  refine Lockstep.told_bind (.status _ _ _) fun _ => ?_
  refine (Lockstep.runCommand c .shown .kept).bind fun exit => ?_
  cases exit.ending.isSuccess with
  | true => exact .pure ()
  | false => exact .throw _ _

/-- Any other step keeps the output for itself and tells how long the process took; the time is only
used to tell it. -/
theorem lockstep_keptStep (status : Status) (what : String) (c : Command) :
    Lockstep (t.keptStep status what c) (bareStep c) s := by
  unfold keptStep bareStep
  refine Lockstep.told_bind .milliseconds fun started => ?_
  refine Lockstep.told_bind (.status _ _ _) fun _ => ?_
  refine (Lockstep.runCommand c .kept .kept).bind fun exit => ?_
  cases exit.ending.isSuccess with
  | true =>
    refine Lockstep.told_bind .milliseconds fun finished => ?_
    rw [← bind_pure (ask (Host.status _ _ _))]
    exact Lockstep.told_bind (.status _ _ _) fun _ => .pure ()
  | false => exact .throw _ _

/-- In earnest a step is its bare command, however the user is told. -/
theorem lockstep_step_bareStep (acting : t.dryRun = false) (status : Status) (what : String)
    (c : Command) : Lockstep (t.step status what c) (bareStep c) s := by
  unfold step
  rw [if_neg (Bool.eq_false_iff.1 acting)]
  split
  · exact t.lockstep_shownStep status what c
  · exact t.lockstep_keptStep status what c

/-- **A step does the same with any two shells.** -/
theorem lockstep_step (status : Status) (what : String) (c : Command) :
    Lockstep ((t.withShell a).step status what c) ((t.withShell b).step status what c) s := by
  cases dry : t.dryRun with
  | false =>
    exact ((t.withShell a).lockstep_step_bareStep dry status what c).trans
      ((t.withShell b).lockstep_step_bareStep dry status what c).symm
  | true =>
    have displays (shell : Shell) : ((t.withShell shell).step status what c
        : Operation Simulation Unit) = ask (Host.printLine c.display) := by
      unfold step
      exact if_pos dry
    rw [displays, displays]
    exact .ask (.printLine _)

/-! ## The parts of an operation -/

/-- Where `cmake` is found does not depend on the shell. -/
theorem lockstep_cmake : Lockstep (t.withShell a).cmake (t.withShell b).cmake s := by
  refine Lockstep.ask_bind .findCMake fun found => ?_
  cases found with
  | some path => exact .pure path
  | none =>
    show Lockstep (if t.dryRun then _ else _) (if t.dryRun then _ else _) s
    split
    · exact .pure _
    · exact .throw _ _

/-- The shell is not asked for when the directories are made sure of. -/
theorem lockstep_prepare (i : Invocation) : Lockstep (prepare i) (prepare i) s := by
  unfold prepare
  refine Lockstep.ask_bind (.pathExists _) fun found => ?_
  cases found with
  | false => exact .throw _ _
  | true =>
    show Lockstep (Host.ensureDirectory i.buildDir) (Host.ensureDirectory i.buildDir) s
    unfold Host.ensureDirectory
    refine Lockstep.ask_bind (.pathExists _) fun there => ?_
    cases there with
    | true => exact .pure ()
    | false =>
      refine Lockstep.ask_bind (.change fun cwd t => t.createAll cwd i.buildDir) fun result => ?_
      cases result with
      | error e => exact .throw _ _
      | ok _ => exact .pure ()

theorem lockstep_prepareFor (i : Invocation) :
    Lockstep ((t.withShell a).prepareFor i) ((t.withShell b).prepareFor i) s := by
  show Lockstep (if t.dryRun then _ else _) (if t.dryRun then _ else _) s
  split
  · exact .pure ()
  · exact lockstep_prepare i

/-- **All parts of an operation keep step**, so at every stage lockstep is all there is to know. -/
def lockstepOutline (s : Setting) :
    Outline Simulation Simulation t ⟨a, t.dryRun⟩ ⟨b, t.dryRun⟩ where
  Holds _ x y := Lockstep x y s
  pure _ := .pure
  diagnose _ := .throw _ _
  cmake_bind := (t.lockstep_cmake a b).bind
  prepare_bind i _ _ k := (t.lockstep_prepareFor a b i).bind fun _ => k
  configuring_bind _ _ k := (t.lockstep_step a b _ _ _).bind fun _ => k
  isConfigured_bind _ found missing := Lockstep.ask_bind (.isFile _) fun
    | true => found
    | false => missing
  debug_bind k := Lockstep.told_both_bind (.debug _) (.debug _) fun _ _ => k
  building_bind _ k := (t.lockstep_step a b _ _ _).bind fun _ => k

/-! ## Running -/

theorem lockstep_displayCommand (c : Command) :
    Lockstep (displayCommand c) (displayCommand c) s := by
  unfold displayCommand
  cases c.cwd? with
  | none => exact .ask (.printLine _)
  | some directory => exact Lockstep.ask_bind (.printLine _) fun _ => .ask (.printLine _)

/-- A run target writes to the terminal with any shell. -/
theorem lockstep_start (r : RunRequest) (c : Command) :
    Lockstep ((t.withShell a).start r c) ((t.withShell b).start r c) s := by
  show Lockstep (if t.dryRun then _ else _) (if t.dryRun then _ else _) s
  split
  · exact (lockstep_displayCommand c).bind fun _ => .pure 0
  · refine Lockstep.ask_bind (.isFile _) fun found => ?_
    cases found with
    | false => exact .throw _ _
    | true =>
      refine Lockstep.told_both_bind (.status _ _ _) (.status _ _ _) fun _ _ => ?_
      exact (Lockstep.runCommand c .shown .shown).bind fun exit => .pure _

/-! ## Cleaning -/

theorem lockstep_displayRemovals (ds : List Path) :
    Lockstep (displayRemovals ds) (displayRemovals ds) s := by
  induction ds with
  | nil => exact .pure ()
  | cons d ds ih => exact Lockstep.ask_bind (.printLine _) fun _ => ih

theorem lockstep_removeIfPresent (d : Path) :
    Lockstep (removeIfPresent d) (removeIfPresent d) s := by
  unfold removeIfPresent
  refine Lockstep.ask_bind (.pathExists _) fun there => ?_
  cases there with
  | false => exact .pure false
  | true =>
    refine Lockstep.ask_bind (.change fun cwd t => t.removeTree cwd d) fun result => ?_
    cases result with
    | error e => exact .throw _ _
    | ok _ => exact .pure true

/-- The induction is on the directories. -/
theorem lockstep_removeAll (ds : List Path) :
    Lockstep ((t.withShell a).removeAll ds) ((t.withShell b).removeAll ds) s := by
  induction ds with
  | nil => exact .pure []
  | cons d ds ih =>
    refine (lockstep_removeIfPresent d).bind fun removed => ?_
    cases removed with
    | false => exact Lockstep.told_both_bind (.status _ _ _) (.status _ _ _) fun _ _ => ih
    | true =>
      refine Lockstep.told_both_bind (.status _ _ _) (.status _ _ _) fun _ _ => ?_
      exact ih.bind fun rest => .pure (d :: rest)

theorem lockstep_remove (ds : List Path) :
    Lockstep ((t.withShell a).remove ds) ((t.withShell b).remove ds) s := by
  show Lockstep (if t.dryRun then _ else _) (if t.dryRun then _ else _) s
  split
  · exact (lockstep_displayRemovals ds).bind fun _ => .pure []
  · exact t.lockstep_removeAll a b ds

/-! ## Every call -/

theorem lockstep_run (r : RunRequest) :
    Lockstep ((t.withShell a).run r) ((t.withShell b).run r) s :=
  (t.lockstepOutline a b s).run .built r (fun _ => .throw _ _) fun c _ => t.lockstep_start a b r c

/-- The same call with two shells is made in lockstep. -/
theorem lockstep_perform (call : Call) :
    Lockstep ((t.withShell a).perform call) ((t.withShell b).perform call) s := by
  cases call with
  | configure variant? => exact .map _ ((t.lockstepOutline a b s).configure variant?)
  | build r => exact .map _ ((t.lockstepOutline a b s).build r)
  | run r => exact .map _ (t.lockstep_run a b r)
  | buildRun r => exact .map _ ((t.lockstepOutline a b s).buildRun r (t.lockstep_run a b r))
  | clean r =>
    exact .map _ ((t.lockstepOutline a b s).clean r fun _ _ => t.lockstep_remove a b _)

/-- **A shell only tells.**  With any two shells a call from the same world tries the same processes
in the same order, with the same arguments, variables and directories, and they go the same way; it
leaves the same file tree behind, and prints the same lines; and it gives the same result, or fails
with both shells. -/
theorem shell_only_tells (t : Task) (a b : Shell) (s : Setting) (w : World) (call : Call) :
    let first := ((t.withShell a).perform call).exec s w
    let second := ((t.withShell b).perform call).exec s w
    first.2.trials = second.2.trials ∧ first.2.tree = second.2.tree ∧
    first.2.printed = second.2.printed ∧
    ∀ outcome, first.1 = .ok outcome ↔ second.1 = .ok outcome := by
  intro first second
  have lockstep : Lockstep ((t.withShell a).perform call) ((t.withShell b).perform call) s :=
    t.lockstep_perform a b call
  have alike := (lockstep w w (.refl w)).2
  exact ⟨alike.trials, alike.tree, alike.printed, fun _ => lockstep.eq_ok_iff (.refl w)⟩

end Task

end BuildVariants
