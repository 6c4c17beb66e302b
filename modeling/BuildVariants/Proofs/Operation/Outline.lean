import BuildVariants.Proofs.Operation.Call

/-!
# The outline of an operation

Many statements about the operations are proved part by part: something is known when an operation
begins, each part of it leaves something known to the next one, and what may follow is shown from
there.  `Stage` names the points between the parts, and an `Outline` is such an argument: a relation
between two operations for each stage, with a rule for each part.  The two operations may run on
different hosts and in different manners, so an outline can also compare a dry run with the same
operation in earnest.

The operations themselves are walked through here, once for all outlines.  `Outline.configure` and
`Outline.build` need nothing else; what a run and a cleaning do after their checks (`Task.start` and
`Task.remove`) is left to each argument.
-/

namespace BuildVariants

namespace Operation

variable {m : Type → Type} [Monad m] [LawfulMonad m] {α β : Type}

/-- A check that succeeds leaves nothing but its result. -/
theorem ofExcept_ok_bind (x : α) (f : α → Operation m β) :
    (Operation.ofExcept (.ok x) >>= f) = f x :=
  pure_bind x f

/-- Nothing follows a check that fails. -/
theorem ofExcept_error_bind (d : Diagnostic) (f : α → Operation m β) :
    (Operation.ofExcept (.error d) >>= f) = diagnose d :=
  ExceptT.ext (by simp [Operation.ofExcept, diagnose])

end Operation

namespace Task

open Operation

/-! ## Manners -/

/-- How a task is done. -/
structure Manner where
  /-- How the user is told. -/
  shell : Shell
  /-- Whether commands are only displayed. -/
  dryRun : Bool

/-- How this task is done. -/
def manner (t : Task) : Manner :=
  ⟨t.shell, t.dryRun⟩

/-- The same task, done in another manner. -/
def inManner (t : Task) (a : Manner) : Task :=
  { t with shell := a.shell, dryRun := a.dryRun }

@[simp] theorem dryRun_inManner (t : Task) (a : Manner) : (t.inManner a).dryRun = a.dryRun := rfl

/-! ## The parts of an operation -/

section Parts

variable {m : Type → Type} [Monad m] [Host m]

/-- The `cmake` commands of a variant, with the `cmake` that was found. -/
def invocationWith (t : Task) (cmake : Path) (v : Variant) : Invocation :=
  ⟨cmake, t.project.path t.registry.shared.sourceDir, t.buildDir v, v.resolved,
    t.registry.shared.env⟩

/-- What a task does about the directories of an invocation: a dry run leaves them alone. -/
def prepareFor (t : Task) (i : Invocation) : Operation m Unit :=
  if t.dryRun then pure () else prepare i

/-- What a run does with its command. -/
def start (t : Task) (r : RunRequest) (c : Command) : Operation m Nat := do
  if t.dryRun then
    displayCommand c
    return 0
  else if ← ask (Host.isFile c.program) then
    ask (Host.status t.shell .running c.display)
    let exit ← Operation.runCommand c .shown
    return exit.ending.code?.getD 1
  else throw (.missingExecutable c.program r.target)

/-- What a cleaning does with its directories. -/
def remove (t : Task) (ds : List Path) : Operation m (List Path) := do
  if t.dryRun then
    displayRemovals ds
    return []
  else t.removeAll ds

/-- Configuring a variant, part by part: the arguments are checked in front of any effect, in both
manners. -/
theorem configureVariant_eq [LawfulMonad m] (t : Task) (i : Invocation) (v : Variant) :
    (t.configureVariant i v : Operation m Unit) = (do
      let command ← Operation.ofExcept i.configure
      t.prepareFor i
      t.step .configuring (v.name ++ " (" ++ i.buildDir.text ++ ")") command) := by
  unfold configureVariant prepareFor
  cases t.dryRun with
  | true => simp only [if_true, pure_bind]
  | false => rfl

/-- A run is the check of its target, and then its start. -/
theorem run_eq (t : Task) (r : RunRequest) :
    (t.run r : Operation m Nat) = Operation.ofExcept (t.runCommand r) >>= t.start r := rfl

/-- A cleaning is the choice of its variants, and then the removal of their directories. -/
theorem clean_eq (t : Task) (r : CleanRequest) : (t.clean r : Operation m (List Path))
    = Operation.ofExcept (t.chosenVariants r) >>= fun vs => t.remove (t.directories vs) := rfl

end Parts

/-- How far an operation has come. -/
inductive Stage
  /-- It has made checks and looked around, and no more. -/
  | checking
  /-- It has made sure of the directories of an invocation. -/
  | prepared (i : Invocation)
  /-- The build directory of a variant has been configured, now or before. -/
  | configured (v : Variant)
  /-- A variant has been built. -/
  | built

/-- An argument about operations in two manners, on two hosts.  Each rule puts a part in front of
operations that are related at the stage behind it. -/
structure Outline (m n : Type → Type) [Monad m] [Host m] [Monad n] [Host n] (t : Task)
    (a b : Manner) where
  /-- The two operations are related where they go on from a stage. -/
  Holds : {α : Type} → Stage → Operation m α → Operation n α → Prop
  /-- An operation may end anywhere. -/
  pure : ∀ {α : Type} (stage : Stage) (x : α), Holds stage (Pure.pure x) (Pure.pure x)
  /-- A check may fail. -/
  diagnose : ∀ {α : Type} (d : Diagnostic),
    Holds (α := α) .checking (Operation.diagnose d) (Operation.diagnose d)
  /-- Looking for `cmake` is no more than looking around. -/
  cmake_bind : ∀ {α : Type} {f : Path → Operation m α} {g : Path → Operation n α},
    (∀ cmake, Holds .checking (f cmake) (g cmake)) →
      Holds .checking ((t.inManner a).cmake >>= f) ((t.inManner b).cmake >>= g)
  /-- The directories come in front of the step that configures. -/
  prepare_bind : ∀ {α : Type} (i : Invocation) {f : Unit → Operation m α}
    {g : Unit → Operation n α}, Holds (.prepared i) (f ()) (g ()) →
      Holds .checking ((t.inManner a).prepareFor i >>= f) ((t.inManner b).prepareFor i >>= g)
  /-- The step that configures takes its command from the arguments of the variant. -/
  configuring_bind : ∀ {α : Type} {v : Variant} {cmake : Path} {c : Command} {status : Status}
    {what : String} {f : Unit → Operation m α} {g : Unit → Operation n α},
    v ∈ t.registry.variants → (t.invocationWith cmake v).configure = .ok c →
    Holds (.configured v) (f ()) (g ()) →
      Holds (.prepared (t.invocationWith cmake v)) ((t.inManner a).step status what c >>= f)
        ((t.inManner b).step status what c >>= g)
  /-- A directory with a cache counts as configured; one without is configured now. -/
  isConfigured_bind : ∀ {α : Type} {v : Variant} {f : Bool → Operation m α}
    {g : Bool → Operation n α}, v ∈ t.registry.variants →
    Holds (.configured v) (f true) (g true) → Holds .checking (f false) (g false) →
      Holds .checking (ask (Host.isConfigured (t.buildDir v)) >>= f)
        (ask (Host.isConfigured (t.buildDir v)) >>= g)
  /-- That a directory has been configured before is told in a debug message. -/
  debug_bind : ∀ {α : Type} {v : Variant} {message : String} {f : Unit → Operation m α}
    {g : Unit → Operation n α}, Holds (.configured v) (f ()) (g ()) →
      Holds (.configured v) (ask (Host.debug message) >>= f) (ask (Host.debug message) >>= g)
  /-- The step that builds needs a directory that has been configured. -/
  building_bind : ∀ {α : Type} {v : Variant} {cmake : Path} {target? : Option String}
    {jobs? : Option Nat} {status : Status} {what : String} {f : Unit → Operation m α}
    {g : Unit → Operation n α}, v ∈ t.registry.variants → Holds .built (f ()) (g ()) →
      Holds (.configured v)
        ((t.inManner a).step status what ((t.invocationWith cmake v).build target? jobs?) >>= f)
        ((t.inManner b).step status what ((t.invocationWith cmake v).build target? jobs?) >>= g)

/-! ## The operations -/

namespace Outline

variable {m n : Type → Type} [Monad m] [LawfulMonad m] [Host m] [Monad n] [LawfulMonad n] [Host n]
  {t : Task} {a b : Manner} (R : Outline m n t a b) {α : Type} {stage : Stage} {v : Variant}

/-- What goes on after a check may use what was found. -/
theorem ofExcept_bind {β : Type} {r : Except Diagnostic β} {f : β → Operation m α}
    {g : β → Operation n α}
    (refused : ∀ d, R.Holds (α := α) stage (Operation.diagnose d) (Operation.diagnose d))
    (k : ∀ x, r = .ok x → R.Holds stage (f x) (g x)) :
    R.Holds stage (Operation.ofExcept r >>= f) (Operation.ofExcept r >>= g) := by
  cases r with
  | error d =>
    rw [ofExcept_error_bind, ofExcept_error_bind]
    exact refused d
  | ok x =>
    rw [ofExcept_ok_bind, ofExcept_ok_bind]
    exact k x rfl

/-- The commands of a variant are made with the `cmake` that is found. -/
theorem invocation_bind {f : Invocation → Operation m α} {g : Invocation → Operation n α}
    (k : ∀ cmake, R.Holds .checking (f (t.invocationWith cmake v)) (g (t.invocationWith cmake v))) :
    R.Holds .checking ((t.inManner a).invocation v >>= f) ((t.inManner b).invocation v >>= g) := by
  unfold invocation
  simp only [bind_assoc, pure_bind]
  exact R.cmake_bind k

/-- Whatever goes on after a variant has been configured may count on its directory. -/
theorem configureVariant_bind (declared : v ∈ t.registry.variants) (cmake : Path)
    {f : Unit → Operation m α} {g : Unit → Operation n α}
    (k : R.Holds (.configured v) (f ()) (g ())) :
    R.Holds .checking ((t.inManner a).configureVariant (t.invocationWith cmake v) v >>= f)
      ((t.inManner b).configureVariant (t.invocationWith cmake v) v >>= g) := by
  simp only [configureVariant_eq, bind_assoc]
  refine R.ofExcept_bind R.diagnose fun c made => ?_
  exact R.prepare_bind _ (R.configuring_bind declared made k)

/-- Configuring a variant is a check of its name, a search for `cmake`, and its one step. -/
theorem configure (variant? : Option String) :
    R.Holds .checking ((t.inManner a).configure variant?) ((t.inManner b).configure variant?) := by
  refine R.ofExcept_bind R.diagnose fun v chosen => R.invocation_bind fun cmake => ?_
  have declared := Registry.mem_variants_of_variantOrDefault chosen
  exact R.configureVariant_bind declared cmake (R.pure _ _)

/-- A directory that has been configured is left as it is, unless that is asked for. -/
theorem configureIfNeeded_bind (declared : v ∈ t.registry.variants) (cmake : Path)
    (reconfigure : Bool) {f : Unit → Operation m α} {g : Unit → Operation n α}
    (k : R.Holds (.configured v) (f ()) (g ())) :
    R.Holds .checking
      ((t.inManner a).configureIfNeeded reconfigure (t.invocationWith cmake v) v >>= f)
      ((t.inManner b).configureIfNeeded reconfigure (t.invocationWith cmake v) v >>= g) := by
  have configured := R.configureVariant_bind declared cmake k
  unfold configureIfNeeded
  cases reconfigure with
  | true => exact configured
  | false =>
    rw [if_neg Bool.false_ne_true, if_neg Bool.false_ne_true, bind_assoc, bind_assoc]
    exact R.isConfigured_bind declared (R.debug_bind k) configured

theorem configureIfNeeded (declared : v ∈ t.registry.variants) (cmake : Path)
    (reconfigure : Bool) :
    R.Holds .checking
      ((t.inManner a).configureIfNeeded reconfigure (t.invocationWith cmake v) v)
      ((t.inManner b).configureIfNeeded reconfigure (t.invocationWith cmake v) v) := by
  have ends := R.configureIfNeeded_bind declared cmake reconfigure (f := Pure.pure)
    (g := Pure.pure) (R.pure _ ())
  rwa [bind_pure, bind_pure] at ends

/-- Whatever goes on after a build does not learn more than its directory. -/
theorem build_bind (r : BuildRequest) {f : Path → Operation m α} {g : Path → Operation n α}
    (k : ∀ directory, R.Holds .built (f directory) (g directory)) :
    R.Holds .checking ((t.inManner a).build r >>= f) ((t.inManner b).build r >>= g) := by
  unfold build
  simp only [bind_assoc, pure_bind]
  refine R.ofExcept_bind R.diagnose fun v chosen => R.invocation_bind fun cmake => ?_
  have declared := Registry.mem_variants_of_variantOrDefault chosen
  refine R.configureIfNeeded_bind declared cmake r.reconfigure ?_
  exact R.building_bind declared (k _)

/-- A build configures its variant if it has to, and takes its own step. -/
theorem build (r : BuildRequest) :
    R.Holds .checking ((t.inManner a).build r) ((t.inManner b).build r) := by
  have ends := R.build_bind r (f := Pure.pure) (g := Pure.pure) fun d => R.pure _ d
  rwa [bind_pure, bind_pure] at ends

/-- A run makes its command, wherever it goes on from. -/
theorem run (stage : Stage) (r : RunRequest)
    (refused : ∀ d, R.Holds (α := Nat) stage (Operation.diagnose d) (Operation.diagnose d))
    (started : ∀ c, t.runCommand r = .ok c →
      R.Holds stage ((t.inManner a).start r c) ((t.inManner b).start r c)) :
    R.Holds stage ((t.inManner a).run r) ((t.inManner b).run r) := by
  rw [run_eq, run_eq]
  exact R.ofExcept_bind refused started

/-- A run with a build in front of it looks up its target before the build. -/
theorem buildRun (r : RunRequest)
    (ran : R.Holds .built ((t.inManner a).run r) ((t.inManner b).run r)) :
    R.Holds .checking ((t.inManner a).buildRun r) ((t.inManner b).buildRun r) := by
  refine R.ofExcept_bind R.diagnose fun target _ => ?_
  exact R.build_bind _ fun _ => ran

/-- A cleaning chooses its variants, and then their directories. -/
theorem clean (r : CleanRequest)
    (removed : ∀ vs, t.chosenVariants r = .ok vs →
      R.Holds .checking ((t.inManner a).remove (t.directories vs))
        ((t.inManner b).remove (t.directories vs))) :
    R.Holds .checking ((t.inManner a).clean r) ((t.inManner b).clean r) := by
  rw [clean_eq, clean_eq]
  exact R.ofExcept_bind R.diagnose removed

end Outline

end Task

end BuildVariants
