import BuildVariants.Proofs.Simulation.Execution

/-!
# Calls

What can be asked of a task, as data: one `Call` for each operation with its request, and one
`Outcome` for each kind of result.  Statements about all operations speak of calls, and those about
several of them in some order of the world after a list of calls.
-/

namespace BuildVariants

/-- An operation with what is asked of it. -/
inductive Call
  | configure (variant? : Option String)
  | build (r : BuildRequest)
  | run (r : RunRequest)
  | buildRun (r : RunRequest)
  | clean (r : CleanRequest)
  deriving DecidableEq, Repr

/-- What an operation gives. -/
inductive Outcome
  /-- The build directory that was configured or built. -/
  | directory (path : Path)
  /-- The exit code of the target. -/
  | exitCode (code : Nat)
  /-- The directories that were removed. -/
  | removed (directories : List Path)
  deriving DecidableEq, Repr

/-- Performs a call. -/
def Task.perform {m : Type → Type} [Monad m] [Host m] (t : Task) : Call → Operation m Outcome
  | .configure variant? => .directory <$> t.configure variant?
  | .build r => .directory <$> t.build r
  | .run r => .exitCode <$> t.run r
  | .buildRun r => .exitCode <$> t.buildRun r
  | .clean r => .removed <$> t.clean r

/-- The task with its commands displayed only. -/
def Task.rehearsing (t : Task) : Task :=
  { t with dryRun := true }

/-- The task with its commands run. -/
def Task.acting (t : Task) : Task :=
  { t with dryRun := false }

/-- A task that is a rehearsal anyway is its own rehearsal. -/
theorem Task.rehearsing_of_dryRun {t : Task} (h : t.dryRun = true) : t.rehearsing = t := by
  obtain ⟨project, registry, shell, dryRun⟩ := t
  cases h
  rfl

/-- A task that is in earnest anyway is the one that acts. -/
theorem Task.acting_of_not_dryRun {t : Task} (h : t.dryRun = false) : t.acting = t := by
  obtain ⟨project, registry, shell, dryRun⟩ := t
  cases h
  rfl

/-- The world after some calls in earnest, one after the other, each with a shell of its own.  A
call that fails does not keep the next one from being made. -/
def Task.performAll (t : Task) (s : Setting) (w : World) (calls : List (Shell × Call)) : World :=
  calls.foldl
    (fun w c => (({ t with shell := c.1, dryRun := false }.perform c.2).exec s w).2) w

end BuildVariants
