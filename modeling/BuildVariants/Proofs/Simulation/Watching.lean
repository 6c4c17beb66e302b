import BuildVariants.Proofs.Simulation.Execution

/-!
# Watching an operation

The events of a simulation say what was written and what was run, but not at which paths the
program looked or which ones it removed.  `Watched` puts a list of such visits beside any host;
an operation is written for any host, so the same operation runs under watch.

`Operation.Shadows` says that watching changes nothing: the result and the world are those of the
operation without a watch.  Its rules follow the way operations are put together.
-/

namespace BuildVariants

/-- A path that was named to the file system. -/
inductive Visit
  /-- The program looked whether anything stands there. -/
  | looked (path : Path)
  /-- The program removed the directory there, or tried to. -/
  | removed (path : Path)
  deriving DecidableEq, Repr

namespace Visit

/-- The path that was looked at. -/
def looked? : Visit → Option Path
  | looked p => some p
  | removed _ => none

/-- The path that was to be removed. -/
def removed? : Visit → Option Path
  | removed p => some p
  | looked _ => none

end Visit

/-- A host whose visits are noted. -/
abbrev Watched (m : Type → Type) := StateT (List Visit) m

namespace Watched

variable {m : Type → Type} [Monad m]

/-- Notes a visit and goes on with the host that is watched. -/
def noting {α : Type} (visit : Visit) (x : m α) : Watched m α := fun visits => do
  let a ← x
  return (a, visits ++ [visit])

end Watched

instance {m : Type → Type} [Monad m] [Host m] : Host (Watched m) where
  environment name := StateT.lift (Host.environment name)
  currentDirectory := StateT.lift Host.currentDirectory
  entryKind? p := Watched.noting (.looked p) (Host.entryKind? p)
  readText p := StateT.lift (Host.readText p)
  createAll p := StateT.lift (Host.createAll p)
  removeTree p := Watched.noting (.removed p) (Host.removeTree p)
  run c w := StateT.lift (Host.run c w)
  emit e := StateT.lift (Host.emit e)
  milliseconds := StateT.lift Host.milliseconds

namespace Operation

variable {α β : Type}

/-- The result of an operation under watch, the visits so far, and the world it leaves behind. -/
def watch (x : Operation (Watched Simulation) α) (visits : List Visit) (s : Setting) (w : World) :
    (Except Failure α × List Visit) × World :=
  x.run visits s w

/-- Under watch an operation does what the other one does, and makes some visits. -/
def Shadows (x : Operation (Watched Simulation) α) (y : Operation Simulation α) (s : Setting)
    (w : World) (visits : List Visit) : Prop :=
  ∀ before, x.watch before s w = (((y.exec s w).1, before ++ visits), (y.exec s w).2)

namespace Shadows

variable {s : Setting} {w w' : World} {visits more : List Visit}
  {x : Operation (Watched Simulation) α} {y : Operation Simulation α}
  {f : α → Operation (Watched Simulation) β} {g : α → Operation Simulation β}

/-- Nothing is visited by an operation that only gives a result. -/
theorem pure (a : α) : Shadows (Pure.pure a) (Pure.pure a) s w [] := by
  intro before
  rw [List.append_nil]
  rfl

/-- Nothing is visited by an operation that fails at once. -/
theorem throw (e : Failure) :
    Shadows (MonadExcept.throw e) (MonadExcept.throw e : Operation Simulation α) s w [] := by
  intro before
  rw [List.append_nil]
  rfl

/-- Visits are noted in the order in which they are made: first those of the operation that comes
first. -/
theorem bind_of_ok {a : α} (h : Shadows x y s w visits) (ok : y.exec s w = (.ok a, w'))
    (k : Shadows (f a) (g a) s w' more) : Shadows (x >>= f) (y >>= g) s w (visits ++ more) := by
  intro before
  have first := h before
  rw [ok] at first
  rw [watch, run_bind_of_ok first, exec_bind_of_ok ok, ← List.append_assoc]
  exact k _

/-- What would have followed a failure is not visited. -/
theorem bind_of_error {e : Failure} (h : Shadows x y s w visits)
    (error : y.exec s w = (.error e, w')) : Shadows (x >>= f) (y >>= g) s w visits := by
  intro before
  have first := h before
  rw [error] at first
  rw [watch, run_bind_of_error first, exec_bind_of_error error]

theorem map (k : α → β) (h : Shadows x y s w visits) : Shadows (k <$> x) (k <$> y) s w visits := by
  rw [map_eq_pure_bind, map_eq_pure_bind]
  rcases result : y.exec s w with ⟨e | a, w'⟩
  · exact h.bind_of_error result
  · rw [← List.append_nil visits]
    exact h.bind_of_ok result (pure (k a))

/-- A look at a path is one visit. -/
theorem pathExists (p : Path) :
    Shadows (ask (Host.pathExists p)) (ask (Host.pathExists p)) s w [.looked p] :=
  fun _ => rfl

/-- A removal is one visit, whether it succeeds or not: it is noted when it is asked for. -/
theorem removeTree (p : Path) :
    Shadows (ask (Host.removeTree p)) (ask (Host.removeTree p)) s w [.removed p] :=
  fun _ => rfl

theorem printLine (text : String) :
    Shadows (ask (Host.printLine text)) (ask (Host.printLine text)) s w [] := by
  intro before
  rw [List.append_nil]
  rfl

/-- Messages are not visits, and a quiet shell leaves even the message out. -/
theorem status (shell : Shell) (status : Status) (message : String) :
    Shadows (ask (Host.status shell status message)) (ask (Host.status shell status message))
      s w [] := by
  intro before
  rw [List.append_nil]
  unfold Host.status
  split <;> rfl

end Shadows

end Operation

end BuildVariants
