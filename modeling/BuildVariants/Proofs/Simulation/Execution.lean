import BuildVariants.Operation.Clean
import BuildVariants.Operation.Run
import BuildVariants.Proofs.Simulation.Correspondence
import BuildVariants.World
import Mathlib.Control.Monad.Basic

/-!
# Running an operation in a simulated world

`Operation.exec` gives the result of an operation and the world it leaves behind.  Its equations
follow the way operations are put together, and one equation for each request says what the
simulated host answers; a proof about an operation opens the operation once and goes on with
these.

Looking, and looking for `cmake`, change nothing.  What is written and what is run is added to the
events at the end, so the commands that were tried and the texts that were printed only grow.
-/

namespace BuildVariants

deriving instance DecidableEq for Event

/-- A setting in which no process can be started. -/
def Setting.childless : Setting :=
  ⟨⟨[]⟩, fun _ _ _ _ => .error .noEntry⟩

/-- The texts that were written to standard output by the program itself. -/
def Event.printed? : Event → Option String
  | emitted (.output text) => some text
  | _ => none

namespace World

/-- What the program itself has written to standard output. -/
def printed (w : World) : List String :=
  w.events.filterMap Event.printed?

@[simp] theorem tree_record (w : World) (e : Event) : (w.record e).tree = w.tree := rfl

@[simp] theorem cwd_record (w : World) (e : Event) : (w.record e).cwd = w.cwd := rfl

@[simp] theorem events_record (w : World) (e : Event) :
    (w.record e).events = w.events ++ [e] := rfl

@[simp] theorem tree_withTree (w : World) (t : FileTree) : (w.withTree t).tree = t := rfl

@[simp] theorem cwd_withTree (w : World) (t : FileTree) :
    (w.withTree t).cwd = w.cwd.settle t := rfl

@[simp] theorem events_withTree (w : World) (t : FileTree) :
    (w.withTree t).events = w.events := rfl

@[simp] theorem commands_withTree (w : World) (t : FileTree) :
    (w.withTree t).commands = w.commands := rfl

@[simp] theorem printed_withTree (w : World) (t : FileTree) :
    (w.withTree t).printed = w.printed := rfl

@[simp] theorem commands_record_emitted (w : World) (e : Emission) :
    (w.record (.emitted e)).commands = w.commands := by
  simp [commands, Event.command?]

/-- Only a process that was run counts as a command. -/
@[simp] theorem commands_record_ran (w : World) (c : Command) (wiring : Wiring)
    (result : Except OsError Exit) :
    (w.record (.ran c wiring result)).commands = w.commands ++ [c] := by
  simp [commands, Event.command?]

/-- Only what goes to standard output counts as printed: log records and notices go elsewhere. -/
@[simp] theorem printed_record_output (w : World) (text : String) :
    (w.record (.emitted (.output text))).printed = w.printed ++ [text] := by
  simp [printed, Event.printed?]

@[simp] theorem printed_record_log (w : World) (r : LogRecord) :
    (w.record (.emitted (.log r))).printed = w.printed := by
  simp [printed, Event.printed?]

@[simp] theorem printed_record_notice (w : World) (text : String) :
    (w.record (.emitted (.notice text))).printed = w.printed := by
  simp [printed, Event.printed?]

@[simp] theorem printed_record_ran (w : World) (c : Command) (wiring : Wiring)
    (result : Except OsError Exit) : (w.record (.ran c wiring result)).printed = w.printed := by
  simp [printed, Event.printed?]

end World

/-! ## Results -/

/-- A simulation passes on its result and its world. -/
theorem Simulation.bind_apply {α β : Type} (x : Simulation α) (f : α → Simulation β)
    (s : Setting) (w : World) : (x >>= f) s w = f (x s w).1 s (x s w).2 := rfl

namespace Operation

variable {α β : Type}

/-- The result of an operation and the world it leaves behind. -/
def exec (x : Operation Simulation α) (s : Setting) (w : World) : Except Failure α × World :=
  x.run s w

@[simp] theorem exec_pure (a : α) (s : Setting) (w : World) :
    (pure a : Operation Simulation α).exec s w = (.ok a, w) := rfl

@[simp] theorem exec_throw (e : Failure) (s : Setting) (w : World) :
    (throw e : Operation Simulation α).exec s w = (.error e, w) := rfl

/-- The second operation runs in the world of the first one, unless that failed. -/
theorem exec_bind (x : Operation Simulation α) (f : α → Operation Simulation β) (s : Setting)
    (w : World) :
    (x >>= f).exec s w = match x.exec s w with
      | (.ok a, w') => (f a).exec s w'
      | (.error e, w') => (.error e, w') := by
  rw [exec, ExceptT.run_bind, Simulation.bind_apply, ← exec]
  rcases x.exec s w with ⟨_ | _, w'⟩ <;> rfl

/-- What follows an operation that succeeded starts from its result, in the world it left behind. -/
theorem exec_bind_of_ok {x : Operation Simulation α} {s : Setting} {w w' : World} {a : α}
    (h : x.exec s w = (.ok a, w')) (f : α → Operation Simulation β) :
    (x >>= f).exec s w = (f a).exec s w' := by
  rw [exec_bind, h]

/-- What follows an operation that failed is not done. -/
theorem exec_bind_of_error {x : Operation Simulation α} {s : Setting} {w w' : World}
    {e : Failure} (h : x.exec s w = (.error e, w')) (f : α → Operation Simulation β) :
    (x >>= f).exec s w = (.error e, w') := by
  rw [exec_bind, h]

section Kept

/-! The same with a state that is kept beside the simulation. -/

variable {σ : Type} {x : Operation (StateT σ Simulation) α} {kept kept' : σ} {s : Setting}
  {w w' : World}

/-- Under a second state, what follows an operation that succeeded starts from the state it left
behind. -/
theorem run_bind_of_ok {a : α} (h : x.run kept s w = ((.ok a, kept'), w'))
    (f : α → Operation (StateT σ Simulation) β) :
    (x >>= f).run kept s w = (f a).run kept' s w' := by
  rw [ExceptT.run_bind]
  show (StateT.bind (ExceptT.run x) _ kept) s w = _
  rw [StateT.bind, Simulation.bind_apply, h]

/-- Under a second state, too, nothing follows a failure. -/
theorem run_bind_of_error {e : Failure} (h : x.run kept s w = ((.error e, kept'), w'))
    (f : α → Operation (StateT σ Simulation) β) :
    (x >>= f).run kept s w = ((.error e, kept'), w') := by
  rw [ExceptT.run_bind]
  show (StateT.bind (ExceptT.run x) _ kept) s w = _
  rw [StateT.bind, Simulation.bind_apply, h]
  rfl

end Kept

/-- Where two operations succeed, the first one does, and the second one in the world of the
first. -/
theorem exec_bind_eq_ok {x : Operation Simulation α} {f : α → Operation Simulation β}
    {s : Setting} {w w' : World} {b : β} : (x >>= f).exec s w = (.ok b, w') ↔
      ∃ a between, x.exec s w = (.ok a, between) ∧ (f a).exec s between = (.ok b, w') := by
  rcases result : x.exec s w with ⟨e | a, between⟩
  · rw [exec_bind_of_error result]
    exact ⟨nofun, nofun⟩
  · rw [exec_bind_of_ok result]
    constructor
    · intro h
      exact ⟨a, between, rfl, h⟩
    · rintro ⟨_, _, ⟨⟩, h⟩
      exact h

/-- A function of the result changes nothing else. -/
theorem exec_map (f : α → β) (x : Operation Simulation α) (s : Setting) (w : World) :
    (f <$> x).exec s w = ((x.exec s w).1.map f, (x.exec s w).2) := by
  rw [map_eq_pure_bind, exec_bind]
  rcases x.exec s w with ⟨_ | _, w'⟩ <;> rfl

@[simp] theorem exec_ask (x : Simulation α) (s : Setting) (w : World) :
    (ask x).exec s w = (.ok (x s w).1, (x s w).2) := rfl

/-- A request of the host is answered at once and cannot fail. -/
@[simp] theorem exec_ask_bind (x : Simulation α) (f : α → Operation Simulation β) (s : Setting)
    (w : World) : (ask x >>= f).exec s w = (f (x s w).1).exec s (x s w).2 := by
  rw [exec_bind, exec_ask]

end Operation

/-! ## Requests -/

/-- The program sees something at a path. -/
def World.Sees (w : World) (p : Path) : Prop :=
  (w.tree.kind? w.cwd p).isSome

/-- The program sees a file at a path. -/
def World.HasFile (w : World) (p : Path) : Prop :=
  ∃ executable, w.tree.kind? w.cwd p = some (.file executable)

instance (w : World) (p : Path) : Decidable (w.HasFile p) :=
  inferInstanceAs (Decidable (∃ executable, w.tree.kind? w.cwd p = some (.file executable)))

namespace Simulation

variable (s : Setting) (w : World)

/-- The kind of an entry is read off the tree, from where the program stands. -/
@[simp] theorem entryKind?_apply (p : Path) :
    (Host.entryKind? p : Simulation _) s w = (w.tree.kind? w.cwd p, w) := rfl

@[simp] theorem isFile_apply_snd (p : Path) :
    ((Host.isFile p : Simulation _) s w).2 = w := rfl

/-- The program sees a file where it is told so. -/
theorem isFile_iff (p : Path) :
    ((Host.isFile p : Simulation _) s w).1 = true ↔ w.HasFile p := by
  unfold Host.isFile World.HasFile
  simp only [bind_apply, entryKind?_apply]
  constructor
  · intro h
    split at h
    · next executable is => exact ⟨executable, is⟩
    · cases h
  · rintro ⟨executable, is⟩
    rw [is]
    rfl

/-- Looking through some paths for a file changes nothing. -/
theorem firstFile_apply (ps : List Path) : (Host.firstFile ps : Simulation _) s w
    = (ps.find? fun p => ((Host.isFile p : Simulation _) s w).1, w) := by
  induction ps with
  | nil => rfl
  | cons p ps ih =>
    unfold Host.firstFile
    rw [bind_apply, isFile_apply_snd, List.find?_cons]
    cases ((Host.isFile p : Simulation _) s w).1 with
    | true => rfl
    | false => exact ih

/-- A printed line is one event, with its line break. -/
@[simp] theorem printLine_apply (text : String) :
    (Host.printLine text : Simulation _) s w
      = ((), w.record (.emitted (.output (text ++ "\n")))) := rfl

/-- Debug messages are recorded at any level; it is the log that leaves them out. -/
@[simp] theorem debug_apply (message : String) :
    (Host.debug message : Simulation _) s w
      = ((), w.record (.emitted (.log ⟨.debug, message⟩))) := rfl

/-- A status line is written unless the shell is quiet. -/
theorem status_apply (shell : Shell) (status : Status) (message : String) :
    (Host.status shell status message : Simulation _) s w
      = ((), if shell.isQuiet then w
          else w.record (.emitted (.notice (shell.statusLine status message)))) := by
  unfold Host.status
  split <;> rfl

end Simulation

/-! ## Looking -/

/-- A request that changes nothing. -/
def Simulation.Looks {α : Type} (x : Simulation α) : Prop :=
  ∀ s w, (x s w).2 = w

namespace Simulation.Looks

variable {α β : Type}

theorem pure (a : α) : Looks (Pure.pure a : Simulation α) := fun _ _ => rfl

/-- A simulation that looks around in two stages looks around. -/
theorem bind {x : Simulation α} {f : α → Simulation β} (hx : Looks x) (hf : ∀ a, Looks (f a)) :
    Looks (x >>= f) := by
  intro s w
  rw [bind_apply, hf, hx]

/-- Variables are read from the setting. -/
theorem environment (name : String) : Looks (Host.environment name : Simulation _) :=
  fun _ _ => rfl

theorem currentDirectory : Looks (Host.currentDirectory : Simulation _) := fun _ _ => rfl

/-- Changing nothing is a matter of the first request alone. -/
def correspondence : Host.Correspondence Simulation Simulation where
  Related x _ := Looks x
  pure a := pure a
  bind hx hf := hx.bind hf
  environment := environment
  currentDirectory := currentDirectory
  entryKind? _ := fun _ _ => rfl

/-- Looking for `cmake` changes nothing. -/
theorem findCMake : Looks (Host.findCMake : Simulation _) :=
  correspondence.findCMake

end Simulation.Looks

/-- Looking for `cmake` changes nothing, and only a dry run does without it. -/
theorem Task.exec_cmake (t : Task) (s : Setting) (w : World) :
    t.cmake.exec s w = (match ((Host.findCMake : Simulation _) s w).1 with
      | some cmake => .ok cmake
      | none => if t.dryRun then .ok ⟨"cmake"⟩ else .error (.diagnosed .cmakeNotFound), w) := by
  unfold cmake
  rw [Operation.exec_ask_bind, Simulation.Looks.findCMake s w]
  cases ((Host.findCMake : Simulation _) s w).1 with
  | some cmake => rfl
  | none =>
    cases dry : t.dryRun <;> rfl

end BuildVariants
