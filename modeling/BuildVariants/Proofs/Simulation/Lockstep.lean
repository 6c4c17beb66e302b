import BuildVariants.Proofs.Simulation.Trials

/-!
# Two executions in lockstep

Two worlds are alike (`World.Alike`) if they have the same file tree with the program at the same
place in it, the same processes have been tried in them with the same outcomes, and the same lines
have been printed; they may differ in what else the user was told, and in where the output of a
process went.  Two operations keep step (`Operation.Lockstep`) if from worlds that are alike they
end in worlds that are alike, with the same result or both with a failure.

Operations in lockstep are put together by `Lockstep.bind`, and what one of them tells the user
besides may be missing in the other one (`Lockstep.told_bind`).  As lockstep is symmetric and
transitive, two ways of doing a thing can be compared with a third one that is simpler than both.
-/

namespace BuildVariants

/-- Two worlds that differ at most in what the user was told besides the printed lines. -/
structure World.Alike (w v : World) : Prop where
  /-- They have the same file tree. -/
  tree : w.tree = v.tree
  /-- The program is at the same place. -/
  cwd : w.cwd = v.cwd
  /-- The same processes have been tried, with the same outcomes. -/
  trials : w.trials = v.trials
  /-- The same lines have been printed. -/
  printed : w.printed = v.printed

namespace World.Alike

variable {u v w : World}

theorem refl (w : World) : Alike w w := ⟨rfl, rfl, rfl, rfl⟩

theorem symm (h : Alike w v) : Alike v w :=
  ⟨h.tree.symm, h.cwd.symm, h.trials.symm, h.printed.symm⟩

theorem trans (h : Alike u v) (k : Alike v w) : Alike u w :=
  ⟨h.tree.trans k.tree, h.cwd.trans k.cwd, h.trials.trans k.trials, h.printed.trans k.printed⟩

/-- The same commands have been run in both worlds, as these are the commands of the trials. -/
theorem commands (h : Alike w v) : w.commands = v.commands := by
  rw [commands_eq, commands_eq, h.trials]

/-- The trees may be changed on both sides in the same way. -/
theorem withTree (h : Alike w v) (tree : FileTree) : Alike (w.withTree tree) (v.withTree tree) :=
  ⟨rfl, congrArg (·.settle tree) h.cwd, h.trials, h.printed⟩

/-- What is printed has to be printed on both sides. -/
theorem record_output (h : Alike w v) (text : String) :
    Alike (w.record (.emitted (.output text))) (v.record (.emitted (.output text))) :=
  ⟨h.tree, h.cwd, by simp [h.trials], by simp [h.printed]⟩

/-- Where the output of a process goes makes no difference. -/
theorem record_ran (h : Alike w v) (c : Command) (wiring wiring' : Wiring)
    (result : Except OsError Exit) :
    Alike (w.record (.ran c wiring result)) (v.record (.ran c wiring' result)) :=
  ⟨h.tree, h.cwd, by simp [h.trials], by simp [h.printed]⟩

theorem of_notice (w : World) (text : String) : Alike (w.record (.emitted (.notice text))) w :=
  ⟨rfl, rfl, by simp, by simp⟩

theorem of_log (w : World) (r : LogRecord) : Alike (w.record (.emitted (.log r))) w :=
  ⟨rfl, rfl, by simp, by simp⟩

end World.Alike

/-! ## Requests -/

namespace Simulation

variable {α β : Type} {s : Setting}

/-- From worlds that are alike, two requests give the same answer and end in worlds that are
alike. -/
def Lockstep (x y : Simulation α) (s : Setting) : Prop :=
  ∀ w v, World.Alike w v → (x s w).1 = (y s v).1 ∧ World.Alike (x s w).2 (y s v).2

/-- A request after which the world is like before. -/
def Aside (x : Simulation α) : Prop :=
  ∀ s w, World.Alike (x s w).2 w

namespace Lockstep

/-- Both sides give the same result. -/
theorem pure (a : α) : Lockstep (Pure.pure a) (Pure.pure a) s :=
  fun _ _ alike => ⟨rfl, alike⟩

/-- Lockstep is kept by what follows, because both results are the same: one continuation is related
to the other at a single value only. -/
theorem bind {x y : Simulation α} {f g : α → Simulation β} (h : Lockstep x y s)
    (k : ∀ a, Lockstep (f a) (g a) s) : Lockstep (x >>= f) (y >>= g) s := by
  intro w v alike
  obtain ⟨same, after⟩ := h w v alike
  rw [bind_apply, bind_apply, same]
  exact k _ _ _ after

theorem environment (name : String) :
    Lockstep (Host.environment name) (Host.environment name) s :=
  fun _ _ alike => ⟨rfl, alike⟩

theorem currentDirectory : Lockstep Host.currentDirectory Host.currentDirectory s :=
  fun _ _ alike => ⟨congrArg Place.path alike.cwd, alike⟩

/-- Both trees are the same, and so is the place from which they are looked at. -/
theorem entryKind? (p : Path) : Lockstep (Host.entryKind? p) (Host.entryKind? p) s := by
  intro w v alike
  rw [entryKind?_apply, entryKind?_apply, alike.tree, alike.cwd]
  exact ⟨rfl, alike⟩

theorem pathExists (p : Path) : Lockstep (Host.pathExists p) (Host.pathExists p) s :=
  (entryKind? p).bind fun _ => pure _

theorem isFile (p : Path) : Lockstep (Host.isFile p) (Host.isFile p) s :=
  (entryKind? p).bind fun _ => pure _

/-- A change of the file tree is the same in both worlds. -/
theorem change (f : Place → FileTree → Except OsError Unit × FileTree) :
    Lockstep (Simulation.change f) (Simulation.change f) s := by
  intro w v alike
  unfold Simulation.change
  rw [alike.tree, alike.cwd]
  exact ⟨rfl, alike.withTree _⟩

/-- A printed line is part of what is compared. -/
theorem printLine (text : String) : Lockstep (Host.printLine text) (Host.printLine text) s :=
  fun _ _ alike => ⟨rfl, alike.record_output _⟩

/-- A process goes the same way wherever its output goes. -/
theorem run (c : Command) (wiring wiring' : Wiring) :
    Lockstep (Host.run c wiring) (Host.run c wiring') s := by
  intro w v alike
  show (Simulation.run c wiring s w).1 = (Simulation.run c wiring' s v).1 ∧ World.Alike
    (Simulation.run c wiring s w).2 (Simulation.run c wiring' s v).2
  unfold Simulation.run
  rw [alike.commands, alike.tree, alike.cwd]
  cases s.children v.commands.length c v.cwd v.tree with
  | error e => exact ⟨rfl, alike.record_ran c wiring wiring' _⟩
  | ok answer => exact ⟨rfl, (alike.withTree answer.2).record_ran c wiring wiring' _⟩

/-! ### Looking for `cmake` -/

/-- Lockstep in one setting. -/
def correspondence (s : Setting) : Host.Correspondence Simulation Simulation where
  Related x y := Lockstep x y s
  pure := pure
  bind h k := h.bind k
  environment := environment
  currentDirectory := currentDirectory
  entryKind? := entryKind?

/-- The same `cmake` is found in worlds that are alike. -/
theorem findCMake : Lockstep Host.findCMake Host.findCMake s :=
  (correspondence s).findCMake

end Lockstep

namespace Aside

theorem milliseconds : Aside Host.milliseconds :=
  fun _ w => .refl w

theorem debug (message : String) : Aside (Host.debug message) :=
  fun _ w => .of_log w _

/-- A status message is not compared, whether it is written or not. -/
theorem status (shell : Shell) (status : Status) (message : String) :
    Aside (Host.status shell status message) := by
  intro s w
  rw [status_apply]
  split
  · exact .refl w
  · exact .of_notice w _

end Aside

end Simulation

/-! ## Operations -/

namespace Operation

variable {α β : Type} {s : Setting} {x y z : Operation Simulation α}

/-- From worlds that are alike, two operations end in worlds that are alike, with the same result or
both with a failure. -/
def Lockstep (x y : Operation Simulation α) (s : Setting) : Prop :=
  ∀ w v, World.Alike w v →
    (x.exec s w).1.toOption = (y.exec s v).1.toOption ∧
      World.Alike (x.exec s w).2 (y.exec s v).2

namespace Lockstep

/-- Where one of them succeeds the other one does, with the same result. -/
theorem eq_ok_iff (h : Lockstep x y s) {w v : World} (alike : World.Alike w v) {a : α} :
    (x.exec s w).1 = .ok a ↔ (y.exec s v).1 = .ok a := by
  obtain ⟨same, -⟩ := h w v alike
  cases first : (x.exec s w).1 <;> cases second : (y.exec s v).1 <;> rw [first, second] at same
  · exact iff_of_false nofun nofun
  · cases same
  · cases same
  · cases same
    exact Iff.rfl

/-- Lockstep is symmetric: neither of the two operations is the reference. -/
theorem symm (h : Lockstep x y s) : Lockstep y x s := by
  intro w v alike
  obtain ⟨same, after⟩ := h v w alike.symm
  exact ⟨same.symm, after.symm⟩

/-- Lockstep is transitive, so two operations can be compared by way of a third one that tells less
than either of them. -/
theorem trans (h : Lockstep x y s) (k : Lockstep y z s) : Lockstep x z s := by
  intro w v alike
  obtain ⟨same, after⟩ := h w v alike
  obtain ⟨same', after'⟩ := k v v (.refl v)
  exact ⟨same.trans same', after.trans after'⟩

theorem pure (a : α) : Lockstep (Pure.pure a) (Pure.pure a) s :=
  fun _ _ alike => ⟨rfl, alike⟩

/-- Two failures need not be the same. -/
theorem throw (e e' : Failure) :
    Lockstep (MonadExcept.throw e : Operation Simulation α) (MonadExcept.throw e') s :=
  fun _ _ alike => ⟨rfl, alike⟩

/-- **Lockstep is kept by going on in lockstep.** -/
theorem bind {f g : α → Operation Simulation β} (h : Lockstep x y s)
    (k : ∀ a, Lockstep (f a) (g a) s) : Lockstep (x >>= f) (y >>= g) s := by
  intro w v alike
  obtain ⟨same, after⟩ := h w v alike
  rcases first : x.exec s w with ⟨e | a, w'⟩ <;> rcases second : y.exec s v with ⟨e' | b, v'⟩ <;>
    rw [first, second] at same after
  · rw [exec_bind_of_error first, exec_bind_of_error second]
    exact ⟨rfl, after⟩
  · cases same
  · cases same
  · cases same
    rw [exec_bind_of_ok first, exec_bind_of_ok second]
    exact k a w' v' after

theorem map (f : α → β) (h : Lockstep x y s) : Lockstep (f <$> x) (f <$> y) s := by
  rw [map_eq_pure_bind, map_eq_pure_bind]
  exact h.bind fun a => pure (f a)

theorem ask {x y : Simulation α} (h : Simulation.Lockstep x y s) :
    Lockstep (Operation.ask x) (Operation.ask y) s := by
  intro w v alike
  obtain ⟨same, after⟩ := h w v alike
  exact ⟨congrArg some same, after⟩

/-- What follows two requests in lockstep is compared at the answer of both. -/
theorem ask_bind {x y : Simulation α} {f g : α → Operation Simulation β}
    (h : Simulation.Lockstep x y s) (k : ∀ a, Lockstep (f a) (g a) s) :
    Lockstep (Operation.ask x >>= f) (Operation.ask y >>= g) s :=
  (ask h).bind k

/-- What the user is told aside may be missing in the other execution. -/
theorem told_bind {x : Simulation α} {f : α → Operation Simulation β} {y : Operation Simulation β}
    (aside : x.Aside) (k : ∀ a, Lockstep (f a) y s) : Lockstep (Operation.ask x >>= f) y s := by
  intro w v alike
  rw [exec_ask_bind]
  exact k _ _ v ((aside s w).trans alike)

/-- The same is told in both executions, each in its own way. -/
theorem told_both_bind {x y : Simulation α} {f g : α → Operation Simulation β}
    (aside : x.Aside) (aside' : y.Aside) (k : ∀ a b, Lockstep (f a) (g b) s) :
    Lockstep (Operation.ask x >>= f) (Operation.ask y >>= g) s :=
  told_bind aside fun a => (told_bind aside' fun b => (k a b).symm).symm

/-- A command is tried in the same way wherever the output of its process goes. -/
theorem runCommand (c : Command) (wiring wiring' : Wiring) :
    Lockstep (Operation.runCommand c wiring) (Operation.runCommand c wiring') s := by
  obtain ⟨message, is⟩ := exists_runCommand_eq c wiring
  obtain ⟨message', is'⟩ := exists_runCommand_eq c wiring'
  rw [is, is']
  refine told_both_bind (.debug message) (.debug message') fun _ _ => ?_
  refine ask_bind (.run c wiring wiring') fun result => ?_
  cases result with
  | error e => exact throw _ _
  | ok exit => exact pure exit

end Lockstep

end Operation

end BuildVariants
