import BuildVariants.Proofs.Operation.Call
import BuildVariants.Proofs.Simulation.Execution

/-!
# Rehearsals

A dry run rehearses what the same operation does in earnest.  Its script is a list of commands: the
rehearsal *prints* the script and does nothing else (`Displays`), the performance *attempts* it from
the beginning, and as far as it gets (`Attempts`).  `Rehearses` says that one script serves both,
and `Rehearses.bind` puts two scripts together.

The two executions part company as soon as the first process has run: from there on the performance
sees a file tree that the rehearsal knows nothing about.  So the second half of an operation has to
be a rehearsal between *any* two worlds, while the first half, which looks for `cmake` and at the
build directory, has both executions in one world and sees the same in both (`bind_same`).
-/

namespace BuildVariants

/-- The lines a dry run prints for a command: where it would be started, and what is started. -/
def Command.lines (c : Command) : List String :=
  match c.cwd? with
  | some cwd => ["cd " ++ cwd.text ++ "\n", c.display ++ "\n"]
  | none => [c.display ++ "\n"]

/-- Nothing has happened but that some texts were printed. -/
structure World.Prints (before after : World) (texts : List String) : Prop where
  /-- The file tree is as before. -/
  tree : after.tree = before.tree
  /-- The program is where it was. -/
  cwd : after.cwd = before.cwd
  /-- No process was tried. -/
  commands : after.commands = before.commands
  /-- The texts were printed. -/
  printed : after.printed = before.printed ++ texts

namespace World.Prints

theorem refl (w : World) : World.Prints w w [] :=
  ⟨rfl, rfl, rfl, (List.append_nil _).symm⟩

theorem trans {u v w : World} {first second : List String} (h : World.Prints u v first)
    (k : World.Prints v w second) : World.Prints u w (first ++ second) := by
  refine ⟨k.tree.trans h.tree, k.cwd.trans h.cwd, k.commands.trans h.commands, ?_⟩
  rw [k.printed, h.printed, List.append_assoc]

theorem record_output (w : World) (text : String) :
    World.Prints w (w.record (.emitted (.output text))) [text] :=
  ⟨rfl, rfl, by simp, by simp⟩

end World.Prints

namespace Operation

variable {α β : Type} {s : Setting} {w v : World} {script more : List Command}

/-- An operation that prints a script and does nothing else. -/
def Displays (x : Operation Simulation α) (s : Setting) (w : World) (script : List Command) :
    Prop :=
  World.Prints w (x.exec s w).2 (script.flatMap Command.lines)

/-- An operation that tries the commands of a script one after the other, and if it succeeds all
of them. -/
def Attempts (x : Operation Simulation α) (s : Setting) (w : World) (script : List Command) :
    Prop :=
  ∃ done, (x.exec s w).2.commands = w.commands ++ done ∧ done <+: script ∧
    ((x.exec s w).1.isOk → done = script)

/-- One operation prints the script that the other one attempts, and succeeds if that one does. -/
def Rehearses (x y : Operation Simulation α) (s : Setting) (w v : World) : Prop :=
  ∃ script, Displays x s w script ∧ Attempts y s v script ∧
    ((y.exec s v).1.isOk → (x.exec s w).1.isOk)

/-! ## Displaying -/

/-- An operation that leaves the world alone displays the empty script. -/
theorem displays_of_eq {x : Operation Simulation α} {r : Except Failure α}
    (h : x.exec s w = (r, w)) : Displays x s w [] := by
  unfold Displays
  rw [h]
  exact World.Prints.refl w

/-- Scripts are displayed one after the other. -/
theorem Displays.bind_of_ok {x : Operation Simulation α} {f : α → Operation Simulation β} {a : α}
    {w' : World} (h : Displays x s w script) (ok : x.exec s w = (.ok a, w'))
    (k : Displays (f a) s w' more) : Displays (x >>= f) s w (script ++ more) := by
  unfold Displays at h ⊢
  rw [ok] at h
  rw [exec_bind_of_ok ok, List.flatMap_append]
  exact h.trans k

/-- Nothing is displayed behind a failure. -/
theorem Displays.bind_of_error {x : Operation Simulation α} {f : α → Operation Simulation β}
    {e : Failure} {w' : World} (h : Displays x s w script) (error : x.exec s w = (.error e, w')) :
    Displays (x >>= f) s w script := by
  unfold Displays at h ⊢
  rw [error] at h
  rw [exec_bind_of_error error]
  exact h

/-! ## Attempting -/

/-- An operation that tries nothing attempts the empty script. -/
theorem attempts_nil {x : Operation Simulation α}
    (h : (x.exec s w).2.commands = w.commands) : Attempts x s w [] :=
  ⟨[], by rw [h, List.append_nil], List.nil_prefix, fun _ => rfl⟩

/-- An operation that fails before it has tried anything attempts every script. -/
theorem attempts_of_error {x : Operation Simulation α} {e : Failure} {w' : World}
    (h : x.exec s w = (.error e, w')) (commands : w'.commands = w.commands)
    (script : List Command) : Attempts x s w script := by
  refine ⟨[], ?_, List.nil_prefix, ?_⟩
  · rw [h, List.append_nil]
    exact commands
  · rw [h]
    intro ok
    cases ok

/-- Scripts are tried one after the other. -/
theorem Attempts.bind_of_ok {x : Operation Simulation α} {f : α → Operation Simulation β} {a : α}
    {w' : World} (h : Attempts x s w script) (ok : x.exec s w = (.ok a, w'))
    (k : Attempts (f a) s w' more) : Attempts (x >>= f) s w (script ++ more) := by
  obtain ⟨done, commands, -, all⟩ := h
  obtain ⟨next, nextCommands, pre, allNext⟩ := k
  rw [ok] at commands all
  have whole : done = script := all rfl
  subst whole
  refine ⟨done ++ next, ?_, (List.prefix_append_right_inj _).2 pre, ?_⟩
  · rw [exec_bind_of_ok ok, nextCommands, commands, List.append_assoc]
  · rw [exec_bind_of_ok ok]
    intro isOk
    rw [allNext isOk]

/-- Behind a failure nothing more is tried, so any script may be meant to follow: what was tried is
at its beginning. -/
theorem Attempts.bind_of_error {x : Operation Simulation α} {f : α → Operation Simulation β}
    {e : Failure} {w' : World} (h : Attempts x s w script)
    (error : x.exec s w = (.error e, w')) (more : List Command) :
    Attempts (x >>= f) s w (script ++ more) := by
  obtain ⟨done, commands, pre, -⟩ := h
  rw [error] at commands
  refine ⟨done, ?_, pre.trans (List.prefix_append _ _), ?_⟩
  · rw [exec_bind_of_error error]
    exact commands
  · rw [exec_bind_of_error error]
    intro ok
    cases ok

/-- If what follows tries its script from any world, the script does not depend on how the first
operation went. -/
theorem Attempts.bind {x : Operation Simulation α} {f : α → Operation Simulation β}
    (h : Attempts x s w script) (k : ∀ a w', Attempts (f a) s w' more) :
    Attempts (x >>= f) s w (script ++ more) := by
  rcases result : x.exec s w with ⟨e | a, w'⟩
  · exact h.bind_of_error result more
  · exact h.bind_of_ok result (k a w')

/-- Something that tries no process may follow. -/
theorem Attempts.bind_nil {x : Operation Simulation α} {f : α → Operation Simulation β}
    (h : Attempts x s w script) (k : ∀ a w', Attempts (f a) s w' []) :
    Attempts (x >>= f) s w script := by
  rw [← List.append_nil script]
  exact h.bind k

/-- A request that tries no process. -/
theorem attempts_ask {x : Simulation α} (h : (x s w).2.commands = w.commands) :
    Attempts (ask x) s w [] :=
  attempts_nil h

/-- A status message tries nothing. -/
theorem attempts_status (shell : Shell) (status : Status) (message : String) :
    Attempts (ask (Host.status shell status message)) s w [] := by
  refine attempts_ask ?_
  rw [Simulation.status_apply]
  split
  · rfl
  · exact World.commands_record_emitted w _

/-! ## Rehearsing -/

namespace Rehearses

theorem pure (a b : α) : Rehearses (Pure.pure a) (Pure.pure b) s w v :=
  ⟨[], displays_of_eq rfl, attempts_nil rfl, id⟩

theorem throw (e : Failure) :
    Rehearses (MonadExcept.throw e : Operation Simulation α) (MonadExcept.throw e) s w v :=
  ⟨[], displays_of_eq rfl, attempts_nil rfl, id⟩

/-- **Scripts are put together**: if the first halves rehearse one another, and the second halves do
so between any two worlds, then so do the wholes. -/
theorem bind {x y : Operation Simulation α} {f g : α → Operation Simulation β}
    (h : Rehearses x y s w v) (k : ∀ a b w v, Rehearses (f a) (g b) s w v) :
    Rehearses (x >>= f) (y >>= g) s w v := by
  obtain ⟨script, shown, tried, oks⟩ := h
  rcases dry : x.exec s w with ⟨e | a, w'⟩ <;> rcases real : y.exec s v with ⟨e' | b, v'⟩
  · -- Both have failed, and nothing follows.
    refine ⟨script, shown.bind_of_error dry, ?_, ?_⟩
    · have := tried.bind_of_error (f := g) real []
      rwa [List.append_nil] at this
    · rw [exec_bind_of_error real]
      intro ok
      cases ok
  · rw [dry, real] at oks
    cases oks rfl
  · -- The performance has failed; the script goes on without it.
    obtain ⟨more, shownMore, -, -⟩ := k a a w' v'
    refine ⟨script ++ more, shown.bind_of_ok dry shownMore, tried.bind_of_error real more, ?_⟩
    rw [exec_bind_of_error real]
    intro ok
    cases ok
  · obtain ⟨more, shownMore, triedMore, oksMore⟩ := k a b w' v'
    refine ⟨script ++ more, shown.bind_of_ok dry shownMore, tried.bind_of_ok real triedMore, ?_⟩
    rw [exec_bind_of_ok dry, exec_bind_of_ok real]
    exact oksMore

/-- While nothing has been changed, both executions are in one world and go on with one result. -/
theorem bind_same {x y : Operation Simulation α} {f g : α → Operation Simulation β} {a : α}
    (hx : x.exec s w = (.ok a, w)) (hy : y.exec s w = (.ok a, w))
    (k : Rehearses (f a) (g a) s w w) : Rehearses (x >>= f) (y >>= g) s w w := by
  obtain ⟨script, shown, tried, oks⟩ := k
  refine ⟨script, displays_of_eq hx |>.bind_of_ok hx shown, ?_, ?_⟩
  · exact (attempts_nil (by rw [hy])).bind_of_ok hy tried
  · rw [exec_bind_of_ok hx, exec_bind_of_ok hy]
    exact oks

/-- The rehearsal may go on where the performance gives up. -/
theorem bind_of_error {x y : Operation Simulation α} {f g : α → Operation Simulation β} {a : α}
    {e : Failure} (hx : x.exec s w = (.ok a, w)) (hy : y.exec s w = (.error e, w))
    (k : Rehearses (f a) (g a) s w w) : Rehearses (x >>= f) (y >>= g) s w w := by
  obtain ⟨script, shown, -, -⟩ := k
  refine ⟨script, displays_of_eq hx |>.bind_of_ok hx shown,
    attempts_of_error (exec_bind_of_error hy g) rfl script, ?_⟩
  rw [exec_bind_of_error hy]
  intro ok
  cases ok

/-- A look at the world is the same in both executions. -/
theorem ask_bind {x : Simulation α} {f g : α → Operation Simulation β} (looks : x.Looks)
    (k : Rehearses (f (x s w).1) (g (x s w).1) s w w) :
    Rehearses (ask x >>= f) (ask x >>= g) s w w := by
  have asked : (ask x).exec s w = (.ok (x s w).1, w) := by
    rw [exec_ask, looks]
  exact bind_same asked asked k

theorem map {x y : Operation Simulation α} (f : α → β) (h : Rehearses x y s w v) :
    Rehearses (f <$> x) (f <$> y) s w v := by
  rw [map_eq_pure_bind, map_eq_pure_bind]
  exact h.bind fun a b w v => pure (f a) (f b)

end Rehearses

end Operation

end BuildVariants
