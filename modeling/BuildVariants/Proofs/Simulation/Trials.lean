import BuildVariants.Proofs.Simulation.Triple

/-!
# Commands tried one after the other

An operation follows a script of commands (`Operation.Follows`) if it tries them in that order, goes
on to the next one just when a process has ended well, and succeeds exactly when all of them did.
What it has tried is a prefix of the script, and the whole of it unless a process has failed.

A script is put together like the operation: what tries nothing and succeeds may stand in front of
it (`Follows.quiet_bind`), and one script may stand behind another (`Follows.bind`).
-/

namespace BuildVariants

/-- A process that was tried, and how it went. -/
structure Trial where
  /-- The command. -/
  command : Command
  /-- How the process ended, or why it could not be started. -/
  result : Except OsError Exit
  deriving DecidableEq

/-- Whether the process was started and ended well. -/
def Trial.succeeded (a : Trial) : Bool :=
  match a.result with
  | .ok exit => exit.ending.isSuccess
  | .error _ => false

/-- The process that was tried. -/
def Event.trial? : Event → Option Trial
  | ran c _ result => some ⟨c, result⟩
  | emitted _ => none

namespace World

/-- The processes that were tried, first to last. -/
def trials (w : World) : List Trial :=
  w.events.filterMap Event.trial?

@[simp] theorem trials_withTree (w : World) (t : FileTree) :
    (w.withTree t).trials = w.trials := rfl

@[simp] theorem trials_record_emitted (w : World) (e : Emission) :
    (w.record (.emitted e)).trials = w.trials := by
  simp [trials, Event.trial?]

/-- Each process that was run is a trial, with its outcome. -/
@[simp] theorem trials_record_ran (w : World) (c : Command) (wiring : Wiring)
    (result : Except OsError Exit) :
    (w.record (.ran c wiring result)).trials = w.trials ++ [⟨c, result⟩] := by
  simp [trials, Event.trial?]

/-- The commands that were tried are those of the processes. -/
theorem commands_eq (w : World) : w.commands = w.trials.map Trial.command := by
  unfold commands trials
  rw [List.map_filterMap]
  congr 1
  funext e
  cases e <;> rfl

theorem Tells.trials_eq {w w' : World} (h : World.Tells w w') : w'.trials = w.trials := by
  refine h.events_induction (fun events => events.filterMap Event.trial? = w.trials) rfl ?_
  intro events e same
  rw [List.filterMap_append, same]
  exact List.append_nil _

end World

/-- No process has been tried after one that failed. -/
def World.StopsAtFailure (before after : World) : Prop :=
  ∃ tried, after.trials = before.trials ++ tried ∧ ∀ a ∈ tried.dropLast, a.succeeded

/-- Where nothing is tried, nothing is tried after a failure. -/
theorem World.StopsAtFailure.refl (w : World) : World.StopsAtFailure w w :=
  ⟨[], (List.append_nil _).symm, nofun⟩

/-! ## Scripts -/

/-- Some commands of a script have been tried, one after the other, and `done` says whether all of
them have ended well. -/
structure Played (script : List Command) (tried : List Trial) (done : Prop) : Prop where
  /-- They are the first ones of the script. -/
  order : tried.map Trial.command <+: script
  /-- Each but the last one has ended well. -/
  earlier : ∀ a ∈ tried.dropLast, a.succeeded
  /-- It is done when the whole script has ended well. -/
  done_iff : done ↔ tried.map Trial.command = script ∧ ∀ a ∈ tried, a.succeeded
  /-- It ends early only where a process has failed. -/
  failed : ¬ done → ∃ a ∈ tried, ¬ a.succeeded

namespace Played

variable {script rest : List Command} {tried tried' : List Trial} {done : Prop}

theorem nil : Played [] [] True :=
  ⟨List.prefix_rfl, nofun, ⟨fun _ => ⟨rfl, nofun⟩, fun _ => trivial⟩, fun h => absurd trivial h⟩

/-- A command that is tried is the whole of its script, and the script is done if it succeeded. -/
theorem single (a : Trial) : Played [a.command] [a] (a.succeeded = true) := by
  refine ⟨List.prefix_rfl, nofun, ⟨?_, ?_⟩, fun h => ⟨a, List.mem_singleton_self a, h⟩⟩
  · intro ok
    refine ⟨rfl, ?_⟩
    intro b hb
    rw [List.mem_singleton.1 hb]
    exact ok
  · intro h
    exact h.2 a (List.mem_singleton_self a)

/-- It is enough to know when a script is done. -/
theorem congr {done' : Prop} (h : Played script tried done) (iff : done' ↔ done) :
    Played script tried done' :=
  ⟨h.order, h.earlier, iff.trans h.done_iff, fun early => h.failed (mt iff.2 early)⟩

/-- A script that ended early is not played to the end of a longer one. -/
theorem stopped (h : Played script tried False) (rest : List Command) :
    Played (script ++ rest) tried False := by
  refine ⟨h.order.trans (List.prefix_append _ _), h.earlier, ⟨False.elim, ?_⟩, h.failed⟩
  rintro ⟨whole, succeeded⟩
  refine h.done_iff.2 ⟨?_, succeeded⟩
  refine h.order.eq_of_length_le ?_
  rw [whole, List.length_append]
  omega

/-- After a script that was played to its end, another one is played. -/
theorem append (h : Played script tried True) (h' : Played rest tried' done) :
    Played (script ++ rest) (tried ++ tried') done := by
  obtain ⟨whole, succeeded⟩ := h.done_iff.1 trivial
  constructor
  · rw [List.map_append, whole]
    exact (List.prefix_append_right_inj script).2 h'.order
  · -- The last process of the first script is not the last one if anything has been tried since.
    intro a ha
    by_cases none : tried' = []
    · rw [none, List.append_nil] at ha
      exact succeeded a (List.dropLast_subset tried ha)
    · rw [List.dropLast_append_of_ne_nil none] at ha
      rcases List.mem_append.1 ha with ha | ha
      · exact succeeded a ha
      · exact h'.earlier a ha
  · rw [h'.done_iff, List.map_append, whole, List.append_cancel_left_eq, List.forall_mem_append]
    exact ⟨fun ⟨rest, ok⟩ => ⟨rest, succeeded, ok⟩, fun ⟨rest, _, ok⟩ => ⟨rest, ok⟩⟩
  · intro early
    obtain ⟨a, ha, bad⟩ := h'.failed early
    exact ⟨a, List.mem_append_right tried ha, bad⟩

end Played

namespace Operation

variable {α β : Type} {x : Operation Simulation α} {f : α → Operation Simulation β} {s : Setting}
  {w : World} {script rest : List Command}

/-- An operation tries the commands of a script, and succeeds when all of them do. -/
def Follows (x : Operation Simulation α) (s : Setting) (w : World) (script : List Command) : Prop :=
  ∃ tried, (x.exec s w).2.trials = w.trials ++ tried ∧ Played script tried (x.exec s w).1.isOk

namespace Follows

/-- What goes the same way follows the same script. -/
theorem of_exec_eq {γ : Type} {y : Operation Simulation γ} (h : Follows y s w script)
    (world : (x.exec s w).2 = (y.exec s w).2) (ok : (x.exec s w).1.isOk = (y.exec s w).1.isOk) :
    Follows x s w script := by
  unfold Follows
  rw [world, ok]
  exact h

/-- What tries nothing and succeeds follows the empty script. -/
theorem of_quiet (quiet : (x.exec s w).2.trials = w.trials) (ok : (x.exec s w).1.isOk) :
    Follows x s w [] :=
  ⟨[], quiet.trans (List.append_nil _).symm, Played.nil.congr (iff_true_intro ok)⟩

theorem pure (a : α) : Follows (Pure.pure a) s w [] :=
  of_quiet rfl rfl

/-- What tries nothing and succeeds may stand in front of a script. -/
theorem quiet_bind {a : α} {w' : World} (ok : x.exec s w = (.ok a, w'))
    (quiet : w'.trials = w.trials) (h : Follows (f a) s w' script) :
    Follows (x >>= f) s w script := by
  obtain ⟨tried, grown, played⟩ := h
  refine ⟨tried, ?_, ?_⟩
  · rw [exec_bind_of_ok ok, grown, quiet]
  · rw [exec_bind_of_ok ok]
    exact played

/-- One script stands behind another. -/
theorem bind (hx : Follows x s w script)
    (hf : ∀ a w', x.exec s w = (.ok a, w') → Follows (f a) s w' rest) :
    Follows (x >>= f) s w (script ++ rest) := by
  obtain ⟨tried, grown, played⟩ := hx
  rcases result : x.exec s w with ⟨e | a, w'⟩
  · rw [result] at grown played
    refine ⟨tried, ?_, ?_⟩
    · rw [exec_bind_of_error result]
      exact grown
    · rw [exec_bind_of_error result]
      have failed : Played script tried False := played.congr (iff_of_false id nofun)
      exact (failed.stopped rest).congr (iff_of_false nofun id)
  · rw [result] at grown played
    obtain ⟨tried', grown', played'⟩ := hf a w' result
    refine ⟨tried ++ tried', ?_, ?_⟩
    · rw [exec_bind_of_ok result, grown', ← List.append_assoc]
      exact congrArg (· ++ tried') grown
    · rw [exec_bind_of_ok result]
      exact (played.congr (iff_of_true trivial rfl)).append played'

end Follows

/-- Each kind of wiring announces a command in words of its own; then the command is tried. -/
theorem exists_runCommand_eq (c : Command) (wiring : Wiring) :
    ∃ message, (runCommand c wiring : Operation Simulation Exit) = (do
      ask (Host.debug message)
      match ← ask (Host.run c wiring) with
        | .ok exit => return exit
        | .error e => throw (.execute c.program e)) := by
  cases wiring <;> exact ⟨_, rfl⟩

/-- A command is tried once, whatever comes of it. -/
theorem exec_runCommand (c : Command) (wiring : Wiring) (s : Setting) (w : World) :
    ∃ (result : Except OsError Exit) (w' : World), w'.trials = w.trials ++ [⟨c, result⟩] ∧
      (runCommand c wiring).exec s w = match result with
        | .ok exit => (.ok exit, w')
        | .error e => (.error (.execute c.program e), w') := by
  obtain ⟨message, is⟩ := exists_runCommand_eq c wiring
  rw [is, exec_ask_bind, Simulation.debug_apply, exec_ask_bind]
  refine ⟨(Simulation.run c wiring s (w.record (.emitted (.log ⟨.debug, message⟩)))).1,
    (Simulation.run c wiring s (w.record (.emitted (.log ⟨.debug, message⟩)))).2, ?_, ?_⟩
  · unfold Simulation.run
    split <;> simp
  · show _ = _
    cases (Simulation.run c wiring s (w.record (.emitted (.log ⟨.debug, message⟩)))).1 <;> rfl

end Operation

namespace Task

open Operation

variable {t : Task} {s : Setting} {w : World}

/-! ## One step -/

/-- A step tries its command, and succeeds if the process ends well. -/
theorem follows_runCommand_bind {α : Type} {c : Command} {wiring : Wiring}
    {f : Exit → Operation Simulation α}
    (quiet : ∀ exit w', ((f exit).exec s w').2.trials = w'.trials)
    (ok : ∀ exit w', ((f exit).exec s w').1.isOk = exit.ending.isSuccess) :
    Follows (Operation.runCommand c wiring >>= f) s w [c] := by
  obtain ⟨result, w', grown, is⟩ := exec_runCommand c wiring s w
  refine ⟨[⟨c, result⟩], ?_⟩
  have played := Played.single ⟨c, result⟩
  cases result with
  | error e =>
    rw [exec_bind_of_error is]
    exact ⟨grown, played.congr (iff_of_false nofun nofun)⟩
  | ok exit =>
    rw [exec_bind_of_ok is, quiet, ok]
    exact ⟨grown, played⟩

/-- In earnest, a step tries its one command. -/
theorem follows_step (acting : t.dryRun = false) (status : Status) (what : String) (c : Command) :
    Follows (t.step status what c) s w [c] := by
  have told (status : Status) (message : String) (w : World) :
      ((Host.status t.shell status message : Simulation _) s w).2.trials = w.trials :=
    (Simulation.Tells.status t.shell status message s w).trials_eq
  unfold step
  rw [if_neg (Bool.eq_false_iff.1 acting)]
  split
  · refine Follows.quiet_bind (exec_ask _ s w) (told _ _ w) ?_
    refine follows_runCommand_bind ?_ ?_
    all_goals
      intro exit w'
      cases success : exit.ending.isSuccess <;> rfl
  · refine Follows.quiet_bind (exec_ask Host.milliseconds s w) rfl ?_
    refine Follows.quiet_bind (exec_ask _ s _) (told _ _ _) ?_
    refine follows_runCommand_bind ?_ ?_
    · intro exit w'
      cases success : exit.ending.isSuccess with
      | false => rfl
      | true => exact told _ _ w'
    · intro exit w'
      cases success : exit.ending.isSuccess <;> rfl

end Task

end BuildVariants
