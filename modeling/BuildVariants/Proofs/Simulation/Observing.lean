import BuildVariants.Proofs.Simulation.Trials

/-!
# The worlds that processes find

The events of a simulation say which processes were tried and how that went, but not what the world
was like just before.  `Observed` puts a list of such occasions beside a simulation; an operation is
written for any host, so the same operation runs under observation.

`Operation.Observes` says that observing changes nothing, and that there is one occasion for each
command that was tried.  `Operation.TriesWhen` says besides that all occasions are of a kind; its
rules follow the way operations are put together.
-/

namespace BuildVariants

/-- A process that is about to be tried. -/
structure Occasion where
  /-- The command. -/
  command : Command
  /-- The world that the process will find. -/
  world : World

/-- A simulation with the occasions so far. -/
abbrev Observed := StateT (List Occasion) Simulation

instance : Host Observed where
  environment name := StateT.lift (Host.environment name)
  currentDirectory := StateT.lift Host.currentDirectory
  entryKind? p := StateT.lift (Host.entryKind? p)
  readText p := StateT.lift (Host.readText p)
  createAll p := StateT.lift (Host.createAll p)
  removeTree p := StateT.lift (Host.removeTree p)
  run c wiring := fun seen s w =>
    (((Simulation.run c wiring s w).1, seen ++ [⟨c, w⟩]), (Simulation.run c wiring s w).2)
  emit e := StateT.lift (Host.emit e)
  milliseconds := StateT.lift Host.milliseconds

/-- What starts no process is passed on to the simulation. -/
def Observed.passing : Host.Correspondence Observed Simulation where
  Related x y := x = StateT.lift y
  pure _ := rfl
  bind := by
    intro α β x y f g hx hf
    have same : f = fun a => StateT.lift (g a) := funext hf
    rw [hx, same]
    exact (LawfulMonadLift.monadLift_bind y g).symm
  environment _ := rfl
  currentDirectory := rfl
  entryKind? _ := rfl

theorem Observed.passed_status (shell : Shell) (status : Status) (message : String) :
    (Host.status shell status message : Observed Unit)
      = StateT.lift (Host.status shell status message) := by
  unfold Host.status
  split <;> rfl

theorem World.Tells.commands_eq {w w' : World} (h : World.Tells w w') :
    w'.commands = w.commands := by
  rw [World.commands_eq, World.commands_eq, h.trials_eq]

namespace Operation

variable {α β : Type}

/-- The result of an operation under observation, the occasions so far, and the world it leaves
behind. -/
def observe (x : Operation Observed α) (seen : List Occasion) (s : Setting) (w : World) :
    (Except Failure α × List Occasion) × World :=
  x.run seen s w

/-- Under observation an operation goes as it goes without, and these are the occasions on which it
tries a process. -/
structure Observes (x : Operation Observed α) (y : Operation Simulation α) (s : Setting) (w : World)
    (occasions : List Occasion) : Prop where
  /-- The result and the world are the same. -/
  same : ∀ seen, x.observe seen s w = (((y.exec s w).1, seen ++ occasions), (y.exec s w).2)
  /-- There is an occasion for each command. -/
  commands : (y.exec s w).2.commands = w.commands ++ occasions.map Occasion.command

/-- An operation tries processes on occasions of a kind only. -/
def TriesWhen (P : Occasion → Prop) (x : Operation Observed α) (y : Operation Simulation α)
    (s : Setting) (w : World) : Prop :=
  ∃ occasions, Observes x y s w occasions ∧ ∀ o ∈ occasions, P o

namespace TriesWhen

variable {P : Occasion → Prop} {s : Setting} {w : World} {x : Operation Observed α}
  {y : Operation Simulation α} {f : α → Operation Observed β} {g : α → Operation Simulation β}

/-- Where no process is tried there is no occasion. -/
theorem of_quiet (same : ∀ seen, x.observe seen s w = (((y.exec s w).1, seen), (y.exec s w).2))
    (quiet : (y.exec s w).2.commands = w.commands) : TriesWhen P x y s w := by
  refine ⟨[], ⟨?_, ?_⟩, nofun⟩
  · intro seen
    rw [same, List.append_nil]
  · rw [quiet, List.map_nil, List.append_nil]

/-- An operation that only gives a result has no occasions. -/
theorem pure (a : α) : TriesWhen P (Pure.pure a) (Pure.pure a) s w :=
  of_quiet (fun _ => rfl) rfl

theorem throw (e : Failure) :
    TriesWhen P (MonadExcept.throw e) (MonadExcept.throw e : Operation Simulation α) s w :=
  of_quiet (fun _ => rfl) rfl

/-- The predicate is asked for in the worlds in which commands are really run; those of the second
operation are reached through the first one. -/
theorem bind (hx : TriesWhen P x y s w)
    (hf : ∀ a w', y.exec s w = (.ok a, w') → TriesWhen P (f a) (g a) s w') :
    TriesWhen P (x >>= f) (y >>= g) s w := by
  obtain ⟨occasions, observed, kind⟩ := hx
  rcases result : y.exec s w with ⟨e | a, w'⟩
  · refine ⟨occasions, ⟨?_, ?_⟩, kind⟩
    · intro seen
      have first := observed.same seen
      rw [result] at first
      rw [observe, run_bind_of_error first, exec_bind_of_error result]
    · have commands := observed.commands
      rw [result] at commands
      rw [exec_bind_of_error result]
      exact commands
  · obtain ⟨more, observed', kind'⟩ := hf a w' result
    refine ⟨occasions ++ more, ⟨?_, ?_⟩, List.forall_mem_append.2 ⟨kind, kind'⟩⟩
    · intro seen
      have first := observed.same seen
      rw [result] at first
      rw [observe, run_bind_of_ok first, exec_bind_of_ok result, ← List.append_assoc]
      exact observed'.same _
    · have commands := observed.commands
      rw [result] at commands
      rw [exec_bind_of_ok result, observed'.commands, List.map_append, ← List.append_assoc]
      exact congrArg (· ++ more.map Occasion.command) commands

/-- A request that is passed on and starts no process. -/
theorem ask {x : Observed α} {y : Simulation α} (passed : x = StateT.lift y)
    (quiet : (y s w).2.commands = w.commands) :
    TriesWhen P (Operation.ask x) (Operation.ask y) s w := by
  subst passed
  exact of_quiet (fun _ => rfl) quiet

/-- What goes on after a request that only tells something finds the world as it was, but for what
was told. -/
theorem tells_bind {x : Observed α} {y : Simulation α} (passed : x = StateT.lift y)
    (tells : y.Tells)
    (hf : ∀ w', World.Tells w w' → TriesWhen P (f (y s w).1) (g (y s w).1) s w') :
    TriesWhen P (Operation.ask x >>= f) (Operation.ask y >>= g) s w := by
  refine (ask passed (tells s w).commands_eq).bind ?_
  rintro _ _ ⟨⟩
  exact hf _ (tells s w)

/-- What goes on after looking finds the same world. -/
theorem looks_bind {x : Observed α} {y : Simulation α} (passed : x = StateT.lift y)
    (looks : y.Looks)
    (hf : TriesWhen P (f (y s w).1) (g (y s w).1) s w) :
    TriesWhen P (Operation.ask x >>= f) (Operation.ask y >>= g) s w := by
  refine (ask passed (congrArg World.commands (looks s w))).bind ?_
  rintro _ _ ⟨⟩
  rw [looks s w]
  exact hf

/-- A debug message comes between a world and its commands. -/
theorem debug_bind {message : String} {f : Unit → Operation Observed β}
    {g : Unit → Operation Simulation β}
    (hf : ∀ w', World.Tells w w' → TriesWhen P (f ()) (g ()) s w') :
    TriesWhen P (Operation.ask (Host.debug message) >>= f)
      (Operation.ask (Host.debug message) >>= g) s w :=
  tells_bind rfl (.debug message) hf

/-- Running a command is an occasion. -/
theorem run {c : Command} (wiring : Wiring) (ready : P ⟨c, w⟩) :
    TriesWhen P (Operation.ask (Host.run c wiring)) (Operation.ask (Host.run c wiring)) s w := by
  refine ⟨[⟨c, w⟩], ⟨fun _ => rfl, ?_⟩, ?_⟩
  · show (Simulation.run c wiring s w).2.commands = _
    unfold Simulation.run
    split <;> simp
  · intro o mem
    rw [List.mem_singleton.1 mem]
    exact ready

/-- A command is run after messages only, so it is enough that the predicate holds behind any of
them. -/
theorem runCommand {c : Command} (wiring : Wiring)
    (ready : ∀ w', World.Tells w w' → P ⟨c, w'⟩) :
    TriesWhen P (Operation.runCommand c wiring) (Operation.runCommand c wiring) s w := by
  -- Both kinds of wiring announce the command first, in words of their own.
  cases wiring with
  | kept =>
    refine debug_bind fun w' told => (run .kept (ready w' told)).bind fun result _ _ => ?_
    cases result with
    | ok exit => exact pure exit
    | error e => exact throw _
  | shown =>
    refine debug_bind fun w' told => (run .shown (ready w' told)).bind fun result _ _ => ?_
    cases result with
    | ok exit => exact pure exit
    | error e => exact throw _

/-- An operation that tries one command has one occasion for it. -/
theorem exists_of_single {c : Command} (h : TriesWhen P x y s w)
    (single : (y.exec s w).2.commands = w.commands ++ [c]) :
    ∃ o, Observes x y s w [o] ∧ o.command = c ∧ P o := by
  obtain ⟨occasions, observed, kind⟩ := h
  have commands : occasions.map Occasion.command = [c] :=
    List.append_cancel_left (observed.commands.symm.trans single)
  obtain ⟨o, rfl, is⟩ := List.map_eq_singleton_iff.1 commands
  exact ⟨o, observed, is, kind o (List.mem_singleton_self o)⟩

end TriesWhen

end Operation

namespace Task

open Operation

variable {t : Task} {P : Occasion → Prop} {s : Setting} {w : World}

/-- A step tries its command in the world that it finds, but for what the user has been told. -/
theorem triesWhen_step {c : Command} (acting : t.dryRun = false)
    (ready : ∀ w', World.Tells w w' → P ⟨c, w'⟩) (status : Status) (what : String) :
    TriesWhen P (t.step status what c) (t.step status what c) s w := by
  unfold step
  rw [if_neg (Bool.eq_false_iff.1 acting), if_neg (Bool.eq_false_iff.1 acting)]
  by_cases verbose : t.shell.isVerbose
  · rw [if_pos verbose, if_pos verbose]
    refine .tells_bind (Observed.passed_status _ _ _) (.status _ _ _) fun w₁ told => ?_
    refine (TriesWhen.runCommand .shown fun w₂ told' => ready w₂ (told.trans told')).bind ?_
    intro exit w' _
    cases success : exit.ending.isSuccess with
    | true => exact .pure ()
    | false => exact .throw _
  · rw [if_neg verbose, if_neg verbose]
    refine .looks_bind (y := Host.milliseconds) rfl (fun _ _ => rfl) ?_
    refine .tells_bind (Observed.passed_status _ _ _) (.status _ _ _) fun w₁ told => ?_
    refine (TriesWhen.runCommand .kept fun w₂ told' => ready w₂ (told.trans told')).bind ?_
    intro exit w' _
    cases success : exit.ending.isSuccess with
    | true =>
      refine .looks_bind (y := Host.milliseconds) rfl (fun _ _ => rfl) ?_
      exact .ask (Observed.passed_status _ _ _) (Simulation.Tells.status _ _ _ s _).commands_eq
    | false => exact .throw _

end Task

end BuildVariants
