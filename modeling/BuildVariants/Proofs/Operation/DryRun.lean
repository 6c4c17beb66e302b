import BuildVariants.Proofs.Operation.Commands
import BuildVariants.Proofs.Operation.Outline
import BuildVariants.Proofs.Operation.Rehearsal
import BuildVariants.Proofs.Operation.Removal

/-!
# Dry runs

A dry run rehearses what the same operation does in earnest, part by part.  A step prints its
command or tries it, whatever the file tree is like; preparing a build directory is left out of a
dry run and tries nothing; running a target is displayed with its directory; a cleaning prints the
directories that it would walk through.
-/

namespace BuildVariants

variable {s : Setting} {w v : World}

namespace Operation

/-- What follows a script attempts it. -/
theorem Follows.attempts {α : Type} {x : Operation Simulation α} {script : List Command}
    (h : Follows x s w script) : Attempts x s w script := by
  obtain ⟨tried, grown, played⟩ := h
  refine ⟨tried.map Trial.command, ?_, played.order, fun ok => (played.done_iff.1 ok).1⟩
  rw [World.commands_eq, World.commands_eq, grown, List.map_append]

/-- Running a command tries it, however that goes. -/
theorem attempts_runCommand (c : Command) (wiring : Wiring) :
    Attempts (runCommand c wiring) s w [c] := by
  obtain ⟨result, w', grown, is⟩ := exec_runCommand c wiring s w
  have world : ((runCommand c wiring : Operation Simulation Exit).exec s w).2 = w' := by
    rw [is]
    cases result <;> rfl
  refine ⟨[c], ?_, List.prefix_rfl, fun _ => rfl⟩
  rw [world, World.commands_eq, World.commands_eq, grown, List.map_append]
  rfl

end Operation

namespace Task

open Operation

variable (t : Task)

/-! ## Steps -/

/-- A step prints its command or tries it. -/
theorem rehearses_step (status : Status) (what : String) {c : Command} (hc : c.cwd? = none) :
    Rehearses (t.rehearsing.step status what c) (t.acting.step status what c) s w v := by
  refine ⟨[c], ?_, ?_, fun _ => rfl⟩
  · have lines : [c].flatMap Command.lines = [c.display ++ "\n"] := by
      simp [Command.lines, hc]
    unfold Displays
    rw [lines]
    exact World.Prints.record_output w (c.display ++ "\n")
  · exact (follows_step rfl status what c).attempts

/-- Without a `cmake` the dry run goes on under its bare name, and the run in earnest ends. -/
theorem rehearses_cmake_bind {α : Type} {f g : Path → Operation Simulation α}
    (k : ∀ cmake, Rehearses (f cmake) (g cmake) s w w) :
    Rehearses (t.rehearsing.cmake >>= f) (t.acting.cmake >>= g) s w w := by
  have dry := t.rehearsing.exec_cmake s w
  have real := t.acting.exec_cmake s w
  cases found : ((Host.findCMake : Simulation _) s w).1 with
  | some cmake =>
    rw [found] at dry real
    exact Rehearses.bind_same dry real (k cmake)
  | none =>
    rw [found] at dry real
    exact Rehearses.bind_of_error dry real (k ⟨"cmake"⟩)

/-- Only in earnest are the directories made sure of. -/
theorem rehearses_prepareFor (i : Invocation) :
    Rehearses (t.rehearsing.prepareFor i) (t.acting.prepareFor i) s w v := by
  have commands : ((prepare i : Operation Simulation Unit).exec s v).2.commands = v.commands :=
    congrArg (List.filterMap Event.command?) (events_prepare i s v)
  exact ⟨[], displays_of_eq rfl, attempts_nil commands, fun _ => rfl⟩

theorem rehearses_debug (message : String) :
    Rehearses (ask (Host.debug message)) (ask (Host.debug message)) s w v := by
  refine ⟨[], ⟨rfl, rfl, ?_, ?_⟩, attempts_ask ?_, fun _ => rfl⟩ <;> simp

/-- **A dry run of all parts rehearses them.**  Both executions find `cmake` and look at the build
directory in one world, before anything has been changed; later on their worlds are their own. -/
def rehearsingOutline (s : Setting) :
    Outline Simulation Simulation t t.rehearsing.manner t.acting.manner where
  Holds stage x y := ∀ w v, (stage = .checking → w = v) → Rehearses x y s w v
  pure _ x _ _ _ := .pure x x
  diagnose d _ _ _ := .throw (.diagnosed d)
  cmake_bind k w v same := by
    cases same rfl
    exact t.rehearses_cmake_bind fun cmake => k cmake w w fun _ => rfl
  prepare_bind i _ _ k w v _ := (t.rehearses_prepareFor i).bind fun _ _ w v => k w v nofun
  configuring_bind _ made k w v _ :=
    (t.rehearses_step _ _ (Invocation.cwd?_of_configure made)).bind fun _ _ w v => k w v nofun
  isConfigured_bind {_ u _ _} _ found missing w v same := by
    cases same rfl
    refine Rehearses.ask_bind (fun _ _ => rfl) ?_
    cases ((Host.isConfigured (t.buildDir u) : Simulation _) s w).1 with
    | true => exact found w w nofun
    | false => exact missing w w fun _ => rfl
  debug_bind k w v _ := (rehearses_debug _).bind fun _ _ w v => k w v nofun
  building_bind _ k w v _ := (t.rehearses_step _ _ rfl).bind fun _ _ w v => k w v nofun

/-! ## Running -/

theorem displays_displayCommand (c : Command) : Displays (displayCommand c) s w [c] := by
  unfold Displays displayCommand
  cases cwd : c.cwd? with
  | none =>
    have lines : [c].flatMap Command.lines = [c.display ++ "\n"] := by
      simp [Command.lines, cwd]
    rw [lines]
    exact World.Prints.record_output w _
  | some directory =>
    have lines : [c].flatMap Command.lines
        = ["cd " ++ directory.text ++ "\n"] ++ [c.display ++ "\n"] := by
      simp [Command.lines, cwd]
    rw [lines]
    exact (World.Prints.record_output w _).trans (World.Prints.record_output _ _)

/-- Displaying cannot fail, so a rehearsal gets to its end. -/
theorem exec_displayCommand_fst (c : Command) : ((displayCommand c).exec s w).1 = .ok () := by
  unfold displayCommand
  cases c.cwd? <;> rfl

/-- Whether the executable is there is asked in earnest only. -/
theorem rehearses_start (r : RunRequest) (c : Command) :
    Rehearses (t.rehearsing.start r c) (t.acting.start r c) s w v := by
  have shown : (displayCommand c).exec s w = (.ok (), ((displayCommand c).exec s w).2) := by
    rw [← exec_displayCommand_fst c (s := s) (w := w)]
  refine ⟨[c] ++ [], (displays_displayCommand c).bind_of_ok shown (displays_of_eq rfl), ?_, ?_⟩
  · show Attempts (ask (Host.isFile c.program) >>= fun found => if found then _ else _) s v [c]
    have asked : (ask (Host.isFile c.program) : Operation Simulation Bool).exec s v
        = (.ok ((Host.isFile c.program : Simulation _) s v).1, v) := exec_ask _ s v
    cases found : ((Host.isFile c.program : Simulation _) s v).1 with
    | false =>
      rw [found] at asked
      exact attempts_of_error (exec_bind_of_ok asked _) rfl [c]
    | true =>
      rw [found] at asked
      refine (attempts_nil (by rw [asked])).bind_of_ok asked ?_
      refine (attempts_status t.shell .running c.display).bind fun _ w' => ?_
      exact (attempts_runCommand c .shown).bind_nil fun exit w'' => attempts_nil rfl
  · intro _
    show ((displayCommand c >>= fun _ => pure 0).exec s w).1.isOk
    rw [exec_bind_of_ok shown]
    rfl

/-- A rehearsal of a run shows the command of its target. -/
theorem rehearses_run (r : RunRequest) :
    Rehearses (t.rehearsing.run r) (t.acting.run r) s w v :=
  (t.rehearsingOutline s).run .built r (fun d _ _ _ => .throw (.diagnosed d))
    (fun c _ _ _ _ => t.rehearses_start r c) w v nofun

/-! ## Cleaning -/

/-- The line a dry run prints for a directory. -/
def removalLine (d : Path) : String :=
  "rm -rf " ++ d.text ++ "\n"

/-- The list of a rehearsal has one line for each directory, and nothing is looked up for it. -/
theorem exec_displayRemovals (ds : List Path) (w : World) :
    ∃ w', (displayRemovals ds : Operation Simulation Unit).exec s w = (.ok (), w') ∧
      World.Prints w w' (ds.map removalLine) := by
  induction ds generalizing w with
  | nil => exact ⟨w, rfl, .refl w⟩
  | cons d ds ih =>
    obtain ⟨w', rest, prints⟩ := ih (w.record (.emitted (.output (removalLine d))))
    exact ⟨w', rest, (World.Prints.record_output w (removalLine d)).trans prints⟩

/-- A rehearsal of a cleaning lists all of its directories, whether they are there or not. -/
theorem exec_clean_rehearsing {r : CleanRequest} {vs : List Variant}
    (chosen : t.chosenVariants r = .ok vs) (s : Setting) (w : World) :
    ∃ w', (t.rehearsing.clean r).exec s w = (.ok [], w') ∧
      World.Prints w w' ((t.directories vs).map removalLine) := by
  obtain ⟨w', shown, prints⟩ := exec_displayRemovals (s := s) (t.directories vs) w
  refine ⟨w', ?_, prints⟩
  unfold clean
  rw [show t.rehearsing.chosenVariants r = .ok vs from chosen]
  exact exec_bind_of_ok shown _

/-- An unknown variant is the only thing a cleaning diagnoses, and nothing has happened then. -/
theorem exec_clean_of_error {r : CleanRequest} {d : Diagnostic}
    (chosen : t.chosenVariants r = .error d) (s : Setting) (w : World) :
    (t.clean r).exec s w = (.error (.diagnosed d), w) := by
  unfold clean
  rw [chosen]
  rfl

/-! ## Every call -/

/-- The commands that a call tries in earnest are the first of those that its dry run prints, and
all of them if the call succeeds. -/
def ForetellsCommands (call : Call) (s : Setting) (w : World) : Prop :=
  let dry := (t.rehearsing.perform call).exec s w
  let real := (t.acting.perform call).exec s w
  ∃ script done, World.Prints w dry.2 (script.flatMap Command.lines) ∧
    real.2.commands = w.commands ++ done ∧ done <+: script ∧ (real.1.isOk → done = script)

/-- The directories that a cleaning walks through in earnest are those that its dry run prints;
both fail in the same way if the variant is not known. -/
def ForetellsRemovals (r : CleanRequest) (s : Setting) (w : World) : Prop :=
  let dry := (t.rehearsing.perform (.clean r)).exec s w
  let real := (t.acting.perform (.clean r)).exec s w
  match t.chosenVariants r with
  | .error d => dry = (.error (.diagnosed d), w) ∧ real = (.error (.diagnosed d), w)
  | .ok vs =>
    dry.1 = .ok (.removed []) ∧
    World.Prints w dry.2 ((t.directories vs).map removalLine) ∧
    DistinctPart (vs.map t.buildDir) (t.directories vs) ∧
    ∃ visits, (t.acting.perform (.clean r)).watch [] s w = ((real.1, visits), real.2) ∧
      Walks (t.directories vs) visits real.1.isOk

/-- What becomes of the result makes no difference to the commands. -/
theorem foretellsCommands_of_rehearses {α : Type} {call : Call} {f : α → Outcome}
    {x y : Operation Simulation α} {s : Setting} {w : World}
    (dry : t.rehearsing.perform call = f <$> x) (real : t.acting.perform call = f <$> y)
    (h : Rehearses x y s w w) : t.ForetellsCommands call s w := by
  obtain ⟨script, shown, ⟨done, commands, pre, all⟩, -⟩ := h.map f
  unfold ForetellsCommands
  rw [dry, real]
  exact ⟨script, done, shown, commands, pre, all⟩

/-- A cleaning removes what its rehearsal lists, and in the same order; what is not there is passed
over. -/
theorem foretellsRemovals (r : CleanRequest) (s : Setting) (w : World) :
    t.ForetellsRemovals r s w := by
  unfold ForetellsRemovals perform
  rw [exec_map, exec_map]
  cases chosen : t.chosenVariants r with
  | error d =>
    rw [t.rehearsing.exec_clean_of_error chosen s w, t.acting.exec_clean_of_error chosen s w]
    exact ⟨rfl, rfl⟩
  | ok vs =>
    obtain ⟨w', dry, prints⟩ := t.exec_clean_rehearsing chosen s w
    obtain ⟨visits, same, walk⟩ := t.clean_walks (s := s) (w := w) chosen
    rw [dry]
    refine ⟨rfl, prints, distinctPart_distinctPaths _, visits, ?_, walk.mono ?_⟩
    · show Operation.watch (Outcome.removed <$> t.acting.clean r) [] s w = _
      rw [same.map Outcome.removed [], exec_map]
      rfl
    · cases ((t.acting.clean r : Operation Simulation _).exec s w).1 <;> exact id

/-- **A dry run is faithful.**  It changes nothing and starts nothing, and it foretells what the
call does in earnest from the same world, whatever the processes of that call do: which commands
it tries, or which directories it walks through. -/
theorem dryRun_faithful (t : Task) (s : Setting) (w : World) (call : Call) :
    match call with
    | .clean r => t.ForetellsRemovals r s w
    | _ => t.ForetellsCommands call s w := by
  cases call with
  | configure variant? =>
    refine t.foretellsCommands_of_rehearses rfl rfl ?_
    exact (t.rehearsingOutline s).configure variant? w w fun _ => rfl
  | build r =>
    refine t.foretellsCommands_of_rehearses rfl rfl ?_
    exact (t.rehearsingOutline s).build r w w fun _ => rfl
  | run r => exact t.foretellsCommands_of_rehearses rfl rfl (t.rehearses_run r)
  | buildRun r =>
    refine t.foretellsCommands_of_rehearses rfl rfl ?_
    exact (t.rehearsingOutline s).buildRun r (fun _ _ _ => t.rehearses_run r) w w fun _ => rfl
  | clean r => exact t.foretellsRemovals r s w

end Task

end BuildVariants
