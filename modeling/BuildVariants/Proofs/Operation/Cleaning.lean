import BuildVariants.Proofs.FileTree.Removing
import BuildVariants.Proofs.Operation.CleanedPlaces
import BuildVariants.Proofs.Path.Spelling

/-!
# What a cleaning leaves

A cleaning takes its directories one after the other (`Cleaning`): one that is not there is passed
over, one that is there is removed, and if that cannot be done the cleaning ends.  Each turn changes
the file tree that the next one sees, so what holds after a whole cleaning is carried from turn to
turn: what has been removed or was not there stays gone, and nothing has changed but the directories
whose turn has come.
-/

namespace BuildVariants

open FileTree (Removal Pruned Beneath)

namespace World

/-- The program runs in a directory of a file tree as it should be. -/
structure Sound (w : World) (here : Location) : Prop where
  /-- Every entry stands in a directory. -/
  closed : w.tree.Closed
  /-- What stands above the program is a directory. -/
  standing : w.tree.get? w.cwd.location = some .directory
  /-- The program is where it was started. -/
  stood : w.cwd.StoodAt here

variable {w w' : World} {here : Location} {p d : Path} {result : Except OsError Unit}
  {tree : FileTree}

theorem Tells.sees_iff (h : World.Tells w w') : w'.Sees p ↔ w.Sees p := by
  unfold Sees
  rw [h.tree, h.cwd]

theorem Tells.sound (h : World.Tells w w') (sound : w.Sound here) : w'.Sound here := by
  constructor
  · rw [h.tree]
    exact sound.closed
  · rw [h.tree, h.cwd]
    exact sound.standing
  · rw [h.cwd]
    exact sound.stood

/-- A removal leaves a sound world: entries stand in directories, and the program is where it was or
in what has been removed. -/
theorem Sound.removal (sound : w.Sound here) (h : Removal w.tree w.cwd d result tree) :
    (w.withTree tree).Sound here :=
  ⟨h.closed sound.closed, Place.get?_settle w.cwd tree, sound.stood.settle tree⟩

/-- What the program does not see stays so when a directory is removed. -/
theorem not_sees_withTree (sound : w.Sound here) (h : Removal w.tree w.cwd d result tree)
    (unseen : ¬ w.Sees p) : ¬ (w.withTree tree).Sees p := by
  intro seen
  exact unseen
    (FileTree.isSome_kind?_of_pruned (h.pruned sound.stood) sound.closed sound.standing seen)

end World

/-! ## One turn after the other -/

/-- A cleaning of some directories, with its result and the world it leaves. -/
inductive Cleaning : World → List Path → Except Failure (List Path) → World → Prop
  | done (w : World) : Cleaning w [] (.ok []) w
  /-- The directory is not there. -/
  | absent {w w₁ w' : World} {d : Path} {ds : List Path} {r : Except Failure (List Path)}
    (unseen : ¬ w.Sees d) (told : World.Tells w w₁) (rest : Cleaning w₁ ds r w') :
    Cleaning w (d :: ds) r w'
  /-- The directory is removed. -/
  | removed {w w₁ w' : World} {d : Path} {ds : List Path} {r : Except Failure (List Path)}
    {tree : FileTree} (seen : w.Sees d) (removal : Removal w.tree w.cwd d (.ok ()) tree)
    (told : World.Tells (w.withTree tree) w₁) (rest : Cleaning w₁ ds r w') :
    Cleaning w (d :: ds) (r.map (d :: ·)) w'
  /-- The directory cannot be removed. -/
  | stuck {w : World} {d : Path} {ds : List Path} {cause : OsError} {tree : FileTree}
    (seen : w.Sees d) (removal : Removal w.tree w.cwd d (.error cause) tree) :
    Cleaning w (d :: ds) (.error (.removeDirectory d cause)) (w.withTree tree)

namespace Cleaning

variable {w w' : World} {here : Location} {ds removed : List Path} {p d : Path}
  {r : Except Failure (List Path)} {e : Failure}

/-- The world stays sound through a whole cleaning. -/
theorem sound (h : Cleaning w ds r w') (sound : w.Sound here) : w'.Sound here := by
  induction h with
  | done w => exact sound
  | absent unseen told rest ih => exact ih (told.sound sound)
  | removed seen removal told rest ih => exact ih (told.sound (sound.removal removal))
  | stuck seen removal => exact sound.removal removal

/-- What is not there when a cleaning begins is not there when it ends. -/
theorem not_sees (h : Cleaning w ds r w') (sound : w.Sound here) (unseen : ¬ w.Sees p) :
    ¬ w'.Sees p := by
  induction h with
  | done w => exact unseen
  | absent unseen' told rest ih =>
    refine ih (told.sound sound) ?_
    rw [told.sees_iff]
    exact unseen
  | removed seen removal told rest ih =>
    refine ih (told.sound (sound.removal removal)) ?_
    rw [told.sees_iff]
    exact World.not_sees_withTree sound removal unseen
  | stuck seen removal => exact World.not_sees_withTree sound removal unseen

/-- What is removed in its turn is not there when the cleaning ends. -/
theorem not_sees_of_removal {w₁ : World} {tree : FileTree} (h : Cleaning w₁ ds r w')
    (sound : w.Sound here) (removal : Removal w.tree w.cwd d (.ok ()) tree)
    (told : World.Tells (w.withTree tree) w₁) : ¬ w'.Sees d := by
  refine h.not_sees (told.sound (sound.removal removal)) ?_
  rw [told.sees_iff]
  unfold World.Sees
  rw [World.tree_withTree, World.cwd_withTree, removal.kind?_eq_none sound.stood]
  exact Bool.false_ne_true

/-- Nothing changes but the directories that are cleaned. -/
theorem pruned (h : Cleaning w ds r w') (sound : w.Sound here) :
    Pruned w.tree w'.tree (ds.map (·.locationFrom here)) := by
  induction h with
  | done w => exact .refl _ _
  | absent unseen told rest ih =>
    have later := ih (told.sound sound)
    rw [told.tree] at later
    exact later.mono fun _ mem => List.mem_cons_of_mem _ mem
  | removed seen removal told rest ih =>
    have later := ih (told.sound (sound.removal removal))
    rw [told.tree] at later
    exact (removal.pruned sound.stood).append later
  | stuck seen removal =>
    refine (removal.pruned sound.stood).mono fun top mem => ?_
    rw [List.mem_singleton.1 mem]
    exact List.mem_cons_self

/-- After a cleaning none of its directories is there. -/
theorem gone (h : Cleaning w ds r w') (sound : w.Sound here) (ok : r.isOk) :
    ∀ d ∈ ds, ¬ w'.Sees d := by
  induction h with
  | done w => exact fun _ mem => absurd mem List.not_mem_nil
  | absent unseen told rest ih =>
    rw [List.forall_mem_cons]
    have sound' := told.sound sound
    refine ⟨rest.not_sees sound' ?_, ih sound' ok⟩
    rw [told.sees_iff]
    exact unseen
  | @removed w w₁ w' d ds r tree seen removal told rest ih =>
    rw [List.forall_mem_cons]
    have sound' := told.sound (sound.removal removal)
    have ok' : r.isOk := by
      cases r with
      | error e => cases ok
      | ok _ => rfl
    exact ⟨rest.not_sees_of_removal sound removal told, ih sound' ok'⟩
  | stuck seen removal => cases ok

/-- The directories that were removed are in order. -/
theorem sublist (h : Cleaning w ds r w') (ok : r = .ok removed) : removed.Sublist ds := by
  induction h generalizing removed with
  | done w =>
    cases ok
    exact .slnil
  | absent unseen told rest ih => exact (ih ok).cons _
  | @removed w w₁ w' d ds r tree seen removal told rest ih =>
    cases r with
    | error e => cases ok
    | ok later =>
      cases ok
      exact (ih rfl).cons_cons d
  | stuck seen removal => cases ok

/-- A directory is removed if it is there when its turn comes. -/
theorem mem_iff_sees (h : Cleaning w (d :: ds) (.ok removed) w') (fresh : d ∉ ds) :
    d ∈ removed ↔ w.Sees d := by
  generalize result : Except.ok removed = r at h
  cases h with
  | absent unseen told rest =>
    exact iff_of_false (fun mem => fresh ((rest.sublist result.symm).subset mem)) unseen
  | @removed _ w₁ _ _ _ later tree seen removal told rest =>
    cases later with
    | error e => cases result
    | ok later =>
      cases result
      exact iff_of_true List.mem_cons_self seen
  | stuck seen removal => cases result

/-- A directory that stands nowhere is not removed. -/
theorem not_mem_of_get?_eq_none (h : Cleaning w ds r w') (sound : w.Sound here)
    (ok : r = .ok removed) (gone : w.tree.get? (d.locationFrom here) = none) : d ∉ removed := by
  induction h generalizing removed with
  | done w =>
    cases ok
    exact List.not_mem_nil
  | absent unseen told rest ih =>
    refine ih (told.sound sound) ok ?_
    rw [told.tree]
    exact gone
  | @removed w w₁ w' d' ds r tree seen removal told rest ih =>
    cases r with
    | error e => cases ok
    | ok later =>
      cases ok
      -- A removal puts nothing in place of what is not there.
      have gone' : w₁.tree.get? (d.locationFrom here) = none := by
        rw [told.tree]
        rcases removal.pruned sound.stood (d.locationFrom here) with same | ⟨lost, -⟩
        · exact same.trans gone
        · exact lost
      rw [List.mem_cons, not_or]
      refine ⟨?_, ih (told.sound (sound.removal removal)) rfl gone'⟩
      rintro rfl
      obtain ⟨entry, there⟩ := removal.exists_get? sound.stood
      rw [gone] at there
      cases there
  | stuck seen removal => cases ok

/-- A directory in one that was removed before is not removed once more. -/
theorem pairwise_not_beneath (h : Cleaning w ds r w') (sound : w.Sound here)
    (ok : r = .ok removed) :
    removed.Pairwise fun e d => ¬ Beneath (e.locationFrom here) (d.locationFrom here) := by
  induction h generalizing removed with
  | done w =>
    cases ok
    exact .nil
  | absent unseen told rest ih => exact ih (told.sound sound) ok
  | @removed w w₁ w' e ds r tree seen removal told rest ih =>
    have sound' := told.sound (sound.removal removal)
    cases r with
    | error e => cases ok
    | ok later =>
      cases ok
      refine List.pairwise_cons.2 ⟨?_, ih sound' rfl⟩
      -- What lies beneath has gone with it, and only what is there is removed.
      intro d mem beneath
      refine rest.not_mem_of_get?_eq_none sound' rfl ?_ mem
      rw [told.tree]
      exact removal.get?_beneath sound.stood beneath
  | stuck seen removal => cases ok

end Cleaning

namespace Task

open Operation

variable (t : Task) {s : Setting} {w : World} {here : Location}

/-! ## The turns of a cleaning -/

/-- Removing one directory, as the program sees it. -/
theorem exec_removeIfPresent (d : Path) (s : Setting) (w : World) :
    (removeIfPresent d : Operation Simulation Bool).exec s w
      = if (w.tree.kind? w.cwd d).isSome then
          match w.tree.removeTree w.cwd d with
          | (.ok (), tree) => (.ok true, w.withTree tree)
          | (.error e, tree) => (.error (.removeDirectory d e), w.withTree tree)
        else (.ok false, w) := by
  have asked : (ask (Host.pathExists d) : Operation Simulation Bool).exec s w
      = (.ok (w.tree.kind? w.cwd d).isSome, w) := rfl
  have removal : (ask (Host.removeTree d) : Operation Simulation _).exec s w
      = (.ok (w.tree.removeTree w.cwd d).1, w.withTree (w.tree.removeTree w.cwd d).2) := rfl
  unfold removeIfPresent
  rw [exec_bind_of_ok asked]
  split
  · rcases result : w.tree.removeTree w.cwd d with ⟨_ | _, tree⟩
    all_goals
      rw [result] at removal
      exact exec_bind_of_ok removal _
  · rfl

/-- What the program has removed is put in front of what it removes later. -/
theorem exec_removeAll_of_removed {d : Path} {w' : World}
    (turn : (removeIfPresent d : Operation Simulation Bool).exec s w = (.ok true, w')) :
    ∃ w₁, World.Tells w' w₁ ∧ ∀ ds, (t.removeAll (d :: ds)).exec s w
      = (((t.removeAll ds).exec s w₁).1.map (d :: ·), ((t.removeAll ds).exec s w₁).2) := by
  refine ⟨_, Simulation.Tells.status t.shell .removed d.text s w', ?_⟩
  intro ds
  rw [removeAll, exec_bind_of_ok turn]
  show ((ask (Host.status t.shell .removed d.text)
    >>= fun _ => t.removeAll ds >>= fun later => pure (d :: later))
      : Operation Simulation _).exec s w' = _
  rw [exec_ask_bind, ← map_eq_pure_bind, exec_map]

/-- A directory that is not there is passed over with a message, and the cleaning goes on behind
it. -/
theorem exec_removeAll_of_absent {d : Path} {w' : World}
    (turn : (removeIfPresent d : Operation Simulation Bool).exec s w = (.ok false, w')) :
    ∃ w₁, World.Tells w' w₁ ∧
      ∀ ds, (t.removeAll (d :: ds)).exec s w = (t.removeAll ds).exec s w₁ := by
  refine ⟨_, Simulation.Tells.status t.shell .skipped (d.text ++ " (not present)") s w', ?_⟩
  intro ds
  rw [removeAll, exec_bind_of_ok turn]
  exact exec_ask_bind _ _ s w'

theorem exec_removeAll_of_stuck {d : Path} {w' : World} {e : Failure} (ds : List Path)
    (turn : (removeIfPresent d : Operation Simulation Bool).exec s w = (.error e, w')) :
    (t.removeAll (d :: ds)).exec s w = (.error e, w') := by
  rw [removeAll]
  exact exec_bind_of_error turn _

/-- **Removing directories is a cleaning of them.**  The induction is on the directories. -/
theorem cleaning_removeAll (ds : List Path) (sound : w.Sound here) :
    Cleaning w ds ((t.removeAll ds).exec s w).1 ((t.removeAll ds).exec s w).2 := by
  induction ds generalizing w with
  | nil => exact .done w
  | cons d ds ih =>
    have turn := exec_removeIfPresent d s w
    split at turn
    · next seen =>
      have removal := FileTree.removeTree_cases (p := d) sound.standing
      rcases result : w.tree.removeTree w.cwd d with ⟨e | _, tree⟩
      · rw [result] at turn removal
        rw [t.exec_removeAll_of_stuck ds turn]
        exact .stuck seen removal
      · rw [result] at turn removal
        obtain ⟨w₁, told, is⟩ := t.exec_removeAll_of_removed turn
        rw [is]
        exact .removed seen removal told (ih (told.sound (sound.removal removal)))
    · next unseen =>
      obtain ⟨w₁, told, is⟩ := t.exec_removeAll_of_absent turn
      rw [is]
      exact .absent unseen told (ih (told.sound sound))

/-- Removing directories fails only where one is there and cannot be removed.  The induction is on
the directories. -/
theorem exists_stuck_of_exec_removeAll {ds : List Path} {w' : World} {e : Failure}
    (failed : (t.removeAll ds).exec s w = (.error e, w')) :
    ∃ first d rest cause removed w₁ tree, ds = first ++ d :: rest ∧
      (t.removeAll first).exec s w = (.ok removed, w₁) ∧ w₁.Sees d ∧
      w₁.tree.removeTree w₁.cwd d = (.error cause, tree) ∧
      e = .removeDirectory d cause ∧ w' = w₁.withTree tree := by
  induction ds generalizing w with
  | nil => cases failed
  | cons d ds ih =>
    have turn := exec_removeIfPresent d s w
    split at turn
    · next seen =>
      rcases result : w.tree.removeTree w.cwd d with ⟨cause | _, tree⟩
      · rw [result] at turn
        rw [t.exec_removeAll_of_stuck ds turn] at failed
        cases failed
        -- The first directory is the one.
        exact ⟨[], d, ds, cause, [], w, tree, rfl, rfl, seen, result, rfl, rfl⟩
      · rw [result] at turn
        obtain ⟨w₁, -, is⟩ := t.exec_removeAll_of_removed turn
        rw [is] at failed
        rcases later : (t.removeAll ds).exec s w₁ with ⟨e' | _, w₂⟩
        · rw [later] at failed
          cases failed
          obtain ⟨first, stop, rest, cause, removed, w₃, tree', rfl, done, stuck⟩ := ih later
          refine ⟨d :: first, stop, rest, cause, d :: removed, w₃, tree', rfl, ?_, stuck⟩
          rw [is, done]
          rfl
        · rw [later] at failed
          cases failed
    · obtain ⟨w₁, -, is⟩ := t.exec_removeAll_of_absent turn
      rw [is] at failed
      obtain ⟨first, stop, rest, cause, removed, w₃, tree', rfl, done, stuck⟩ := ih failed
      refine ⟨d :: first, stop, rest, cause, removed, w₃, tree', rfl, ?_, stuck⟩
      rw [is]
      exact done

/-- The directories of two lists are removed one list after the other. -/
theorem exec_removeAll_append (before after : List Path) (s : Setting) (w : World) :
    (t.removeAll (before ++ after)).exec s w = match (t.removeAll before).exec s w with
      | (.ok removed, w') =>
        (((t.removeAll after).exec s w').1.map (removed ++ ·), ((t.removeAll after).exec s w').2)
      | (.error e, w') => (.error e, w') := by
  induction before generalizing w with
  | nil =>
    have none : (t.removeAll [] : Operation Simulation _).exec s w = (.ok [], w) := rfl
    rw [none, List.nil_append]
    show _ = (((t.removeAll after).exec s w).1.map ([] ++ ·), ((t.removeAll after).exec s w).2)
    cases result : (t.removeAll after).exec s w with
    | mk r w' => cases r <;> rfl
  | cons d before ih =>
    rcases turn : (removeIfPresent d : Operation Simulation Bool).exec s w with ⟨e | _ | _, w'⟩
    · rw [List.cons_append, t.exec_removeAll_of_stuck _ turn, t.exec_removeAll_of_stuck _ turn]
    · obtain ⟨w₁, -, is⟩ := t.exec_removeAll_of_absent turn
      rw [List.cons_append, is, is]
      exact ih w₁
    · obtain ⟨w₁, -, is⟩ := t.exec_removeAll_of_removed turn
      rw [List.cons_append, is, is, ih w₁]
      rcases (t.removeAll before).exec s w₁ with ⟨_ | removed, w₂⟩
      · rfl
      · show (((((t.removeAll after).exec s w₂).1.map (removed ++ ·)).map (d :: ·)),
            ((t.removeAll after).exec s w₂).2)
          = (((t.removeAll after).exec s w₂).1.map (d :: removed ++ ·),
            ((t.removeAll after).exec s w₂).2)
        cases ((t.removeAll after).exec s w₂).1 <;> rfl

/-! ## Whole cleanings -/

/-- The list of a cleaning has the directory of every variant once, in the order in which the
variants first yield them: the directories of the first variants come first. -/
def ListsInOrder (t : Task) (vs : List Variant) : Prop :=
  ∀ front, front <+: vs → t.directories front <+: t.directories vs ∧
    DistinctPart (front.map t.buildDir) (t.directories front)

/-- What a cleaning that succeeds has done, given the directories it says it has removed. -/
structure CleanedUp (t : Task) (vs : List Variant) (here : Location) (s : Setting) (w w' : World)
    (removed : List Path) : Prop where
  /-- No directory on the list is there any more. -/
  gone : ∀ d ∈ t.directories vs, ¬ w'.Sees d
  /-- Nor is the directory of a variant that is listed in other words, unless those are too long for
  the system. -/
  respelled : ∀ v ∈ vs, w'.tree.kind? w'.cwd (t.buildDir v) = some .directory →
    ∃ d ∈ t.directories vs, d.Same (t.buildDir v) ∧ FileTree.maxPathBytes ≤ d.text.utf8ByteSize
  /-- The directories are given in the order of the list. -/
  order : removed.Sublist (t.directories vs)
  /-- None is given twice. -/
  distinct : removed.Pairwise fun p q => ¬ p.Same q
  /-- Those are given that were there when their turn came. -/
  present : ∀ first d rest, t.directories vs = first ++ d :: rest →
    (d ∈ removed ↔ ((t.acting.removeAll first).exec s w).2.Sees d)
  /-- None lies in one that was removed before. -/
  outermost : removed.Pairwise fun e d => ¬ Beneath (e.locationFrom here) (d.locationFrom here)

/-- What a cleaning has done that stops at a directory, behind the first ones of its list. -/
structure StoppedAt (t : Task) (first : List Path) (d : Path) (here : Location) (s : Setting)
    (w w' : World) (e : Failure) : Prop where
  /-- The first ones have been dealt with, the directory was there then, and the system did not
  remove it. -/
  stuck : ∃ removed w₁ cause, (t.acting.removeAll first).exec s w = (.ok removed, w₁) ∧
    w₁.Sees d ∧ (w₁.tree.removeTree w₁.cwd d).1 = .error cause ∧ e = .removeDirectory d cause
  /-- None of the first ones is there any more. -/
  gone : ∀ b ∈ first, ¬ w'.Sees b
  /-- Nothing else has changed but the directory itself. -/
  pruned : Pruned w.tree w'.tree ((first ++ [d]).map (·.locationFrom here))

/-- The directories of the variants stand in the order of the variants, each at its first
mention. -/
theorem listsInOrder (t : Task) (vs : List Variant) : t.ListsInOrder vs := by
  intro front pre
  exact ⟨prefix_distinctPaths (pre.map t.buildDir), distinctPart_distinctPaths _⟩

/-- What counts as the same path is only once on the list. -/
theorem nodup_directories (t : Task) (vs : List Variant) : (t.directories vs).Nodup := by
  refine (distinctPart_distinctPaths (vs.map t.buildDir)).distinct.imp ?_
  rintro p _ different rfl
  exact different (.refl p)

/-- What a cleaning that ends well has done. -/
theorem cleanedUp_of_ok {vs : List Variant} {w' : World} {removed : List Path}
    (sound : w.Sound here)
    (ok : (t.acting.removeAll (t.directories vs)).exec s w = (.ok removed, w')) :
    t.CleanedUp vs here s w w' removed := by
  have cleaning := t.acting.cleaning_removeAll (s := s) (t.directories vs) sound
  rw [ok] at cleaning
  have part := distinctPart_distinctPaths (vs.map t.buildDir)
  have gone := cleaning.gone sound rfl
  refine ⟨gone, ?_, cleaning.sublist rfl, part.distinct.sublist (cleaning.sublist rfl), ?_,
    cleaning.pairwise_not_beneath sound rfl⟩
  · -- A directory that still stands would be found by the spelling on the list as well.
    intro v hv there
    obtain ⟨d, hd, same⟩ := part.covers (t.buildDir v) (List.mem_map_of_mem hv)
    refine ⟨d, hd, same, ?_⟩
    by_contra short
    refine gone d hd ?_
    unfold FileTree.kind? at there
    split at there
    · next place entry found =>
      cases entry with
      | file _ _ => cases there
      | directory =>
        unfold World.Sees FileTree.kind?
        rw [FileTree.resolve_of_same same.symm found (Nat.not_le.1 short)]
        rfl
    · cases there
  · -- The cleaning of the list is one of the directories in front of `d`, and then one of the rest.
    intro first d rest split
    have nodup := t.nodup_directories vs
    have parts := t.acting.exec_removeAll_append first (d :: rest) s w
    rw [← split, ok] at parts
    rw [split, List.nodup_append] at nodup
    have fresh : d ∉ first := fun mem => nodup.2.2 d mem d List.mem_cons_self rfl
    have fresh' : d ∉ rest := (List.nodup_cons.1 nodup.2.1).1
    have before := t.acting.cleaning_removeAll (s := s) first sound
    rcases result : (t.acting.removeAll first).exec s w with ⟨e | earlier, w₁⟩
    · rw [result] at parts
      cases parts
    · rw [result] at parts before
      have later := t.acting.cleaning_removeAll (s := s) (d :: rest) (before.sound sound)
      rcases result' : (t.acting.removeAll (d :: rest)).exec s w₁ with ⟨e | others, w₂⟩
      · simp only [result'] at parts
        cases parts
      · simp only [result'] at parts later
        cases parts
        rw [← later.mem_iff_sees fresh', List.mem_append]
        exact or_iff_right fun mem => fresh ((before.sublist rfl).subset mem)

/-- A cleaning that fails has got through the directories in front of one that could not be
removed. -/
theorem stoppedAt_of_error {vs : List Variant} {w' : World} {e : Failure} (sound : w.Sound here)
    (failed : (t.acting.removeAll (t.directories vs)).exec s w = (.error e, w')) :
    ∃ first d rest, t.directories vs = first ++ d :: rest ∧
      t.StoppedAt first d here s w w' e := by
  obtain ⟨first, d, rest, cause, removed, w₁, tree, split, done, seen, refused, rfl, rfl⟩ :=
    t.acting.exists_stuck_of_exec_removeAll failed
  have before := t.acting.cleaning_removeAll (s := s) first sound
  rw [done] at before
  have sound₁ := before.sound sound
  have removal := FileTree.removeTree_cases (p := d) sound₁.standing
  rw [refused] at removal
  refine ⟨first, d, rest, split, ⟨removed, w₁, cause, done, seen, ?_, rfl⟩, ?_, ?_⟩
  · rw [refused]
  · intro b mem
    exact World.not_sees_withTree sound₁ removal (before.gone sound rfl b mem)
  · rw [List.map_append]
    exact (before.pruned sound).append (removal.pruned sound₁.stood)

/-- **What a cleaning leaves of any file tree.**  If a variant is not known, nothing happens.
Otherwise nothing changes but the build directories of the chosen variants; after a success none of
those on the list is there any more, and the result has the ones that were there when their turn
came; and it fails only where one of them cannot be removed. -/
theorem clean_leaves (t : Task) (r : CleanRequest) (s : Setting) (w : World) (here : Location)
    (sound : w.Sound here) :
    match t.chosenVariants r with
    | .error d => (t.acting.clean r).exec s w = (.error (.diagnosed d), w)
    | .ok vs => t.ListsInOrder vs ∧
      Pruned w.tree ((t.acting.clean r).exec s w).2.tree
        (vs.map fun v => (t.buildDir v).locationFrom here) ∧
      match (t.acting.clean r).exec s w with
      | (.ok removed, w') => t.CleanedUp vs here s w w' removed
      | (.error e, w') => ∃ first d rest, t.directories vs = first ++ d :: rest ∧
        t.StoppedAt first d here s w w' e := by
  cases chosen : t.chosenVariants r with
  | error d => exact t.acting.exec_clean_of_error chosen s w
  | ok vs =>
    have cleaning := t.acting.cleaning_removeAll (s := s) (t.directories vs) sound
    simp only [t.clean_of_chosen chosen]
    refine ⟨t.listsInOrder vs, ?_, ?_⟩
    · refine (cleaning.pruned sound).mono ?_
      intro top mem
      obtain ⟨d, hd, rfl⟩ := List.mem_map.1 mem
      obtain ⟨v, hv, rfl⟩ :=
        List.mem_map.1 ((distinctPart_distinctPaths (vs.map t.buildDir)).sublist.subset hd)
      exact List.mem_map_of_mem hv
    · rcases result : (t.acting.removeAll (t.directories vs)).exec s w with ⟨e | removed, w'⟩
      · exact t.stoppedAt_of_error sound result
      · exact t.cleanedUp_of_ok sound result

end Task

/-! ## A directory in a directory -/

namespace NestedDirectories

/-- A plan with a configuration below another one, which is also spelled in another way. -/
def plan : Plan where
  options := ⟨none, none, none⟩
  variants :=
    [⟨none, "clang", "x", none⟩, ⟨none, "clang", "x/y", none⟩, ⟨none, "clang", "x/", none⟩]
  targets := .empty

/-- A task for the plan, in the project `/p`. -/
def task : Task :=
  ⟨.withPlan ⟨"/p"⟩ ⟨planFileName⟩, plan.registry none, ⟨.normal, false⟩, false⟩

/-- Both build directories are there. -/
def world : World :=
  .ofTree ⟨[(["p"], .directory), (["p", "build"], .directory), (["p", "build", "x"], .directory),
    (["p", "build", "x", "y"], .directory)]⟩ ⟨["p"], 0⟩

end NestedDirectories

open NestedDirectories in
/-- The theorem for all variants: the directory below the other one goes with it. -/
theorem nested_directories_cleaned :
    world.Sound ["p"] ∧ task.chosenVariants ⟨none, true⟩ = .ok task.registry.variants ∧
      ∃ w', (task.acting.clean ⟨none, true⟩).exec .childless world = (.ok [⟨"/p/build/x"⟩], w') ∧
        task.CleanedUp task.registry.variants ["p"] .childless world w' [⟨"/p/build/x"⟩] := by
  have sound : world.Sound ["p"] := by
    refine ⟨?_, rfl, .of_location ["p"]⟩
    decide +kernel
  have chosen : task.chosenVariants ⟨none, true⟩ = .ok task.registry.variants := rfl
  have leaves := task.clean_leaves ⟨none, true⟩ .childless world ["p"] sound
  have result : ((task.acting.clean ⟨none, true⟩).exec .childless world).1.toOption
      = some [⟨"/p/build/x"⟩] := by decide +kernel
  refine ⟨sound, chosen, ?_⟩
  -- The computation is done; what follows is about its outcome.
  generalize (task.acting.clean ⟨none, true⟩).exec .childless world = outcome at leaves result ⊢
  rw [chosen] at leaves
  obtain ⟨-, -, after⟩ := leaves
  rcases outcome with ⟨e | removed, w'⟩
  · cases result
  · cases result
    exact ⟨w', rfl, after⟩

/-! ## A spelling that is too long -/

namespace LongSpelling

/-- The name `x` with some dots behind it, which are not seen. -/
def dotted : Nat → List Char
  | 0 => ['x']
  | n + 1 => dotted n ++ ['/', '.']

theorem segmentNames_dotted (n : Nat) : Path.segmentNames (dotted n) = [.name "x"] := by
  induction n with
  | zero => decide +kernel
  | succ n ih =>
    rw [dotted, Path.segmentNames_append_slash, ih]
    rfl

/-- Long spellings can be made of any odd length. -/
theorem length_dotted (n : Nat) : (dotted n).length = 2 * n + 1 := by
  induction n with
  | zero => rfl
  | succ n ih =>
    rw [dotted, List.length_append, ih, List.length_cons, List.length_singleton]
    omega

theorem head?_dotted (n : Nat) : (dotted n).head? = some 'x' := by
  induction n with
  | zero => rfl
  | succ n ih =>
    rw [dotted, List.head?_append, ih]
    rfl

/-- A plan with a configuration, and with the configuration `x`. -/
def plan (config : String) : Plan where
  options := ⟨none, none, none⟩
  variants := [⟨some "a", "clang", config, none⟩, ⟨some "b", "clang", "x", none⟩]
  targets := .empty

/-- A task for the plan, in the project `/p`. -/
def task (config : String) : Task :=
  ⟨.withPlan ⟨"/p"⟩ ⟨planFileName⟩, (plan config).registry none, ⟨.normal, false⟩, false⟩

/-- The build directory of a configuration. -/
def directory (config : String) : Path :=
  (Project.withPlan ⟨"/p"⟩ ⟨planFileName⟩).path (defaultBuildRoot.child config)

/-- The directory `/p/build/x` is there. -/
def world : World :=
  .ofTree ⟨[(["p"], .directory), (["p", "build"], .directory), (["p", "build", "x"], .directory)]⟩
    ⟨["p"], 0⟩

theorem validate_plan (config : String) : (plan config).validate = .ok () := rfl

/-- A configuration that is a spelling of `x` is listed instead of it. -/
theorem directories_task {config : String} (relative : (Path.mk config).isAbsolute = false)
    (spells : (Path.mk config).names = [.name "x"]) :
    (task config).directories (task config).registry.variants = [directory config] := by
  have both : (task config).registry.variants.map (task config).buildDir
      = [directory config, directory "x"] := by
    show ((plan config).registry none).variants.map _ = _
    rw [Plan.variants_registry (validate_plan config)]
    rfl
  have same : (directory config).Same (directory "x") := by
    have root : (Project.withPlan ⟨"/p"⟩ ⟨planFileName⟩).root.isAbsolute = true := by decide +kernel
    have plain : (Path.mk "x").names = [.name "x"] := by decide +kernel
    unfold Path.Same directory
    rw [Project.components_path_child root _ relative, spells,
      Project.components_path_child root _ (by decide +kernel), plain]
  unfold Task.directories distinctPaths
  rw [both]
  simp [same]

/-- The spelling of a directory is at least as long as the name of the configuration in it. -/
theorem length_le_directory (config : String) :
    config.toList.length ≤ (directory config).text.toList.length := by
  have ends : config.toList <:+ (directory config).text.toList := by
    refine (Path.suffix_join defaultBuildRoot ⟨config⟩).trans ?_
    unfold directory Project.path
    split
    · exact List.suffix_rfl
    · exact Path.suffix_join _ _
  exact ends.length_le

end LongSpelling

open LongSpelling in
/-- **A directory may be left behind another spelling of it.**  The first of two variants with the
same directory spells it with so many dots that the system does not take the path; the cleaning
looks at that spelling only, finds nothing there, and succeeds. -/
theorem long_spelling_left :
    let config := String.ofList (dotted 2048)
    Plan.parse (plan config).text ⟨planFileName⟩ = .ok (plan config) ∧ world.Sound ["p"] ∧
      ∃ w', ((task config).acting.clean ⟨none, true⟩).exec .childless world = (.ok [], w') ∧
        ∃ v ∈ (task config).registry.variants,
          (task config).buildDir v = ⟨"/p/build/x"⟩ ∧
          w'.tree.kind? w'.cwd ((task config).buildDir v) = some .directory := by
  intro config
  have relative : (Path.mk config).isAbsolute = false := by
    unfold Path.isAbsolute
    rw [String.toList_ofList, head?_dotted]
    rfl
  have spells : (Path.mk config).names = [.name "x"] := by
    rw [Path.names_of_relative relative, String.toList_ofList, segmentNames_dotted]
  have unseen : world.tree.kind? world.cwd (directory config) = none := by
    refine FileTree.kind?_of_long (Nat.le_trans ?_ (length_le_directory config))
    rw [String.toList_ofList, length_dotted]
    decide
  have sound : world.Sound ["p"] := by
    refine ⟨?_, rfl, .of_location ["p"]⟩
    decide +kernel
  have turn := Task.exec_removeIfPresent (directory config) .childless world
  rw [unseen] at turn
  obtain ⟨w', told, skipped⟩ := (task config).acting.exec_removeAll_of_absent turn
  refine ⟨Plan.parse_text_of_valid (validate_plan config) _, sound, w', ?_, ?_⟩
  · have chosen : (task config).chosenVariants ⟨none, true⟩
        = .ok (task config).registry.variants := rfl
    rw [(task config).clean_of_chosen chosen, directories_task relative spells, skipped]
    rfl
  · refine ⟨⟨"b", ⟨⟨"clang", "x", none⟩, none⟩⟩, ?_, ?_, ?_⟩
    · show _ ∈ ((plan config).registry none).variants
      rw [Plan.variants_registry (validate_plan config)]
      exact List.mem_cons_of_mem _ List.mem_cons_self
    · show directory "x" = _
      decide +kernel
    · rw [told.tree, told.cwd]
      show world.tree.kind? world.cwd (directory "x") = _
      decide +kernel

end BuildVariants
