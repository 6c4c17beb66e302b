import BuildVariants.Proofs.Operation.Call
import BuildVariants.Proofs.Simulation.Triple
import BuildVariants.Proofs.Simulation.Watching

/-!
# Removing build directories

A cleaning works on a list of directories, each of them once (`DistinctPart`).  A dry run prints the
list; in earnest the program walks through it: it looks at one directory after the other, and
removes those that it finds (`Walks`).  The walk ends early only if a directory cannot be removed.
What holds of a world all the way is what removing a directory and telling of it do not change
(`keeps_removeAll`).
-/

namespace BuildVariants

/-! ## Each directory once -/

/-- What is left of a list of paths when each of them is kept once. -/
structure DistinctPart (paths kept : List Path) : Prop where
  /-- The order is that of the list. -/
  sublist : kept.Sublist paths
  /-- No two of those that are kept are the same path. -/
  distinct : kept.Pairwise fun p q => ¬ p.Same q
  /-- Every path of the list is kept in some spelling. -/
  covers : ∀ p ∈ paths, ∃ q ∈ kept, q.Same p

namespace DistinctPart

theorem nil : DistinctPart [] [] :=
  ⟨.slnil, .nil, fun _ hp => absurd hp List.not_mem_nil⟩

/-- A path that has been kept already is passed over. -/
theorem skip {paths kept : List Path} {p : Path} (h : DistinctPart paths kept)
    (old : ∃ q ∈ kept, q.Same p) : DistinctPart (paths ++ [p]) kept := by
  refine ⟨h.sublist.trans (List.sublist_append_left _ _), h.distinct, ?_⟩
  intro q hq
  rcases List.mem_append.1 hq with hq | hq
  · exact h.covers q hq
  · rw [List.mem_singleton.1 hq]
    exact old

/-- A path that is new is kept. -/
theorem keep {paths kept : List Path} {p : Path} (h : DistinctPart paths kept)
    (new : ¬ ∃ q ∈ kept, q.Same p) : DistinctPart (paths ++ [p]) (kept ++ [p]) := by
  refine ⟨h.sublist.append (List.Sublist.refl [p]), ?_, ?_⟩
  · rw [List.pairwise_append]
    refine ⟨h.distinct, List.pairwise_singleton _ p, ?_⟩
    intro q hq p' hp' same
    rw [List.mem_singleton.1 hp'] at same
    exact new ⟨q, hq, same⟩
  · intro q hq
    rcases List.mem_append.1 hq with hq | hq
    · obtain ⟨r, hr, same⟩ := h.covers q hq
      exact ⟨r, List.mem_append_left _ hr, same⟩
    · exact ⟨q, List.mem_append_right _ hq, rfl⟩

end DistinctPart

/-- The induction is on what is still to be looked at. -/
theorem distinctPart_foldl (rest : List Path) {done kept : List Path}
    (h : DistinctPart done kept) :
    DistinctPart (done ++ rest)
      (rest.foldl (fun kept p => if kept.any fun q => decide (q.Same p) then kept else kept ++ [p])
        kept) := by
  induction rest generalizing done kept with
  | nil =>
    rw [List.append_nil]
    exact h
  | cons p rest ih =>
    rw [List.foldl_cons, List.append_cons]
    have old : (kept.any fun q => decide (q.Same p)) = true ↔ ∃ q ∈ kept, q.Same p := by
      simp
    split
    · next found => exact ih (h.skip (old.1 found))
    · next found => exact ih (h.keep fun found' => found (old.2 found'))

/-- What has been kept stays at the front. -/
theorem prefix_foldl_distinct (rest kept : List Path) :
    kept <+: rest.foldl
      (fun kept p => if kept.any fun q => decide (q.Same p) then kept else kept ++ [p]) kept := by
  induction rest generalizing kept with
  | nil => exact List.prefix_rfl
  | cons p rest ih =>
    rw [List.foldl_cons]
    refine List.IsPrefix.trans ?_ (ih _)
    split
    · exact List.prefix_rfl
    · exact List.prefix_append kept [p]

/-- The paths at the front of a list are kept at the front. -/
theorem prefix_distinctPaths {front paths : List Path} (h : front <+: paths) :
    distinctPaths front <+: distinctPaths paths := by
  obtain ⟨rest, rfl⟩ := h
  unfold distinctPaths
  rw [List.foldl_append]
  exact prefix_foldl_distinct rest _

/-- The list of a cleaning is made by going through its paths once and leaving out what is on the
list already. -/
theorem distinctPart_distinctPaths (paths : List Path) :
    DistinctPart paths (distinctPaths paths) :=
  distinctPart_foldl paths .nil

/-! ## The walk -/

/-- The visits of a walk through some directories. -/
structure Walks (directories : List Path) (visits : List Visit) (complete : Prop) : Prop where
  /-- The program looks at one directory after the other. -/
  looked : visits.filterMap Visit.looked? <+: directories
  /-- A walk that does not fail ends with the last directory. -/
  whole : complete → visits.filterMap Visit.looked? = directories
  /-- What the program removes it has looked at, and in that order. -/
  removed : (visits.filterMap Visit.removed?).Sublist (visits.filterMap Visit.looked?)

namespace Walks

theorem nil (complete : Prop) : Walks [] [] complete :=
  ⟨List.prefix_rfl, fun _ => rfl, .slnil⟩

/-- The walk ends at a directory that cannot be removed. -/
theorem stuck (d : Path) (ds : List Path) : Walks (d :: ds) [.looked d, .removed d] False :=
  ⟨List.prefix_append [d] ds, False.elim, List.Sublist.refl [d]⟩

theorem skip {d : Path} {ds : List Path} {visits : List Visit} {complete : Prop}
    (h : Walks ds visits complete) : Walks (d :: ds) (.looked d :: visits) complete :=
  ⟨(List.prefix_cons_inj d).2 h.looked, fun ok => congrArg (d :: ·) (h.whole ok),
    h.removed.cons d⟩

/-- A directory that is there is looked at and then removed. -/
theorem remove {d : Path} {ds : List Path} {visits : List Visit} {complete : Prop}
    (h : Walks ds visits complete) :
    Walks (d :: ds) (.looked d :: .removed d :: visits) complete :=
  ⟨(List.prefix_cons_inj d).2 h.looked, fun ok => congrArg (d :: ·) (h.whole ok),
    h.removed.cons_cons d⟩

/-- A walk that is complete under some condition is so under any that implies it. -/
theorem mono {ds : List Path} {visits : List Visit} {p q : Prop} (h : Walks ds visits p)
    (imp : q → p) : Walks ds visits q :=
  ⟨h.looked, fun hq => h.whole (imp hq), h.removed⟩

end Walks

namespace Task

open Operation

variable (t : Task) {s : Setting} {w : World}

/-- Removing one directory: it is not there, or it is removed, or it cannot be removed. -/
theorem shadows_removeIfPresent (d : Path) :
    (∃ w', (removeIfPresent d : Operation Simulation Bool).exec s w = (.ok false, w') ∧
      Shadows (removeIfPresent d) (removeIfPresent d) s w [.looked d]) ∨
    (∃ w', (removeIfPresent d : Operation Simulation Bool).exec s w = (.ok true, w') ∧
      Shadows (removeIfPresent d) (removeIfPresent d) s w [.looked d, .removed d]) ∨
    ∃ e w', (removeIfPresent d : Operation Simulation Bool).exec s w = (.error e, w') ∧
      Shadows (removeIfPresent d) (removeIfPresent d) s w [.looked d, .removed d] := by
  have asked : (ask (Host.pathExists d) : Operation Simulation Bool).exec s w
      = (.ok (w.tree.kind? w.cwd d).isSome, w) := rfl
  cases there : (w.tree.kind? w.cwd d).isSome with
  | false =>
    rw [there] at asked
    exact .inl ⟨w, exec_bind_of_ok asked _, (Shadows.pathExists d).bind_of_ok asked (.pure false)⟩
  | true =>
    rw [there] at asked
    -- From here on the removal is noted, whatever comes of it.
    have removal : (ask (Host.removeTree d) : Operation Simulation _).exec s w
        = (.ok (w.tree.removeTree w.cwd d).1, w.withTree (w.tree.removeTree w.cwd d).2) := rfl
    cases result : (w.tree.removeTree w.cwd d).1 with
    | ok _ =>
      rw [result] at removal
      refine .inr (.inl ⟨w.withTree (w.tree.removeTree w.cwd d).2, ?_, ?_⟩)
      · exact (exec_bind_of_ok asked _).trans (exec_bind_of_ok removal _)
      · exact (Shadows.pathExists d).bind_of_ok asked
          ((Shadows.removeTree d).bind_of_ok removal (.pure true))
    | error e =>
      rw [result] at removal
      refine .inr (.inr
        ⟨.removeDirectory d e, w.withTree (w.tree.removeTree w.cwd d).2, ?_, ?_⟩)
      · exact (exec_bind_of_ok asked _).trans (exec_bind_of_ok removal _)
      · exact (Shadows.pathExists d).bind_of_ok asked
          ((Shadows.removeTree d).bind_of_ok removal (.throw _))

/-- **Removing directories is a walk through them.** -/
theorem shadows_removeAll (ds : List Path) (w : World) :
    ∃ visits, Shadows (t.removeAll ds) (t.removeAll ds) s w visits ∧
      Walks ds visits ((t.removeAll ds : Operation Simulation _).exec s w).1.isOk := by
  induction ds generalizing w with
  | nil => exact ⟨[], .pure [], .nil _⟩
  | cons d ds ih =>
    unfold removeAll
    rcases shadows_removeIfPresent (s := s) (w := w) d with
      ⟨w', step, same⟩ | ⟨w', step, same⟩ | ⟨e, w', step, same⟩
    · -- The directory is not there.
      have told := exec_ask (Host.status t.shell .skipped (d.text ++ " (not present)")) s w'
      obtain ⟨visits, rest, walk⟩ :=
        ih ((Host.status t.shell .skipped (d.text ++ " (not present)") : Simulation _) s w').2
      refine ⟨_, same.bind_of_ok step ((Shadows.status _ _ _).bind_of_ok told rest), ?_⟩
      rw [exec_bind_of_ok step]
      show Walks _ _ ((_ >>= _ : Operation Simulation _).exec s w').1.isOk
      rw [exec_bind_of_ok told]
      exact walk.skip
    · -- It has been removed.
      have told := exec_ask (Host.status t.shell .removed d.text) s w'
      obtain ⟨visits, rest, walk⟩ :=
        ih ((Host.status t.shell .removed d.text : Simulation _) s w').2
      have all := rest.map (d :: ·)
      rw [map_eq_pure_bind, map_eq_pure_bind] at all
      refine ⟨_, same.bind_of_ok step ((Shadows.status _ _ _).bind_of_ok told all), ?_⟩
      rw [exec_bind_of_ok step]
      show Walks _ _ ((_ >>= _ : Operation Simulation _).exec s w').1.isOk
      rw [exec_bind_of_ok told]
      refine walk.remove.mono ?_
      rw [exec_bind]
      rcases (t.removeAll ds : Operation Simulation _).exec s _ with ⟨_ | _, _⟩
      · exact id
      · exact fun _ => rfl
    · -- It is still there.
      refine ⟨_, same.bind_of_error step, ?_⟩
      rw [exec_bind_of_error step]
      exact (Walks.stuck d ds).mono nofun

/-- In earnest, a cleaning removes the directories of the chosen variants. -/
theorem clean_of_chosen {m : Type → Type} [Monad m] [LawfulMonad m] [Host m] {r : CleanRequest}
    {vs : List Variant} (chosen : t.chosenVariants r = .ok vs) :
    (t.acting.clean r : Operation m _) = t.acting.removeAll (t.directories vs) := by
  unfold clean
  rw [show t.acting.chosenVariants r = .ok vs from chosen]
  exact pure_bind vs _

/-- The directories of the chosen variants are walked through. -/
theorem clean_walks {r : CleanRequest} {vs : List Variant} (chosen : t.chosenVariants r = .ok vs) :
    ∃ visits, Shadows (t.acting.clean r) (t.acting.clean r) s w visits ∧
      Walks (t.directories vs) visits ((t.acting.clean r : Operation Simulation _).exec s w).1.isOk
        := by
  rw [t.clean_of_chosen chosen, t.clean_of_chosen chosen]
  exact t.acting.shadows_removeAll (t.directories vs) w

/-! ## What a walk keeps -/

variable {t : Task} {I : World → Prop}

/-- What a removal does not harm is kept where one is made and where it is left out. -/
theorem keeps_removeIfPresent {d : Path}
    (removed : ∀ w : World, I w → I (w.withTree (w.tree.removeTree w.cwd d).2)) :
    Keeps I (removeIfPresent d) s := by
  refine .looks_bind (fun _ _ => rfl) fun there => ?_
  refine Ensures.mono (P := I) ?_ (fun _ h => h.1) fun _ _ => id
  cases there with
  | false => exact .pure fun _ => id
  | true =>
    have removal : Keeps I (ask (Host.removeTree d)) s := .ask removed
    refine removal.bind fun result => ?_
    cases result with
    | ok _ => exact .pure fun _ => id
    | error e => exact .throw fun _ => id

/-- The induction is on the directories. -/
theorem keeps_removeAll (ds : List Path)
    (removed : ∀ (w : World) (d : Path), I w → I (w.withTree (w.tree.removeTree w.cwd d).2))
    (told : ∀ d ∈ ds, Keeps I (ask (Host.status t.shell .removed d.text)) s ∧
      Keeps I (ask (Host.status t.shell .skipped (d.text ++ " (not present)"))) s) :
    Keeps I (t.removeAll ds) s := by
  induction ds with
  | nil => exact .pure fun _ => id
  | cons d ds ih =>
    have rest := ih fun q hq => told q (List.mem_cons_of_mem d hq)
    obtain ⟨gone, absent⟩ := told d List.mem_cons_self
    refine (keeps_removeIfPresent fun w => removed w d).bind fun present => ?_
    cases present with
    | false => exact absent.bind fun _ => rest
    | true => exact gone.bind fun _ => rest.bind fun _ => .pure fun _ => id

end Task

end BuildVariants
