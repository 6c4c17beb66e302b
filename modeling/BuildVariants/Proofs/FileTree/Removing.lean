import BuildVariants.Proofs.FileTree.Pruning
import Mathlib.Data.List.TakeWhile

/-!
# Removing a directory

What comes of removing a directory is one of four things (`FileTree.removeTree_cases`): the tree is
as before; or the directory has been emptied and the system does not remove it under that name; or
it has been emptied and the path, which led through it, leads nowhere any more; or it has been
removed.  In the last two cases the removal counts as done, and the path leads nowhere afterwards
(`FileTree.Removal.kind?_eq_none`).  In all of them nothing outside the directory has changed
(`FileTree.Removal.pruned`).
-/

namespace BuildVariants

namespace FileTree

variable {t : FileTree} {cwd : Place} {here : Location} {p : Path}

/-! ## The last name of a path -/

/-- A walk goes on from where its first part ends. -/
theorem walk_append (before after : List String) (q : Place) :
    t.walk q (before ++ after) = match t.walk q before with
      | .error e => .error e
      | .ok r => t.walk r after := by
  induction before generalizing q with
  | nil => rfl
  | cons segment before ih =>
    rw [List.cons_append, walk, walk]
    cases t.step q segment with
    | error e => rfl
    | ok next => exact ih next

/-- Slashes at the end of a path lead nowhere else. -/
theorem eq_of_walk_replicate {n : Nat} {q r : Place}
    (ok : t.walk q (List.replicate n "") = .ok r) : r = q := by
  induction n generalizing q with
  | zero =>
    cases ok
    rfl
  | succ n ih =>
    rw [List.replicate_succ, walk] at ok
    split at ok
    · cases ok
    · next next stepped =>
      rcases step_cases stepped with ⟨rfl, -⟩ | ⟨-, isUp⟩ | ⟨-, -, nonempty, -⟩
      · exact ih ok
      · exact absurd isUp (by decide)
      · exact absurd rfl nonempty

/-- Behind its last name a path has nothing but slashes. -/
theorem segments_of_splitLast {before : List String} {last : String}
    (h : splitLast p = some (before, last)) :
    last ≠ "" ∧ ∃ n, segments p = before ++ [last] ++ List.replicate n "" := by
  unfold splitLast at h
  split at h
  · cases h
  · next last' before' rest =>
    cases h
    have shown := List.head?_dropWhile_not (fun s : String => decide (s = "")) (segments p).reverse
    rw [rest] at shown
    refine ⟨of_decide_eq_false shown, ?_⟩
    generalize hidden : (segments p).reverse.takeWhile (fun s => decide (s = "")) = slashes
    have empty : ∀ s ∈ slashes, s = "" := by
      intro s hs
      rw [← hidden] at hs
      have hit := List.mem_takeWhile_imp hs
      exact of_decide_eq_true hit
    have replicated : slashes = List.replicate slashes.length "" :=
      List.eq_replicate_iff.2 ⟨rfl, empty⟩
    refine ⟨slashes.length, ?_⟩
    calc segments p = (slashes ++ (last :: before')).reverse := by
          rw [← hidden, ← rest, List.takeWhile_append_dropWhile, List.reverse_reverse]
      _ = before'.reverse ++ [last] ++ slashes.reverse := by
          rw [List.reverse_append, List.reverse_cons]
      _ = before'.reverse ++ [last] ++ List.replicate slashes.length "" := by
          rw [replicated, List.reverse_replicate, List.length_replicate]

/-- A path that leads somewhere has been walked to its end, and this is what stands there. -/
theorem walk_of_resolve {q : Place} {e : Entry} (found : t.resolve cwd p = .ok (q, e)) :
    t.walk (origin cwd p) (segments p) = .ok q ∧ t.entry? q = some e := by
  unfold resolve at found
  split at found
  · cases found
  · split at found
    · cases found
    · next walked =>
      split at found
      · cases found
      · next there =>
        cases found
        exact ⟨walked, there⟩

/-- A path that leads somewhere leads there with its last name. -/
theorem step_of_resolve {q : Place} {e : Entry} {before : List String} {last : String}
    (found : t.resolve cwd p = .ok (q, e)) (split : splitLast p = some (before, last)) :
    t.walk (origin cwd p) (before ++ [last]) = .ok q ∧ ∃ r, t.step r last = .ok q := by
  obtain ⟨-, n, whole⟩ := segments_of_splitLast split
  have walked := (walk_of_resolve found).1
  rw [whole, List.append_assoc, walk_append] at walked
  split at walked
  · cases walked
  · next r reached =>
    rw [List.singleton_append, walk] at walked
    split at walked
    · cases walked
    · next next stepped =>
      rw [eq_of_walk_replicate walked, walk_append, reached]
      simp only [walk, stepped, true_and]
      exact ⟨r, stepped⟩

/-- The path ends in a name, which is not one of those that stand for a directory itself or the one
above it. -/
def EndsInName (p : Path) : Prop :=
  ∃ before last, splitLast p = some (before, last) ∧ last ≠ "." ∧ last ≠ ".."

/-- Where a path that ends in a name leads, that name has been entered. -/
theorem stands_of_endsInName {q : Place} {e : Entry} (name : EndsInName p)
    (found : t.resolve cwd p = .ok (q, e)) : q.below = 0 ∧ q.location ≠ [] := by
  obtain ⟨before, last, split, noDot, noUp⟩ := name
  obtain ⟨-, r, stepped⟩ := step_of_resolve found split
  obtain ⟨nonempty, -⟩ := segments_of_splitLast split
  rcases step_cases stepped with ⟨-, hidden⟩ | ⟨-, isUp⟩ | ⟨rfl, -⟩
  · exact absurd hidden (not_or.2 ⟨nonempty, noDot⟩)
  · exact absurd isUp noUp
  · exact ⟨rfl, List.append_ne_nil_of_right_ne_nil _ (List.cons_ne_nil last [])⟩

/-! ## What comes of a removal -/

/-- What may come of removing the directory at a path. -/
inductive Removal (t : FileTree) (cwd : Place) (p : Path) : Except OsError Unit → FileTree → Prop
  /-- There is no directory, or it has been removed before. -/
  | refused (e : OsError) : Removal t cwd p (.error e) t
  /-- The directory has been emptied, but it is not removed by that name. -/
  | emptied (l : Location) (found : t.resolve cwd p = .ok (⟨l, 0⟩, .directory)) (e : OsError) :
    Removal t cwd p (.error e) (t.clear l)
  /-- The path led through the directory that it leads to, and has come to its end there. -/
  | vanished (l : Location) (found : t.resolve cwd p = .ok (⟨l, 0⟩, .directory))
    (lost : ∀ q, (t.clear l).resolve (cwd.settle (t.clear l)) p ≠ .ok q) :
    Removal t cwd p (.ok ()) (t.clear l)
  /-- The directory has been removed. -/
  | dropped (l : Location) (found : t.resolve cwd p = .ok (⟨l, 0⟩, .directory)) (inside : l ≠ [])
    (name : EndsInName p) : Removal t cwd p (.ok ()) ((t.clear l).drop l)

/-- A removed directory is not removed again. -/
theorem exists_error_of_removed {q : Place} (standing : t.get? cwd.location = some .directory)
    (found : t.resolve cwd p = .ok (q, .directory)) (removed : q.below ≠ 0) :
    ∃ e, t.removeTree cwd p = (.error e, t) := by
  have same : cwd.settle t = cwd := Place.settle_of_directory standing
  have whole : t.emptied q = t := if_neg removed
  unfold removeTree
  rw [found]
  simp only [whole, same]
  unfold removeEmptied
  split
  · exact ⟨_, rfl⟩
  · next before last split =>
    rw [(step_of_resolve found split).1]
    by_cases dot : last = "."
    · exact ⟨_, if_pos dot⟩
    · by_cases up : last = ".."
      · refine ⟨.notEmpty, ?_⟩
        simp only [if_neg dot, if_pos up]
      · exact absurd (stands_of_endsInName ⟨before, last, split, dot, up⟩ found).1 removed

/-- Every removal is of one of the four kinds, from the outcome of the walk and of the two stages of
the removal. -/
theorem removeTree_cases (standing : t.get? cwd.location = some .directory) :
    Removal t cwd p (t.removeTree cwd p).1 (t.removeTree cwd p).2 := by
  cases found : t.resolve cwd p with
  | error e =>
    unfold removeTree
    rw [found]
    exact .refused e
  | ok place =>
    obtain ⟨q, entry⟩ := place
    cases entry with
    | file contents executable =>
      unfold removeTree
      rw [found]
      exact .refused .notDirectory
    | directory =>
      by_cases stands : q.below = 0
      · obtain ⟨l, n⟩ := q
        change n = 0 at stands
        subst stands
        have cleared : t.emptied ⟨l, 0⟩ = t.clear l := if_pos rfl
        unfold removeTree
        rw [found]
        simp only [cleared]
        unfold removeEmptied
        split
        · exact .emptied l found _
        · next before last split =>
          -- The last name is followed once more, in the directory that has been emptied.
          split
          · next lost =>
            refine .vanished l found ?_
            intro place again
            rw [(step_of_resolve again split).1] at lost
            cases lost
          · exact .emptied l found _
          · split
            · exact .emptied l found _
            · next dot =>
              split
              · exact .emptied l found _
              · next up =>
                have name : EndsInName p := ⟨before, last, split, dot, up⟩
                exact .dropped l found (stands_of_endsInName name found).2 name
      · obtain ⟨e, is⟩ := exists_error_of_removed standing found stands
        rw [is]
        exact .refused e

/-! ## What a removal leaves -/

theorem pruned_clear (t : FileTree) (l : Location) : Pruned t (t.clear l) [l] := by
  intro k
  rw [get?_clear]
  split
  · next beneath => exact .inr ⟨rfl, l, List.mem_singleton_self l, beneath.1⟩
  · exact .inl rfl

theorem pruned_drop (t : FileTree) {l : Location} (inside : l ≠ []) :
    Pruned t (t.drop l) [l] := by
  intro k
  rw [get?_drop inside]
  split
  · next same => exact .inr ⟨rfl, l, List.mem_singleton_self l, same ▸ List.prefix_rfl⟩
  · exact .inl rfl

/-- A directory that stands is found where the text of its path says. -/
theorem eq_locationFrom_of_resolve {l : Location} {e : Entry} (stood : cwd.StoodAt here)
    (found : t.resolve cwd p = .ok (⟨l, 0⟩, e)) : l = p.locationFrom here :=
  (walk_locationFrom stood (walk_of_resolve found).1).location_eq rfl

variable {result : Except OsError Unit} {t' : FileTree}

/-- **Nothing outside the directory changes.** -/
theorem Removal.pruned (h : Removal t cwd p result t') (stood : cwd.StoodAt here) :
    Pruned t t' [p.locationFrom here] := by
  cases h with
  | refused e => exact .refl t _
  | emptied l found e =>
    rw [← eq_locationFrom_of_resolve stood found]
    exact pruned_clear t l
  | vanished l found lost =>
    rw [← eq_locationFrom_of_resolve stood found]
    exact pruned_clear t l
  | dropped l found inside name =>
    rw [← eq_locationFrom_of_resolve stood found]
    exact (pruned_clear t l).trans (pruned_drop _ inside)

/-- A directory that counts as removed has been emptied. -/
theorem Removal.get?_beneath (h : Removal t cwd p (.ok ()) t') (stood : cwd.StoodAt here)
    {l : Location} (beneath : Beneath (p.locationFrom here) l) : t'.get? l = none := by
  cases h with
  | vanished top found lost =>
    rw [← eq_locationFrom_of_resolve stood found] at beneath
    rw [get?_clear, if_pos beneath]
  | dropped top found inside name =>
    rw [← eq_locationFrom_of_resolve stood found] at beneath
    rw [get?_drop inside, if_neg beneath.2, get?_clear, if_pos beneath]

/-- An entry lies beneath the directory it stands in. -/
theorem beneath_dropLast {l : Location} (nonempty : l ≠ []) : Beneath l.dropLast l := by
  refine ⟨List.dropLast_prefix l, ?_⟩
  intro same
  have shorter := congrArg List.length same
  rw [List.length_dropLast] at shorter
  have := List.length_pos_iff.2 nonempty
  omega

/-- Lying beneath is transitive, so what lies in a nested directory lies in the outer one. -/
theorem Beneath.trans {a b c : Location} (h : Beneath a b) (k : Beneath b c) : Beneath a c := by
  refine ⟨h.1.trans k.1, ?_⟩
  rintro rfl
  exact h.2 (h.1.eq_of_length_le k.1.length_le).symm

/-- A directory that counts as removed was there. -/
theorem Removal.exists_get? (h : Removal t cwd p (.ok ()) t') (stood : cwd.StoodAt here) :
    ∃ e, t.get? (p.locationFrom here) = some e := by
  cases h with
  | vanished top found lost =>
    rw [← eq_locationFrom_of_resolve stood found]
    exact ⟨_, (walk_of_resolve found).2⟩
  | dropped top found inside name =>
    rw [← eq_locationFrom_of_resolve stood found]
    exact ⟨_, (walk_of_resolve found).2⟩

/-- Emptying takes out whatever lies beneath a directory, so no entry loses the directory it stands
in. -/
theorem closed_clear (closed : t.Closed) (top : Location) : (t.clear top).Closed := by
  intro l nonempty there
  rw [get?_clear] at there ⊢
  split at there
  · cases there
  · next outside =>
    rw [if_neg ?_]
    · exact closed l nonempty there
    · exact fun above => outside (above.trans (beneath_dropLast nonempty))

/-- An empty directory can be dropped. -/
theorem closed_drop (closed : t.Closed) {top : Location} (inside : top ≠ [])
    (empty : ∀ l, Beneath top l → t.get? l = none) : (t.drop top).Closed := by
  intro l nonempty there
  rw [get?_drop inside] at there ⊢
  split at there
  · cases there
  · next other =>
    rw [if_neg ?_]
    · exact closed l nonempty there
    · rintro rfl
      rw [empty l (beneath_dropLast nonempty)] at there
      cases there

/-- Every entry still stands in a directory after a removal, even after one that failed. -/
theorem Removal.closed (h : Removal t cwd p result t') (closed : t.Closed) : t'.Closed := by
  cases h with
  | refused e => exact closed
  | emptied l found e => exact closed_clear closed l
  | vanished l found lost => exact closed_clear closed l
  | dropped l found inside name =>
    refine closed_drop (closed_clear closed l) inside ?_
    intro k beneath
    rw [get?_clear, if_pos beneath]

/-- **What counts as removed is gone.** -/
theorem Removal.kind?_eq_none (h : Removal t cwd p (.ok ()) t') (stood : cwd.StoodAt here) :
    t'.kind? (cwd.settle t') p = none := by
  unfold kind?
  cases again : t'.resolve (cwd.settle t') p with
  | error e => rfl
  | ok place =>
    cases h with
    | vanished l found lost => exact absurd again (lost place)
    | dropped l found inside name =>
      -- The path could only lead to the same location, where nothing is left.
      obtain ⟨⟨k, n⟩, e⟩ := place
      obtain ⟨stands, -⟩ := stands_of_endsInName name again
      change n = 0 at stands
      subst stands
      have same : k = l := (eq_locationFrom_of_resolve (stood.settle _) again).trans
        (eq_locationFrom_of_resolve stood found).symm
      have there : ((t.clear l).drop l).get? k = some e := (walk_of_resolve again).2
      rw [get?_drop inside, if_pos same] at there
      cases there

end FileTree

end BuildVariants
