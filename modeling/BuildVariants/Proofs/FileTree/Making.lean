import BuildVariants.Proofs.FileTree.Removing
import BuildVariants.Proofs.Path.Spelling

/-!
# Making a directory

A directory is only made where nothing was, so making directories takes nothing away
(`FileTree.Grown`): what a path led to it still leads to.  A directory that was made is found under
its path (`resolve_makeDirectory`), and so is one that was made with those above it as far as they
were missing (`kind?_createAll`); for one that was already there, making it looks whether it is a
directory.  The empty path alone counts as made and leads nowhere.
-/

namespace BuildVariants

namespace FileTree

variable {t t' t'' : FileTree} {cwd : Place} {p : Path}

/-! ## Trees that grow -/

/-- Whatever stands in the first tree stands in the second. -/
def Grown (before after : FileTree) : Prop :=
  ∀ l e, before.get? l = some e → after.get? l = some e

namespace Grown

theorem refl (t : FileTree) : Grown t t := fun _ _ => id

theorem trans (h : Grown t t') (k : Grown t' t'') : Grown t t'' :=
  fun l e there => k l e (h l e there)

/-- An entry that is put where nothing was takes nothing away. -/
theorem put {l : Location} (hl : l ≠ []) (vacant : t.get? l = none) (e : Entry) :
    Grown t (t.put l e) := by
  intro k e' there
  have elsewhere : k ≠ l := by
    rintro rfl
    rw [vacant] at there
    cases there
  rw [get?_put _ hl, if_neg elsewhere]
  exact there

/-- What is found at a place is still found there.  In a directory that has been removed nothing can
change. -/
theorem entry? (h : Grown t t') {q : Place} {e : Entry} (there : t.entry? q = some e) :
    t'.entry? q = some e := by
  unfold FileTree.entry? at there ⊢
  split
  · next stands =>
    rw [if_pos stands] at there
    exact h q.location e there
  · next removed =>
    rw [if_neg removed] at there
    exact there

/-- A path that leads somewhere leads there in a tree that has grown. -/
theorem resolve (h : Grown t t') {q : Place} {e : Entry} (found : t.resolve cwd p = .ok (q, e)) :
    t'.resolve cwd p = .ok (q, e) := by
  obtain ⟨walked, there⟩ := walk_of_resolve found
  have walked' := walk_of_directories (fun _ => h.entry?) walked
  unfold FileTree.resolve at found ⊢
  split at found
  · cases found
  · next checked =>
    rw [walked']
    simp only [h.entry? there]

/-- What is seen at a path is still seen there. -/
theorem kind?_eq (h : Grown t t') {k : EntryKind} (seen : t.kind? cwd p = some k) :
    t'.kind? cwd p = some k := by
  unfold kind? at seen ⊢
  split at seen
  · next found =>
    rw [h.resolve found]
    exact seen
  · cases seen

/-- A process in a directory that stands is where it was. -/
theorem settle (h : Grown t t') (standing : t.get? cwd.location = some .directory) :
    cwd.settle t' = cwd :=
  Place.settle_of_directory (h _ _ standing)

end Grown

/-! ## One directory -/

theorem grown_makeDirectory (ok : t.makeDirectory cwd p = .ok t') : Grown t t' := by
  obtain ⟨-, -, -, l, -, -, -, -, hl, vacant, rfl⟩ := exists_put_of_makeDirectory ok
  exact .put hl vacant .directory

/-- Slashes behind the name of a directory lead to it. -/
theorem walk_replicate {q : Place} (directory : t.entry? q = some .directory) (n : Nat) :
    t.walk q (List.replicate n "") = .ok q := by
  have stays : t.step q "" = .ok q := by
    unfold step
    rw [directory]
    exact if_pos (.inl rfl)
  induction n with
  | zero => rfl
  | succ n ih =>
    rw [List.replicate_succ, walk, stays]
    exact ih

/-- A directory that was made is found. -/
theorem resolve_makeDirectory (ok : t.makeDirectory cwd p = .ok t') :
    ∃ q, t'.resolve cwd p = .ok (q, .directory) := by
  obtain ⟨before, last, parent, l, checked, names, walked, stepped, hl, vacant, rfl⟩ :=
    exists_put_of_makeDirectory ok
  have grown := Grown.put hl vacant .directory
  have named : t.walk (origin cwd p) (before ++ [last]) = .ok ⟨l, 0⟩ := by
    rw [walk_append, walked]
    simp only [walk, stepped]
  have made : entry? (t.put l .directory) ⟨l, 0⟩ = some .directory := by
    unfold entry?
    rw [if_pos rfl, get?_put _ hl, if_pos rfl]
  obtain ⟨-, n, whole⟩ := segments_of_splitLast names
  have reached : (t.put l .directory).walk (origin cwd p) (segments p) = .ok ⟨l, 0⟩ := by
    rw [whole, walk_append, walk_of_directories (fun _ => grown.entry?) named]
    exact walk_replicate made n
  refine ⟨⟨l, 0⟩, ?_⟩
  unfold resolve
  rw [checked, reached]
  simp only [made]

/-- A path that leads to a directory shows a directory. -/
theorem kind?_of_resolve_directory {q : Place} (found : t.resolve cwd p = .ok (q, .directory)) :
    t.kind? cwd p = some .directory := by
  unfold kind?
  rw [found]
  rfl

theorem kind?_makeDirectory (ok : t.makeDirectory cwd p = .ok t') :
    t'.kind? cwd p = some .directory := by
  obtain ⟨q, found⟩ := resolve_makeDirectory ok
  exact kind?_of_resolve_directory found

theorem kind?_of_isDirectory (h : t.isDirectory cwd p = true) :
    t.kind? cwd p = some .directory := by
  unfold isDirectory at h
  split at h
  · next q e found =>
    cases e with
    | directory => exact kind?_of_resolve_directory found
    | file contents executable => cases h
  · cases h

/-! ## With those above it -/

/-- Making a directory with those above it takes nothing away, also where it fails half-way. -/
theorem grown_createAll (t : FileTree) (cwd : Place) (p : Path) :
    Grown t (t.createAll cwd p).2 :=
  createAncestors_induction .refl (fun _ _ _ => .trans) (fun _ _ _ => grown_makeDirectory) t
    p.ancestors

/-- A path is the first of its own ancestors. -/
theorem exists_ancestors_eq (p : Path) : ∃ above, p.ancestors = p :: above := by
  cases up : p.parent? with
  | none => exact ⟨[], Path.ancestors_of_parent?_eq_none up⟩
  | some q => exact ⟨q.ancestors, Path.ancestors_of_parent?_eq_some up⟩

/-- **What counts as made is a directory**: it was made at last, or something was in the way and
turned out to be a directory.  That holds of every path but the empty one. -/
theorem kind?_createAll (ok : t.createAll cwd p = (.ok (), t')) (nonempty : p.text ≠ "") :
    t'.kind? cwd p = some .directory := by
  obtain ⟨above, ancestors⟩ := exists_ancestors_eq p
  unfold createAll at ok
  rw [ancestors, createAncestors, if_neg (Path.components_ne_nil nonempty)] at ok
  split at ok
  · next made =>
    cases ok
    exact kind?_makeDirectory made
  · split at ok
    · cases ok
    · split at ok
      · next made =>
        cases ok
        exact kind?_makeDirectory made
      · split at ok
        · next stands =>
          cases ok
          exact kind?_of_isDirectory stands
        · cases ok
  · split at ok
    · next stands =>
      cases ok
      exact kind?_of_isDirectory stands
    · cases ok

/-- Nothing is seen under the empty path. -/
theorem kind?_of_text_eq_empty (empty : p.text = "") : t.kind? cwd p = none := by
  obtain ⟨text⟩ := p
  cases empty
  rfl

end FileTree

end BuildVariants
