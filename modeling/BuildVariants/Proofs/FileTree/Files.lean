import BuildVariants.FileTree

/-!
# The files of a tree that changes

Making directories and removing them adds no file: a file that is there afterwards was there before
(`NoNewFile`).  A walk through directories goes the same way as long as they stand
(`walk_of_directories`), so a file that is written can be found under the path it was written to.
-/

namespace BuildVariants

namespace FileTree

/-- Every file of the second tree is one of the first. -/
def NoNewFile (before after : FileTree) : Prop :=
  ∀ l contents executable, after.get? l = some (.file contents executable) →
    before.get? l = some (.file contents executable)

variable {t t' t'' : FileTree} {cwd : Place} {p : Path}

namespace NoNewFile

theorem refl (t : FileTree) : NoNewFile t t := fun _ _ _ => id

theorem trans (h : NoNewFile t t') (k : NoNewFile t' t'') : NoNewFile t t'' :=
  fun l c x there => h l c x (k l c x there)

/-- A directory is no file.  The root is left out, as nothing is ever put there. -/
theorem put_directory (t : FileTree) {l : Location} (hl : l ≠ []) :
    NoNewFile t (t.put l .directory) := by
  intro k c x there
  rw [get?_put _ hl] at there
  split at there
  · cases there
  · exact there

theorem clear (t : FileTree) (top : Location) : NoNewFile t (t.clear top) := by
  intro k c x there
  rw [get?_clear] at there
  split at there
  · cases there
  · exact there

theorem drop (t : FileTree) {l : Location} (hl : l ≠ []) : NoNewFile t (t.drop l) := by
  intro k c x there
  rw [get?_drop hl] at there
  split at there
  · cases there
  · exact there

/-- The root cannot be dropped: it is there in every tree. -/
theorem drop_root (t : FileTree) : NoNewFile t (t.drop []) := by
  intro k c x there
  by_cases hk : k = []
  · rw [hk, get?_root] at there
    cases there
  · unfold get? at there ⊢
    rw [if_neg hk] at there ⊢
    rw [← there]
    refine (lookup_filter_of_forall t.entries ?_).symm
    intro e
    exact decide_eq_true hk

theorem emptied (t : FileTree) (p : Place) : NoNewFile t (t.emptied p) := by
  unfold FileTree.emptied
  split
  · exact clear t p.location
  · exact refl t

end NoNewFile

/-! ## Walking -/

/-- A step from a directory that stands does not look any further. -/
theorem step_eq_of_directory {here : Place} (h : t.entry? here = some .directory)
    (h' : t'.entry? here = some .directory) (segment : String) :
    t.step here segment = t'.step here segment := by
  unfold step
  rw [h, h']

/-- One can only step on from a directory. -/
theorem entry?_of_step {here next : Place} {segment : String}
    (ok : t.step here segment = .ok next) : t.entry? here = some .directory := by
  unfold step at ok
  split at ok
  · cases ok
  · cases ok
  · next directory => exact directory

/-- A walk goes through directories, and goes the same way as long as they stand. -/
theorem walk_of_directories {here there : Place} {segments : List String}
    (kept : ∀ q, t.entry? q = some .directory → t'.entry? q = some .directory)
    (ok : t.walk here segments = .ok there) : t'.walk here segments = .ok there := by
  induction segments generalizing here with
  | nil => exact ok
  | cons segment segments ih =>
    unfold walk at ok ⊢
    split at ok
    · cases ok
    · next stepped =>
      have directory := entry?_of_step stepped
      rw [← step_eq_of_directory directory (kept here directory), stepped]
      exact ih ok

/-- An entry that is put elsewhere does not touch a directory. -/
theorem entry?_put_of_directory {l : Location} {e : Entry} {q : Place} (hl : l ≠ [])
    (vacant : t.get? l ≠ some .directory) (directory : t.entry? q = some .directory) :
    entry? (t.put l e) q = some .directory := by
  unfold entry? at directory ⊢
  split
  · next stands =>
    rw [if_pos stands] at directory
    have elsewhere : q.location ≠ l := by
      intro at_l
      rw [at_l] at directory
      exact vacant directory
    rw [get?_put _ hl, if_neg elsewhere]
    exact directory
  · rfl

/-- What is put where no directory was does not stand in the way of a walk: a walk that succeeds
passes through directories only. -/
theorem walk_put {l : Location} {e : Entry} (hl : l ≠ []) (vacant : t.get? l ≠ some .directory)
    {here there : Place} {segments : List String} (ok : t.walk here segments = .ok there) :
    (t.put l e).walk here segments = .ok there :=
  walk_of_directories (fun _ => entry?_put_of_directory hl vacant) ok

/-! ## Making directories -/

/-- A directory is made at a place where nothing was, which its last name leads to. -/
theorem exists_put_of_makeDirectory (ok : t.makeDirectory cwd p = .ok t') :
    ∃ before last parent l, checkPath p = .ok () ∧ splitLast p = some (before, last) ∧
      t.walk (origin cwd p) before = .ok parent ∧ t.step parent last = .ok ⟨l, 0⟩ ∧
      l ≠ [] ∧ t.get? l = none ∧ t' = t.put l .directory := by
  unfold makeDirectory at ok
  split at ok
  · cases ok
  · next checked =>
    split at ok
    · cases ok
    · next before last names =>
      split at ok
      · cases ok
      · next parent walked =>
        split at ok
        · cases ok
        · next place stepped =>
          split at ok
          · cases ok
          · split at ok
            · cases ok
            · next occupied =>
              cases ok
              have vacant : t.entry? place = none :=
                Option.not_isSome_iff_eq_none.1 occupied
              obtain ⟨l, below⟩ := place
              cases below with
              | succ n => cases vacant
              | zero =>
                refine ⟨before, last, parent, l, checked, names, walked, stepped, ?_, vacant, rfl⟩
                -- The root is always there, so it was not made.
                intro root
                rw [root] at vacant
                cases vacant

/-- Making a directory makes no file. -/
theorem noNewFile_makeDirectory (ok : t.makeDirectory cwd p = .ok t') : NoNewFile t t' := by
  obtain ⟨-, -, -, l, -, -, -, -, hl, -, rfl⟩ := exists_put_of_makeDirectory ok
  exact .put_directory t hl

/-- What making one directory does, making several of them does.  The induction is on the
directories. -/
theorem createAncestors_induction {R : FileTree → FileTree → Prop} (refl : ∀ t, R t t)
    (trans : ∀ t t' t'', R t t' → R t' t'' → R t t'')
    (made : ∀ t t' p, t.makeDirectory cwd p = .ok t' → R t t') (t : FileTree) (ps : List Path) :
    R t (t.createAncestors cwd ps).2 := by
  induction ps with
  | nil => exact refl t
  | cons p above ih =>
    unfold createAncestors
    split
    · exact refl t
    · split
      · next ok => exact made _ _ _ ok
      · -- The directory above is missing and made first, with the hypothesis for what that takes.
        split
        · next stuck =>
          rw [stuck] at ih
          exact ih
        · next reached =>
          rw [reached] at ih
          split
          · next ok => exact trans _ _ _ ih (made _ _ _ ok)
          · split <;> exact ih
      · split <;> exact refl t

/-- Making a directory with those above it makes no file, also where it fails half-way. -/
theorem noNewFile_createAll (t : FileTree) (cwd : Place) (p : Path) :
    NoNewFile t (t.createAll cwd p).2 :=
  createAncestors_induction .refl (fun _ _ _ => .trans) (fun _ _ _ => noNewFile_makeDirectory) t
    p.ancestors

/-! ## Removing directories -/

theorem noNewFile_removeEmptied (t : FileTree) (cwd : Place) (p : Path) (l : Place) :
    NoNewFile t (t.removeEmptied cwd p l).2 := by
  unfold removeEmptied
  split
  · exact .refl t
  · split
    · exact .refl t
    · exact .refl t
    · split
      · exact .refl t
      · split
        · exact .refl t
        · by_cases root : l.location = []
          · rw [root]
            exact .drop_root t
          · exact .drop t root

/-- Removing a directory adds no file, whether it succeeds or not. -/
theorem noNewFile_removeTree (t : FileTree) (cwd : Place) (p : Path) :
    NoNewFile t (t.removeTree cwd p).2 := by
  unfold removeTree
  split
  · exact .refl t
  · exact .refl t
  · next l _ => exact (NoNewFile.emptied t l).trans (noNewFile_removeEmptied _ _ p l)

/-! ## Writing a file -/

/-- A file that was written is found. -/
theorem resolve_writeFile {contents : ByteArray} {executable : Bool}
    (ok : t.writeFile cwd p contents executable = .ok t') :
    ∃ l, l ≠ [] ∧ t' = t.put l (.file contents executable) ∧
      t'.resolve cwd p = .ok (⟨l, 0⟩, .file contents executable) := by
  unfold writeFile at ok
  split at ok
  · cases ok
  · next checked =>
    split at ok
    · cases ok
    · next place walked =>
      split at ok
      · cases ok
      · next free =>
        cases ok
        obtain ⟨l, below⟩ := place
        have stands : below = 0 := by
          cases below with
          | zero => rfl
          | succ n => exact absurd rfl free
        subst stands
        have vacant : t.get? l ≠ some .directory := free
        have inside : l ≠ [] := by
          intro root
          rw [root] at vacant
          exact vacant rfl
        have written : entry? (t.put l (.file contents executable)) ⟨l, 0⟩
            = some (.file contents executable) := by
          unfold entry?
          rw [if_pos rfl, get?_put _ inside, if_pos rfl]
        refine ⟨l, inside, rfl, ?_⟩
        unfold resolve
        rw [checked, walk_put inside vacant walked]
        simp only [written]

end FileTree

end BuildVariants
