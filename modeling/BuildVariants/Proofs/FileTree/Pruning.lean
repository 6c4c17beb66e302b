import BuildVariants.Proofs.FileTree.Files
import BuildVariants.Proofs.FileTree.Following
import BuildVariants.World

/-!
# What is gone stays gone

Removing takes entries out of a tree and changes nothing else (`FileTree.Pruned`).  A path that
leads nowhere leads nowhere in what is left of the tree, also for a process whose own directory has
been removed (`FileTree.isSome_kind?_of_pruned`).

That is not clear at once, for a process in a removed directory can still go up.  But whatever it
reaches in this way, it would have reached before: its place has only sunk (`Place.Sunk`).  This
uses that every entry stands in a directory (`FileTree.Closed`).
-/

namespace BuildVariants

namespace FileTree

/-- Every entry stands in a directory. -/
def Closed (t : FileTree) : Prop :=
  ∀ l, l ≠ [] → (t.get? l).isSome → t.get? l.dropLast = some .directory

theorem any_isDirectory_iff {entry : Option Entry} :
    entry.any Entry.isDirectory = true ↔ entry = some .directory := by
  cases entry with
  | none => exact iff_of_false Bool.false_ne_true nofun
  | some e =>
    cases e with
    | directory => exact iff_of_true rfl rfl
    | file contents executable => exact iff_of_false Bool.false_ne_true nofun

/-- It is enough to look at the entries of a tree. -/
theorem closed_iff (t : FileTree) :
    t.Closed ↔ ∀ e ∈ t.entries, (t.get? e.1.dropLast).any Entry.isDirectory = true := by
  constructor
  · rintro closed ⟨l, entry⟩ mem
    rw [any_isDirectory_iff]
    by_cases root : l = []
    · rw [root]
      rfl
    · refine closed l root ?_
      unfold get?
      rw [if_neg root]
      rw [← Option.not_isNone, Bool.not_eq_true', Bool.eq_false_iff]
      intro none
      rw [Option.isNone_iff_eq_none, List.lookup_eq_none_iff] at none
      exact bne_iff_ne.1 (none _ mem) rfl
  · intro all l nonempty there
    unfold get? at there
    rw [if_neg nonempty] at there
    obtain ⟨entry, found⟩ := Option.isSome_iff_exists.1 there
    obtain ⟨before, after, split, -⟩ := List.lookup_eq_some_iff.1 found
    rw [← any_isDirectory_iff]
    refine all (l, entry) ?_
    rw [split]
    exact List.mem_append_right _ List.mem_cons_self

instance (t : FileTree) : Decidable t.Closed :=
  decidable_of_iff _ t.closed_iff.symm

/-- The second tree is the first one without some entries, all of them at certain places or beneath
them. -/
def Pruned (before after : FileTree) (tops : List Location) : Prop :=
  ∀ l, after.get? l = before.get? l ∨ after.get? l = none ∧ ∃ top ∈ tops, top <+: l

namespace Pruned

variable {t t' t'' : FileTree} {tops tops' : List Location}

theorem refl (t : FileTree) (tops : List Location) : Pruned t t tops := fun _ => .inl rfl

/-- More places may be named than entries were taken out at. -/
theorem mono (h : Pruned t t' tops) (sub : ∀ top ∈ tops, top ∈ tops') : Pruned t t' tops' := by
  intro l
  rcases h l with same | ⟨gone, top, mem, pre⟩
  · exact .inl same
  · exact .inr ⟨gone, top, sub top mem, pre⟩

/-- What is gone after the first removal stays gone in the second one. -/
theorem trans (h : Pruned t t' tops) (k : Pruned t' t'' tops) : Pruned t t'' tops := by
  intro l
  rcases k l with same | gone
  · rw [same]
    exact h l
  · exact .inr gone

/-- What was taken out first, and what was taken out then. -/
theorem append (h : Pruned t t' tops) (k : Pruned t' t'' tops') :
    Pruned t t'' (tops ++ tops') :=
  (h.mono fun _ mem => List.mem_append_left _ mem).trans
    (k.mono fun _ mem => List.mem_append_right _ mem)

/-- What is there afterwards was there before. -/
theorem get?_eq {l : Location} {e : Entry} (h : Pruned t t' tops) (there : t'.get? l = some e) :
    t.get? l = some e := by
  rcases h l with same | ⟨gone, -⟩
  · rw [← same]
    exact there
  · rw [gone] at there
    cases there

end Pruned

end FileTree

/-! ## Places that have sunk -/

/-- Where a process is after its tree has been pruned: where it was, or in a removed directory below
one that stands. -/
structure Place.Sunk (before : FileTree) (sunk p : Place) : Prop where
  /-- What still stands is above it. -/
  above : sunk.location <+: p.location
  /-- It is as deep as it was. -/
  depth : sunk.location.length + sunk.below = p.location.length + p.below
  /-- What has been removed was a directory. -/
  stood : sunk.below ≠ 0 → before.get? p.location = some .directory

namespace Place.Sunk

variable {t : FileTree} {sunk p : Place}

/-- A place in a directory that stands has not sunk. -/
theorem refl (t : FileTree) (stands : p.below = 0) : Place.Sunk t p p :=
  ⟨List.prefix_rfl, rfl, fun removed => absurd stands removed⟩

/-- A place that stands has not sunk. -/
theorem eq_of_below (h : Place.Sunk t sunk p) (stands : sunk.below = 0) : sunk = p := by
  obtain ⟨l, n⟩ := sunk
  obtain ⟨l', n'⟩ := p
  have depth : l.length + n = l'.length + n' := h.depth
  have standing : n = 0 := stands
  have above : l <+: l' := h.above
  have shorter := above.length_le
  have same : l = l' := above.eq_of_length (by omega)
  have standing' : n' = 0 := by omega
  rw [same, standing, standing']

/-- The directory of a process is where the process is after the tree has changed. -/
theorem settle (standing : t.get? p.location = some .directory) (t' : FileTree) :
    Place.Sunk t (p.settle t') p := by
  obtain ⟨above, depth⟩ := StoodAt.among t' p.location.reverse p.below
  rw [List.reverse_reverse] at above
  rw [List.length_reverse] at depth
  exact ⟨above, depth, fun _ => standing⟩

/-- A removed directory is seen as a directory before and after. -/
theorem entry? (h : Place.Sunk t sunk p) (removed : sunk.below ≠ 0) :
    t.entry? p = some .directory := by
  unfold FileTree.entry?
  split
  · exact h.stood removed
  · rfl

/-- Going up leaves a place sunk.  That the way up leads through directories needs that every entry
stands in one. -/
theorem up (closed : t.Closed) (h : Place.Sunk t sunk p) : Place.Sunk t sunk.up p.up := by
  by_cases stands : sunk.below = 0
  · have same := h.eq_of_below stands
    subst same
    obtain ⟨l, n⟩ := sunk
    change n = 0 at stands
    subst stands
    exact refl t rfl
  · obtain ⟨l, n⟩ := sunk
    obtain ⟨l', n'⟩ := p
    obtain ⟨n, rfl⟩ := Nat.exists_eq_succ_of_ne_zero stands
    have depth : l.length + (n + 1) = l'.length + n' := h.depth
    have directory : t.get? l' = some .directory := h.stood stands
    cases n' with
    | zero =>
      -- Before the removal the place stood, so the way up led to the directory it stands in.
      have nonempty : l' ≠ [] := by
        rintro rfl
        rw [List.length_nil] at depth
        omega
      refine ⟨?_, ?_, fun _ => ?_⟩
      · refine List.prefix_of_prefix_length_le h.above (List.dropLast_prefix l') ?_
        show l.length ≤ l'.dropLast.length
        rw [List.length_dropLast]
        omega
      · show l.length + n = l'.dropLast.length + 0
        rw [List.length_dropLast]
        omega
      · refine closed l' nonempty ?_
        rw [directory]
        rfl
    | succ n' =>
      refine ⟨h.above, ?_, fun _ => directory⟩
      show l.length + n = l'.length + n'
      omega

end Place.Sunk

/-- The place that is found for a list of names is always a directory that stands; what could not be
found of them only counts as depth below it. -/
theorem Place.get?_among (t : FileTree) (names : List String) (below : Nat) :
    t.get? (Place.among t names below).location = some .directory := by
  induction names generalizing below with
  | nil => rfl
  | cons name names ih =>
    unfold Place.among
    split
    · next directory => exact directory
    · exact ih (below + 1)

/-- What stands above a process is a directory. -/
theorem Place.get?_settle (p : Place) (t : FileTree) :
    t.get? (p.settle t).location = some .directory :=
  get?_among t p.location.reverse p.below

/-! ## Following a path in what is left -/

namespace FileTree

variable {t t' : FileTree} {tops : List Location} {cwd : Place} {p : Path}

/-- A step stays where it is, goes up, or enters a name; that only from a place that stands. -/
theorem step_cases {here next : Place} {segment : String}
    (ok : t.step here segment = .ok next) :
    (next = here ∧ (segment = "" ∨ segment = ".")) ∨ (next = here.up ∧ segment = "..") ∨
      (next = ⟨here.location ++ [segment], 0⟩ ∧ here.below = 0 ∧
        segment ≠ "" ∧ segment ≠ "." ∧ segment ≠ "..") := by
  unfold step at ok
  split at ok
  · cases ok
  · cases ok
  · split at ok
    · next hidden =>
      cases ok
      exact .inl ⟨rfl, hidden⟩
    · next shown =>
      split at ok
      · next isUp =>
        cases ok
        exact .inr (.inl ⟨rfl, isUp⟩)
      · next name =>
        split at ok
        · cases ok
        · next stands =>
          split at ok
          · cases ok
          · cases ok
            obtain ⟨nonempty, noDot⟩ := not_or.1 shown
            exact .inr (.inr ⟨rfl, Nat.eq_zero_of_not_pos stands, nonempty, noDot, name⟩)

/-- A step in the pruned tree could be made before, from the place that has sunk.  What it finds
there now is either untouched, or it is within a removed directory, from which only the way up is
left. -/
theorem step_of_pruned {sunk here next : Place} {segment : String} (pruned : Pruned t t' tops)
    (closed : t.Closed) (h : Place.Sunk t sunk here) (ok : t'.step sunk segment = .ok next) :
    ∃ next', t.step here segment = .ok next' ∧ Place.Sunk t next next' := by
  by_cases stands : sunk.below = 0
  · -- Nothing has happened to this place.
    have same := h.eq_of_below stands
    subst same
    have after := entry?_of_step ok
    have before : t.entry? sunk = some .directory := by
      unfold entry? at after ⊢
      rw [if_pos stands] at after ⊢
      exact pruned.get?_eq after
    refine ⟨next, ?_, .refl t ?_⟩
    · rw [step_eq_of_directory before after]
      exact ok
    · rcases step_cases ok with ⟨rfl, -⟩ | ⟨rfl, -⟩ | ⟨rfl, -⟩
      · exact stands
      · obtain ⟨l, n⟩ := sunk
        change n = 0 at stands
        subst stands
        rfl
      · rfl
  · have before := h.entry? stands
    unfold step
    rw [before]
    rcases step_cases ok with ⟨rfl, hidden⟩ | ⟨rfl, rfl⟩ | ⟨-, stands', -⟩
    · exact ⟨here, if_pos hidden, h⟩
    · refine ⟨here.up, ?_, h.up closed⟩
      rfl
    · exact absurd stands' stands

/-- A whole walk could be made before, too.  The induction is on the segments. -/
theorem walk_of_pruned {segments : List String} {sunk here last : Place}
    (pruned : Pruned t t' tops) (closed : t.Closed) (h : Place.Sunk t sunk here)
    (ok : t'.walk sunk segments = .ok last) :
    ∃ last', t.walk here segments = .ok last' ∧ Place.Sunk t last last' := by
  induction segments generalizing sunk here with
  | nil =>
    cases ok
    exact ⟨here, rfl, h⟩
  | cons segment segments ih =>
    unfold walk at ok
    split at ok
    · cases ok
    · next next stepped =>
      obtain ⟨next', stepped', h'⟩ := step_of_pruned pruned closed h stepped
      unfold walk
      rw [stepped']
      exact ih h' ok

/-- **What is gone stays gone**: what the program sees at a path after the tree was pruned, it would
have seen before. -/
theorem isSome_kind?_of_pruned (pruned : Pruned t t' tops) (closed : t.Closed)
    (standing : t.get? cwd.location = some .directory)
    (there : (t'.kind? (cwd.settle t') p).isSome) : (t.kind? cwd p).isSome := by
  -- The walk sets out from the same place, or from one that has sunk.
  have start : Place.Sunk t (origin (cwd.settle t') p) (origin cwd p) := by
    unfold origin
    split
    · exact .refl t rfl
    · exact .settle standing t'
  unfold kind? resolve at there ⊢
  cases checked : checkPath p with
  | error e =>
    rw [checked] at there
    cases there
  | ok _ =>
    rw [checked] at there
    cases walked : t'.walk (origin (cwd.settle t') p) (segments p) with
    | error e =>
      rw [walked] at there
      cases there
    | ok last =>
      obtain ⟨last', walked', h⟩ := walk_of_pruned pruned closed start walked
      simp only [walked, walked'] at there ⊢
      have seen : (t.entry? last').isSome := by
        -- At the end either the entry itself is the old one, or a removed directory is seen.
        by_cases stands : last.below = 0
        · rw [← h.eq_of_below stands]
          cases entry : t'.entry? last with
          | none =>
            rw [entry] at there
            cases there
          | some e =>
            unfold entry? at entry ⊢
            rw [if_pos stands] at entry ⊢
            rw [pruned.get?_eq entry]
            rfl
        · rw [h.entry? stands]
          rfl
      obtain ⟨e, is⟩ := Option.isSome_iff_exists.1 seen
      rw [is]
      rfl

end FileTree

end BuildVariants
