import BuildVariants.FileTree
import BuildVariants.Proofs.Path.Joining

/-!
# Where a path leads

There are no links in a file tree, so a path that leads anywhere leads to a location that can be
told from its text alone: `Path.locationFrom` follows the segments without looking at the tree.
This also holds for a process whose directory has been removed.  Its `Place` is then the nearest
directory above that still stands, with the number of levels below it, and `Place.StoodAt` keeps the
location where the process was; going up from a removed directory, or looking for a name in it,
never ends at a location that stands and is another one.
-/

namespace BuildVariants

/-! ## Locations by text -/

/-- One segment of a path, followed by its text. -/
def Location.enter (l : Location) (segment : String) : Location :=
  if segment = "" ∨ segment = "." then l
  else if segment = ".." then l.dropLast
  else l ++ [segment]

/-- Where a path leads from a location, by its text. -/
def Path.locationFrom (p : Path) (here : Location) : Location :=
  (FileTree.segments p).foldl Location.enter (if p.isAbsolute then [] else here)

/-- A joined path leads where the second leads from where the first leads. -/
theorem Path.locationFrom_join (p q : Path) (here : Location) :
    (p.join q).locationFrom here = q.locationFrom (p.locationFrom here) := by
  unfold locationFrom FileTree.segments
  rw [isAbsolute_join]
  by_cases hq : q.text.toList.head? = some '/'
  · simp [join, joinChars, isAbsolute, hq]
  · have relative : q.isAbsolute = false := by simp [isAbsolute, hq]
    rw [relative, Bool.or_false]
    rcases joinChars_cases p.text.toList hq with ⟨empty, joined⟩ | ⟨a, split, joined⟩ |
      ⟨-, joined⟩
    · rw [join, String.toList_ofList, joined, empty]
      rfl
    · have ends : splitSlash p.text.toList = splitSlash a ++ [[]] := by
        rw [split, splitSlash_append_slash]
        rfl
      simp only [join, joined, String.toList_ofList, splitSlash_append_slash, ends, List.map_append,
        List.foldl_append]
      rfl
    · simp only [join, joined, String.toList_ofList, splitSlash_append_slash, List.map_append,
        List.foldl_append]
      rfl

/-! ## Places -/

/-- The place is at a location, or was there before its directory was removed. -/
structure Place.StoodAt (p : Place) (l : Location) : Prop where
  /-- What still stands is above it. -/
  above : p.location <+: l
  /-- What has been removed is as deep as it was. -/
  depth : p.location.length + p.below = l.length

namespace Place.StoodAt

theorem of_location (l : Location) : Place.StoodAt ⟨l, 0⟩ l :=
  ⟨List.prefix_rfl, rfl⟩

theorem location_eq {p : Place} {l : Location} (h : p.StoodAt l) (stands : p.below = 0) :
    p.location = l := by
  refine h.above.eq_of_length ?_
  have := h.depth
  omega

/-- Going up keeps step with the text, inside a removed directory as well. -/
theorem up {p : Place} {l : Location} (h : p.StoodAt l) : p.up.StoodAt l.dropLast := by
  obtain ⟨location, below⟩ := p
  cases below with
  | zero =>
    have same : location = l := h.location_eq rfl
    rw [same]
    exact of_location l.dropLast
  | succ n =>
    -- Going up inside a removed directory, what stands above it stays the same.
    have depth : location.length + (n + 1) = l.length := h.depth
    refine ⟨?_, ?_⟩
    · refine List.prefix_of_prefix_length_le h.above (List.dropLast_prefix l) ?_
      show location.length ≤ _
      rw [List.length_dropLast]
      omega
    · show location.length + n = l.dropLast.length
      rw [List.length_dropLast]
      omega

/-- The induction is on the names that may have been removed, from the inside out. -/
theorem among (t : FileTree) (names : List String) (below : Nat) :
    (Place.among t names below).location <+: names.reverse ∧
      (Place.among t names below).location.length + (Place.among t names below).below
        = names.length + below := by
  induction names generalizing below with
  | nil => exact ⟨List.prefix_rfl, rfl⟩
  | cons name names ih =>
    unfold Place.among
    split
    · refine ⟨List.prefix_rfl, ?_⟩
      rw [List.length_reverse]
    · obtain ⟨pre, depth⟩ := ih (below + 1)
      refine ⟨?_, ?_⟩
      · rw [List.reverse_cons]
        exact pre.trans (List.prefix_append _ _)
      · rw [depth, List.length_cons]
        omega

/-- A process stays where it was while the tree changes around it. -/
theorem settle {p : Place} {l : Location} (h : p.StoodAt l) (t : FileTree) :
    (p.settle t).StoodAt l := by
  obtain ⟨pre, depth⟩ := among t p.location.reverse p.below
  rw [List.reverse_reverse] at pre
  refine ⟨pre.trans h.above, ?_⟩
  rw [Place.settle, depth, List.length_reverse]
  exact h.depth

end Place.StoodAt

namespace FileTree

variable {t : FileTree}

/-- Where one step leads can be told from the name of the segment alone, if the step succeeds. -/
theorem step_stoodAt {p q : Place} {l : Location} {segment : String} (h : p.StoodAt l)
    (ok : t.step p segment = .ok q) : q.StoodAt (l.enter segment) := by
  unfold step at ok
  unfold Location.enter
  split at ok
  · cases ok
  · cases ok
  · split at ok
    · next hidden =>
      cases ok
      rw [if_pos hidden]
      exact h
    · next shown =>
      rw [if_neg shown]
      split at ok
      · next isUp =>
        cases ok
        rw [if_pos isUp]
        exact h.up
      · next name =>
        rw [if_neg name]
        split at ok
        · cases ok
        · next stands =>
          -- A name can only be entered where the place still stands.
          split at ok
          · cases ok
          · cases ok
            rw [h.location_eq (Nat.eq_zero_of_not_pos stands)]
            exact .of_location (l ++ [segment])

/-- Wherever a walk ends, it has followed the text. -/
theorem walk_stoodAt {segments : List String} {p q : Place} {l : Location} (h : p.StoodAt l)
    (ok : t.walk p segments = .ok q) : q.StoodAt (segments.foldl Location.enter l) := by
  induction segments generalizing p l with
  | nil =>
    cases ok
    exact h
  | cons segment segments ih =>
    unfold walk at ok
    split at ok
    · cases ok
    · next next stepped => exact ih (step_stoodAt h stepped) ok

/-- A walk sets out from the root or from the directory of the process. -/
theorem origin_stoodAt {cwd : Place} {here : Location} (h : cwd.StoodAt here) (p : Path) :
    (origin cwd p).StoodAt (if p.isAbsolute then [] else here) := by
  unfold origin
  split
  · exact .of_location []
  · exact h

/-- A walk that succeeds leads where the text of the path says. -/
theorem walk_locationFrom {cwd q : Place} {here : Location} {p : Path} (h : cwd.StoodAt here)
    (ok : t.walk (origin cwd p) (segments p) = .ok q) : q.StoodAt (p.locationFrom here) :=
  walk_stoodAt (origin_stoodAt h p) ok

/-- **A file is found where the text of its path says.** -/
theorem location_of_resolve_file {cwd q : Place} {here : Location} {p : Path}
    {contents : ByteArray} {executable : Bool} (h : cwd.StoodAt here)
    (found : t.resolve cwd p = .ok (q, .file contents executable)) :
    q.location = p.locationFrom here ∧
      t.get? (p.locationFrom here) = some (.file contents executable) := by
  unfold resolve at found
  split at found
  · cases found
  · split at found
    · cases found
    · next place walked =>
      split at found
      · cases found
      · next entry there =>
        cases found
        unfold entry? at there
        split at there
        · next stands =>
          have led := (walk_locationFrom h walked).location_eq stands
          refine ⟨led, ?_⟩
          rw [← led]
          exact there
        · cases there

end FileTree

end BuildVariants
