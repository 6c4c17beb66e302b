import BuildVariants.Proofs.FileTree.Removing
import BuildVariants.Proofs.Path.Joining

/-!
# Spellings of one path

Paths that are the same differ in slashes and dots only, which are not seen when a path is followed:
from a directory they lead nowhere else (`FileTree.walk_visible`).  So another spelling of a path to
a directory leads to that directory as well, unless it is too long for the system
(`FileTree.resolve_of_same`).  A file is not found by every spelling, for nothing may stand behind
its name.
-/

namespace BuildVariants

namespace Path

/-! ## What is seen of a path -/

/-- A segment that is not followed: it is empty, or a dot. -/
def IsSilent (s : String) : Prop :=
  s = "" ∨ s = "."

instance (s : String) : Decidable (IsSilent s) :=
  inferInstanceAs (Decidable (_ ∨ _))

/-- The segments of a path that are followed. -/
def visible (p : Path) : List String :=
  (FileTree.segments p).filter fun s => ¬ IsSilent s

/-- The segment that a component stands for; the head of a path stands for none. -/
def segmentOf : Component → Option String
  | .up => some ".."
  | .name s => some s
  | .root | .here => none

/-- The test of characters and that of the file system agree about what leads nowhere. -/
theorem isHidden_iff (s : List Char) : isHidden s = true ↔ IsSilent (String.ofList s) := by
  unfold isHidden IsSilent
  rw [Bool.or_eq_true, decide_eq_true_iff, decide_eq_true_iff]
  constructor
  · rintro (rfl | rfl)
    · exact .inl rfl
    · exact .inr rfl
  · rintro (empty | dot)
    · have := congrArg String.toList empty
      rw [String.toList_ofList] at this
      exact .inl this
    · have := congrArg String.toList dot
      rw [String.toList_ofList] at this
      exact .inr this

/-- A piece of a path is a component just where it does not stay where it is, and the component has
its text. -/
theorem segmentOf_component? (s : List Char) :
    (component? s).bind segmentOf
      = if IsSilent (String.ofList s) then none else some (String.ofList s) := by
  unfold component?
  by_cases hidden : isHidden s = true
  · rw [if_pos hidden, if_pos ((isHidden_iff s).1 hidden)]
    rfl
  · rw [if_neg hidden, if_neg fun silent => hidden ((isHidden_iff s).2 silent)]
    split
    · next up =>
      rw [up]
      rfl
    · rfl

/-- The names of a path are the pieces that a walk does not pass over. -/
theorem segmentOf_segmentNames (cs : List Char) :
    (segmentNames cs).filterMap segmentOf
      = ((splitSlash cs).map String.ofList).filter fun s => ¬ IsSilent s := by
  unfold segmentNames
  rw [List.filterMap_filterMap]
  simp only [segmentOf_component?]
  induction splitSlash cs with
  | nil => rfl
  | cons s ss ih =>
    rw [List.filterMap_cons, List.map_cons, List.filter_cons, ih]
    by_cases silent : IsSilent (String.ofList s)
    · simp [silent]
    · simp [silent]

/-- The components of a path say which of its segments are followed. -/
theorem visible_eq (p : Path) : p.visible = p.components.filterMap segmentOf := by
  have names : p.visible = (segmentNames p.text.toList).filterMap segmentOf :=
    (segmentOf_segmentNames p.text.toList).symm
  rw [names]
  cases absolute : p.isAbsolute with
  | true =>
    have slash : p.text.toList.head? = some '/' := of_decide_eq_true absolute
    obtain ⟨rest, is⟩ : ∃ rest, p.text.toList = '/' :: rest := List.head?_eq_some_iff.1 slash
    rw [components_eq, is]
    have behind : segmentNames ('/' :: rest) = segmentNames rest :=
      segmentNames_append_slash [] rest
    rw [behind]
    rfl
  | false =>
    rw [← names_of_relative absolute]
    unfold Path.names
    rw [List.filterMap_filter]
    congr 1
    funext c
    cases c <;> rfl

/-- Two spellings of a path are walked in the same way. -/
theorem visible_eq_of_same {p q : Path} (h : p.Same q) : p.visible = q.visible := by
  rw [visible_eq, visible_eq, h]

theorem root_notMem_segmentNames (cs : List Char) : .root ∉ segmentNames cs := by
  intro mem
  obtain ⟨segment, -, is⟩ := List.mem_filterMap.1 mem
  unfold component? at is
  split at is
  · cases is
  · split at is <;> cases is

/-- A path is absolute if the root is one of its components. -/
theorem isAbsolute_iff (p : Path) : p.isAbsolute = true ↔ .root ∈ p.components := by
  rw [components_eq, List.mem_append]
  constructor
  · intro absolute
    have slash : p.text.toList.head? = some '/' := of_decide_eq_true absolute
    obtain ⟨rest, is⟩ : ∃ rest, p.text.toList = '/' :: rest := List.head?_eq_some_iff.1 slash
    rw [is]
    exact .inl List.mem_cons_self
  · rintro (head | body)
    · refine decide_eq_true ?_
      by_contra relative
      unfold headComponents at head
      rcases headChars_cases relative with none | dot | ⟨rest, dot⟩
      · rw [none] at head
        cases head
      · rw [dot] at head
        exact absurd head (by decide)
      · rw [dot] at head
        exact absurd (List.mem_singleton.1 head) nofun
    · exact absurd body (root_notMem_segmentNames _)

theorem isAbsolute_eq_of_same {p q : Path} (h : p.Same q) : p.isAbsolute = q.isAbsolute := by
  rw [Bool.eq_iff_iff, isAbsolute_iff, isAbsolute_iff, h]

/-- A first segment that is empty ends at once, or at a slash. -/
theorem cases_of_splitSlash {cs : List Char} {ss : List (List Char)}
    (h : splitSlash cs = [] :: ss) : cs = [] ∨ ∃ rest, cs = '/' :: rest := by
  cases cs with
  | nil => exact .inl rfl
  | cons c cs =>
    rw [splitSlash] at h
    split at h
    · next slash => exact .inr ⟨cs, by rw [slash]⟩
    · split at h <;> cases h

theorem exists_component?_of_not_isHidden {s : List Char} (visible : isHidden s = false) :
    ∃ c, component? s = some c := by
  unfold component?
  rw [visible, if_neg Bool.false_ne_true]
  split <;> exact ⟨_, rfl⟩

/-- Only the empty path has no components. -/
theorem components_ne_nil {p : Path} (h : p.text ≠ "") : p.components ≠ [] := by
  have present : p.text.toList ≠ [] := fun empty => h (String.toList_eq_nil_iff.1 empty)
  obtain ⟨c, cs, is⟩ := List.exists_cons_of_ne_nil present
  rw [components_eq, is]
  unfold headComponents
  cases head : headChars (c :: cs) with
  | cons d ds =>
    refine List.append_ne_nil_of_left_ne_nil ?_ _
    show (if d = '/' then [Component.root] else [.here]) ≠ []
    split <;> exact List.cons_ne_nil _ _
  | nil =>
    -- The first segment has a character, and is more than a dot.
    have noSlash : c ≠ '/' := by
      rintro rfl
      cases head
    obtain ⟨s, ss, split⟩ := List.exists_cons_of_ne_nil (splitSlash_ne_nil cs)
    have first : splitSlash (c :: cs) = (c :: s) :: ss := by
      rw [splitSlash, if_neg noSlash, split]
    have shown : isHidden (c :: s) = false := by
      rw [Bool.eq_false_iff]
      intro hidden
      rcases (isHidden_iff _).1 hidden with empty | dot
      · have := congrArg String.toList empty
        rw [String.toList_ofList] at this
        cases this
      · have := congrArg String.toList dot
        rw [String.toList_ofList] at this
        cases this
        rcases cases_of_splitSlash split with rfl | ⟨rest, rfl⟩
        · cases head
        · cases head
    obtain ⟨x, named⟩ := exists_component?_of_not_isHidden shown
    show segmentNames (c :: cs) ≠ []
    unfold segmentNames
    rw [first, List.filterMap_cons_some named]
    exact List.cons_ne_nil _ _

/-- A text has at least one byte for each of its characters. -/
theorem length_le_utf8ByteSize (cs : List Char) : cs.length ≤ (String.ofList cs).utf8ByteSize := by
  induction cs with
  | nil => exact Nat.zero_le _
  | cons c cs ih =>
    have positive := c.utf8Size_pos
    rw [String.ofList_cons, String.utf8ByteSize_append, String.utf8ByteSize_singleton,
      List.length_cons]
    omega

/-- Splitting a text loses nothing but slashes. -/
theorem mem_iff_of_splitSlash {c : Char} (noSlash : c ≠ '/') (cs : List Char) :
    c ∈ cs ↔ ∃ s ∈ splitSlash cs, c ∈ s := by
  induction cs with
  | nil => simp [splitSlash]
  | cons d cs ih =>
    obtain ⟨s, ss, split⟩ := List.exists_cons_of_ne_nil (splitSlash_ne_nil cs)
    rw [split] at ih
    rw [List.mem_cons, ih, splitSlash]
    by_cases slash : d = '/'
    · rw [if_pos slash, split]
      simp [slash, noSlash]
    · rw [if_neg slash, split]
      simp [or_assoc]

/-- What is seen of a path has all its characters but slashes and dots. -/
theorem mem_text_iff {c : Char} (noSlash : c ≠ '/') (noDot : c ≠ '.') (p : Path) :
    c ∈ p.text.toList ↔ ∃ s ∈ p.visible, c ∈ s.toList := by
  rw [mem_iff_of_splitSlash noSlash]
  unfold visible FileTree.segments
  constructor
  · rintro ⟨s, hs, hc⟩
    refine ⟨String.ofList s, List.mem_filter.2 ⟨List.mem_map_of_mem hs, ?_⟩, ?_⟩
    · refine decide_eq_true ?_
      intro silent
      rw [← isHidden_iff, isHidden, Bool.or_eq_true] at silent
      rcases silent with empty | dot
      · rw [of_decide_eq_true empty] at hc
        cases hc
      · rw [of_decide_eq_true dot, List.mem_singleton] at hc
        exact noDot hc
    · rw [String.toList_ofList]
      exact hc
  · rintro ⟨s, hs, hc⟩
    obtain ⟨segment, mem, rfl⟩ := List.mem_map.1 (List.mem_filter.1 hs).1
    rw [String.toList_ofList] at hc
    exact ⟨segment, mem, hc⟩

end Path

namespace FileTree

variable {t : FileTree} {cwd : Place} {p q : Path}

/-! ## Following a path by what is seen of it -/

/-- A segment that is not followed does not lead away. -/
theorem eq_of_step_of_silent {s : String} {here next : Place} (silent : Path.IsSilent s)
    (ok : t.step here s = .ok next) : next = here := by
  rcases step_cases ok with ⟨same, -⟩ | ⟨-, rfl⟩ | ⟨-, -, nonempty, noDot, -⟩
  · exact same
  · exact absurd silent (by decide)
  · exact absurd silent (not_or.2 ⟨nonempty, noDot⟩)

/-- What is not seen may be left out. -/
theorem walk_visible {segments : List String} {here last : Place}
    (ok : t.walk here segments = .ok last) :
    t.walk here (segments.filter fun s => ¬ Path.IsSilent s) = .ok last := by
  induction segments generalizing here with
  | nil => exact ok
  | cons s ss ih =>
    rw [walk] at ok
    split at ok
    · cases ok
    · next next stepped =>
      by_cases silent : Path.IsSilent s
      · rw [eq_of_step_of_silent silent stepped] at ok
        rw [List.filter_cons_of_neg (by simpa using silent)]
        exact ih ok
      · rw [List.filter_cons_of_pos (by simpa using silent), walk, stepped]
        exact ih ok

/-- Where a walk that ends in a directory begins, there is a directory. -/
theorem directory_of_walk {segments : List String} {here last : Place}
    (ok : t.walk here segments = .ok last) (directory : t.entry? last = some .directory) :
    t.entry? here = some .directory := by
  cases segments with
  | nil =>
    cases ok
    exact directory
  | cons s ss =>
    rw [walk] at ok
    split at ok
    · cases ok
    · next next stepped => exact entry?_of_step stepped

/-- On the way to a directory, what is not seen changes nothing. -/
theorem walk_of_visible {segments : List String} {here last : Place}
    (ok : t.walk here (segments.filter fun s => ¬ Path.IsSilent s) = .ok last)
    (directory : t.entry? last = some .directory) : t.walk here segments = .ok last := by
  induction segments generalizing here with
  | nil => exact ok
  | cons s ss ih =>
    by_cases silent : Path.IsSilent s
    · -- The rest of the way begins here, so this is a directory, and the step is allowed.
      rw [List.filter_cons_of_neg (by simpa using silent)] at ok
      have stays : t.step here s = .ok here := by
        unfold step
        rw [directory_of_walk ok directory]
        exact if_pos silent
      rw [walk, stays]
      exact ih ok
    · rw [List.filter_cons_of_pos (by simpa using silent), walk] at ok
      rw [walk]
      split at ok
      · cases ok
      · exact ih ok

/-- The system takes every spelling of a path that it takes in one, unless it is too long. -/
theorem checkPath_of_same (same : p.Same q) (ok : checkPath p = .ok ())
    (short : q.text.utf8ByteSize < maxPathBytes) : checkPath q = .ok () := by
  unfold checkPath at ok ⊢
  split at ok
  · cases ok
  · next clean =>
    split at ok
    · cases ok
    · next present =>
      -- A NUL stands in a segment that is followed, so every spelling has it.
      have clean' : q.text.toList.contains '\x00' = false := by
        rw [Bool.eq_false_iff]
        intro nul
        rw [List.contains_iff_mem, Path.mem_text_iff (by decide) (by decide),
          ← Path.visible_eq_of_same same, ← Path.mem_text_iff (by decide) (by decide)] at nul
        exact clean (List.contains_iff_mem.2 nul)
      have present' : q.text ≠ "" := by
        intro empty
        have none : q.components = [] := Path.components_of_text_eq_empty empty
        rw [← same] at none
        exact Path.components_ne_nil present none
      rw [clean', if_neg Bool.false_ne_true, if_neg present', if_neg (Nat.not_le.2 short)]

/-- **Another spelling leads to the same directory**, unless it is too long. -/
theorem resolve_of_same {place : Place} (same : p.Same q)
    (found : t.resolve cwd p = .ok (place, .directory))
    (short : q.text.utf8ByteSize < maxPathBytes) :
    t.resolve cwd q = .ok (place, .directory) := by
  have checked : checkPath p = .ok () := by
    unfold resolve at found
    split at found
    · cases found
    · next ok => exact ok
  obtain ⟨walked, there⟩ := walk_of_resolve found
  have start : origin cwd q = origin cwd p := by
    unfold origin
    rw [Path.isAbsolute_eq_of_same same]
  have seen : t.walk (origin cwd q) q.visible = .ok place := by
    rw [start, ← Path.visible_eq_of_same same]
    exact walk_visible walked
  unfold resolve
  rw [checkPath_of_same same checked short, walk_of_visible seen there]
  simp only [there]

/-- Nothing is seen at a path that is too long. -/
theorem kind?_of_long (long : maxPathBytes ≤ p.text.toList.length) : t.kind? cwd p = none := by
  have bytes := Path.length_le_utf8ByteSize p.text.toList
  rw [String.ofList_toList] at bytes
  have refused : ∃ e, checkPath p = .error e := by
    unfold checkPath
    split
    · exact ⟨_, rfl⟩
    · split
      · exact ⟨_, rfl⟩
      · rw [if_pos (long.trans bytes)]
        exact ⟨_, rfl⟩
  obtain ⟨e, is⟩ := refused
  unfold kind? resolve
  rw [is]

end FileTree

end BuildVariants
