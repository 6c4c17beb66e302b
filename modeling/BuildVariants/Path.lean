/-!
# Paths

A path is kept as the text it was given, because that text is what gets printed.  Its meaning is
the list of its `components`: repeated slashes, a trailing slash and `.` components do not count,
except that a leading `.` does, and `..` is never resolved.  `Path.Same` compares by components.

`parent?` cuts the text behind the second to last component, so a parent is a piece of the path
it came from; `length_parent?_lt` says that it is a shorter one, which is why the list of
`ancestors` is finite.
-/

namespace BuildVariants

/-- A path, by its text. -/
structure Path where
  /-- The text of the path, as written. -/
  text : String
  deriving DecidableEq, Repr, Inhabited

/-- One component of a path. -/
inductive Component
  /-- The leading `/`. -/
  | root
  /-- A leading `.`. -/
  | here
  /-- A `..`. -/
  | up
  /-- A plain name. -/
  | name (text : String)
  deriving DecidableEq, Repr

namespace Path

/-! ## Segments: the text between slashes -/

/-- The pieces of a text between slashes; there is always at least one. -/
def splitSlash : List Char → List (List Char)
  | [] => [[]]
  | c :: cs =>
    if c = '/' then [] :: splitSlash cs
    else match splitSlash cs with
      | [] => [[c]]
      | s :: ss => (c :: s) :: ss

/-- Pieces put back together with slashes between them. -/
def joinSlash : List (List Char) → List Char
  | [] => []
  | [s] => s
  | s :: t :: ss => s ++ '/' :: joinSlash (t :: ss)

theorem splitSlash_ne_nil (cs : List Char) : splitSlash cs ≠ [] := by
  cases cs with
  | nil => simp [splitSlash]
  | cons c cs =>
    rw [splitSlash]
    split
    · simp
    · split <;> simp

@[simp] theorem joinSlash_splitSlash (cs : List Char) : joinSlash (splitSlash cs) = cs := by
  induction cs with
  | nil => rfl
  | cons c cs ih =>
    rw [splitSlash]
    split
    · next h =>
      obtain ⟨s, ss, hs⟩ := List.exists_cons_of_ne_nil (splitSlash_ne_nil cs)
      rw [hs] at ih ⊢
      simp [joinSlash, ih, h]
    · split
      · next h => exact absurd h (splitSlash_ne_nil cs)
      · next s ss hs =>
        rw [hs] at ih
        cases ss <;> simp_all [joinSlash]

/-- Putting pieces together loses none of their characters. -/
theorem length_joinSlash_append (xs ys : List (List Char)) :
    (joinSlash xs).length + ys.flatten.length ≤ (joinSlash (xs ++ ys)).length := by
  induction xs with
  | nil =>
    induction ys with
    | nil => simp
    | cons y ys ih =>
      cases ys with
      | nil => simp [joinSlash]
      | cons z zs => simp [joinSlash] at ih ⊢; omega
  | cons x xs ih =>
    cases xs with
    | nil =>
      cases ys with
      | nil => simp [joinSlash]
      | cons y ys => simp [joinSlash] at ih ⊢; omega
    | cons z zs => simp [joinSlash] at ih ⊢; omega

/-- Whether a segment is skipped when a path is read: empty, or a single dot. -/
def isHidden (s : List Char) : Bool :=
  s = [] || s = ['.']

/-- The component a segment stands for. -/
def component? (s : List Char) : Option Component :=
  if isHidden s then none
  else if s = ['.', '.'] then some .up
  else some (.name (String.ofList s))

/-! ## Components and equality -/

/-- The part of a path's text in front of its segments: the root's slash, a leading dot that
counts, or nothing. -/
def headChars : List Char → List Char
  | '/' :: _ => ['/']
  | ['.'] => ['.']
  | '.' :: '/' :: _ => ['.']
  | _ => []

/-- What the head of a path's text stands for. -/
def headComponents (cs : List Char) : List Component :=
  match headChars cs with
  | [] => []
  | c :: _ => if c = '/' then [.root] else [.here]

/-- The segments of a path behind its head. -/
def bodySegments (cs : List Char) : List (List Char) :=
  splitSlash (cs.drop (headChars cs).length)

/-- The components of a path. -/
def components (p : Path) : List Component :=
  headComponents p.text.toList ++ (bodySegments p.text.toList).filterMap component?

/-- Two paths are the same when they have the same components. -/
def Same (p q : Path) : Prop :=
  p.components = q.components

instance (p q : Path) : Decidable (p.Same q) :=
  inferInstanceAs (Decidable (p.components = q.components))

theorem Same.refl (p : Path) : p.Same p := rfl

theorem Same.symm {p q : Path} (h : p.Same q) : q.Same p := Eq.symm h

/-- Whether a path starts at the root. -/
def isAbsolute (p : Path) : Bool :=
  p.text.toList.head? = some '/'

/-! ## Joining -/

/-- The text of `b` seen from `a`: an absolute `b` stands alone, otherwise one slash is put
between the two unless `a` is empty or already ends in one. -/
def joinChars (a b : List Char) : List Char :=
  if b.head? = some '/' then b
  else if a = [] ∨ a.getLast? = some '/' then a ++ b
  else a ++ '/' :: b

/-- The path `q` seen from `p`. -/
def join (p q : Path) : Path :=
  ⟨String.ofList (joinChars p.text.toList q.text.toList)⟩

/-- A plain name below a path. -/
def child (p : Path) (name : String) : Path :=
  p.join ⟨name⟩

/-! ## Parents and ancestors -/

/-- The text of the path above: the last component is dropped, and with it every skipped segment
on its left.  `none` for the root and for the empty path. -/
def parentChars? (cs : List Char) : Option (List Char) :=
  match (bodySegments cs).reverse.dropWhile isHidden with
  | _ :: above => some (headChars cs ++ joinSlash (above.dropWhile isHidden).reverse)
  | [] => if headChars cs = ['.'] then some [] else none

theorem length_headChars_add (cs : List Char) :
    (headChars cs).length + (joinSlash (bodySegments cs)).length = cs.length := by
  have h : (headChars cs).length ≤ cs.length := by
    rw [headChars.eq_def]
    split <;> simp
  simp [bodySegments]
  omega

/-- Dropping from the end, said of the list itself: what is left, then what went. -/
theorem exists_append_of_dropWhile_reverse {α : Type} (p : α → Bool) (xs : List α) :
    ∃ gone, xs = (xs.reverse.dropWhile p).reverse ++ gone := by
  refine ⟨(xs.reverse.takeWhile p).reverse, ?_⟩
  rw [← List.reverse_append, List.takeWhile_append_dropWhile, List.reverse_reverse]

/-- A parent's text is shorter. -/
theorem length_parentChars?_lt {cs ds : List Char} (h : parentChars? cs = some ds) :
    ds.length < cs.length := by
  have total := length_headChars_add cs
  obtain ⟨gone, split⟩ := exists_append_of_dropWhile_reverse isHidden (bodySegments cs)
  rw [parentChars?] at h
  match rest : (bodySegments cs).reverse.dropWhile isHidden with
  | [] =>
    simp only [rest] at h
    split at h
    · next head =>
      cases h
      rw [head] at total
      simp at total ⊢
      omega
    · cases h
  | s :: above =>
    simp only [rest] at h
    cases h
    have visible : isHidden s = false := by
      have := List.head?_dropWhile_not isHidden (bodySegments cs).reverse
      simpa [rest] using this
    have positive : 0 < s.length := by
      rcases s with _ | ⟨c, s⟩
      · simp [isHidden] at visible
      · simp
    obtain ⟨gone', split'⟩ := exists_append_of_dropWhile_reverse isHidden above.reverse
    rw [List.reverse_reverse] at split'
    rw [rest, List.reverse_cons, split'] at split
    have bound := length_joinSlash_append (above.dropWhile isHidden).reverse (gone' ++ [s] ++ gone)
    rw [← List.append_assoc, ← List.append_assoc, ← split] at bound
    simp at bound ⊢
    omega

/-- The path above. -/
def parent? (p : Path) : Option Path :=
  (parentChars? p.text.toList).map fun cs => ⟨String.ofList cs⟩

/-- A parent is shorter. -/
theorem length_parent?_lt {p q : Path} (h : p.parent? = some q) :
    q.text.toList.length < p.text.toList.length := by
  simp only [parent?, Option.map_eq_some_iff] at h
  obtain ⟨cs, hcs, rfl⟩ := h
  simpa using length_parentChars?_lt hcs

/-- The path itself, the path above it, and so on upwards. -/
def ancestors (p : Path) : List Path :=
  match _h : p.parent? with
  | none => [p]
  | some q => p :: ancestors q
termination_by p.text.toList.length
decreasing_by exact length_parent?_lt _h

theorem ancestors_of_parent?_eq_none {p : Path} (h : p.parent? = none) : p.ancestors = [p] := by
  rw [ancestors]
  split
  · rfl
  · next q hq => simp [h] at hq

theorem ancestors_of_parent?_eq_some {p q : Path} (h : p.parent? = some q) :
    p.ancestors = p :: q.ancestors := by
  rw [ancestors]
  split
  · next hq => simp [h] at hq
  · next r hr =>
    rw [h] at hr
    cases hr
    rfl

end Path

end BuildVariants
