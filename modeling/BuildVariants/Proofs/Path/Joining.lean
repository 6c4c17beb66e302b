import BuildVariants.Path

/-!
# Joined paths

A join puts one slash between two texts, so the segments of the result are those of the first path
and then those of the second, except that an empty last segment of the first may be left out.  Seen
as components, a relative path adds its `names`: everything but a leading dot.
-/

namespace BuildVariants

namespace Path

/-- A slash separates. -/
theorem splitSlash_append_slash (a b : List Char) :
    splitSlash (a ++ '/' :: b) = splitSlash a ++ splitSlash b := by
  induction a with
  | nil =>
    show splitSlash ('/' :: b) = [] :: splitSlash b
    rw [splitSlash]
    exact if_pos rfl
  | cons c cs ih =>
    rw [List.cons_append, splitSlash, splitSlash]
    by_cases h : c = '/'
    · rw [if_pos h, if_pos h, ih]
      rfl
    · rw [if_neg h, if_neg h, ih]
      obtain ⟨s, ss, hs⟩ := List.exists_cons_of_ne_nil (splitSlash_ne_nil cs)
      rw [hs]
      rfl

/-- The ways in which a relative path is joined: to nothing, behind a slash, or with a new slash. -/
theorem joinChars_cases (a : List Char) {b : List Char} (hb : b.head? ≠ some '/') :
    (a = [] ∧ joinChars a b = b) ∨
    (∃ a', a = a' ++ ['/'] ∧ joinChars a b = a' ++ '/' :: b) ∨
    (a ≠ [] ∧ joinChars a b = a ++ '/' :: b) := by
  unfold joinChars
  rw [if_neg hb]
  by_cases empty : a = []
  · left
    rw [if_pos (.inl empty), empty]
    exact ⟨rfl, rfl⟩
  · by_cases slash : a.getLast? = some '/'
    · right
      left
      obtain ⟨a', rfl⟩ := List.getLast?_eq_some_iff.1 slash
      rw [if_pos (.inr slash)]
      exact ⟨a', rfl, List.append_assoc a' ['/'] b⟩
    · right
      right
      rw [if_neg (not_or.2 ⟨empty, slash⟩)]
      exact ⟨empty, rfl⟩

/-- A joined path is absolute if one of its parts is; where the second one is, the first one is
dropped. -/
theorem isAbsolute_join (p q : Path) :
    (p.join q).isAbsolute = (p.isAbsolute || q.isAbsolute) := by
  by_cases hq : q.text.toList.head? = some '/'
  · simp [isAbsolute, join, joinChars, hq]
  · unfold isAbsolute join
    rw [String.toList_ofList]
    rcases joinChars_cases p.text.toList hq with ⟨empty, joined⟩ | ⟨a, split, joined⟩ |
      ⟨nonempty, joined⟩
    · rw [joined, empty]
      rfl
    · rw [joined, split]
      cases a <;> simp [hq]
    · obtain ⟨c, cs, hc⟩ := List.exists_cons_of_ne_nil nonempty
      rw [joined, hc]
      simp [hq]

/-- What is joined to a path ends the result. -/
theorem suffix_join (p q : Path) : q.text.toList <:+ (p.join q).text.toList := by
  unfold join
  rw [String.toList_ofList]
  unfold joinChars
  split
  · exact List.suffix_rfl
  · split
    · exact List.suffix_append _ _
    · exact (List.suffix_cons '/' _).trans (List.suffix_append _ _)

/-! ## Components -/

/-- The components that a relative path adds to the path it is seen from. -/
def names (p : Path) : List Component :=
  p.components.filter (· ≠ .here)

/-- The components of some segments, wherever they stand behind the head of a path. -/
def segmentNames (cs : List Char) : List Component :=
  (splitSlash cs).filterMap component?

/-- The names of a path are those in front of a slash and those behind it. -/
theorem segmentNames_append_slash (a b : List Char) :
    segmentNames (a ++ '/' :: b) = segmentNames a ++ segmentNames b := by
  unfold segmentNames
  rw [splitSlash_append_slash, List.filterMap_append]

/-- A dot is no name, so none is among them; a path has it as its first component at most. -/
theorem here_notMem_segmentNames (cs : List Char) : .here ∉ segmentNames cs := by
  intro mem
  obtain ⟨segment, -, is⟩ := List.mem_filterMap.1 mem
  unfold component? at is
  split at is
  · cases is
  · split at is <;> cases is

/-- The components of a path are its head, if it has one, and the names of the rest. -/
theorem components_eq (p : Path) :
    p.components = headComponents p.text.toList
      ++ segmentNames (p.text.toList.drop (headChars p.text.toList).length) := rfl

theorem filter_segmentNames (cs : List Char) :
    (segmentNames cs).filter (· ≠ Component.here) = segmentNames cs := by
  rw [List.filter_eq_self]
  intro c mem
  have : c ≠ .here := fun is => here_notMem_segmentNames cs (is ▸ mem)
  exact decide_eq_true this

/-- The head of a relative path is a dot, or nothing. -/
theorem headChars_cases {cs : List Char} (h : cs.head? ≠ some '/') :
    headChars cs = [] ∨ cs = ['.'] ∨ ∃ rest, cs = '.' :: '/' :: rest := by
  rw [headChars.eq_def]
  split
  · exact absurd rfl h
  · exact .inr (.inl rfl)
  · exact .inr (.inr ⟨_, rfl⟩)
  · exact .inl rfl

/-- A leading dot is no name, and the slash behind it separates nothing. -/
theorem names_of_relative {p : Path} (h : p.isAbsolute = false) :
    p.names = segmentNames p.text.toList := by
  have relative : p.text.toList.head? ≠ some '/' := of_decide_eq_false h
  unfold names
  rw [components_eq, List.filter_append, filter_segmentNames]
  -- Without a head all segments count; a dot is dropped as a component, and as a segment.
  rcases headChars_cases relative with none | dot | ⟨rest, dot⟩
  · unfold headComponents
    rw [none]
    rfl
  · rw [dot]
    rfl
  · rw [dot]
    have split : segmentNames ('.' :: '/' :: rest) = segmentNames rest :=
      segmentNames_append_slash ['.'] rest
    have behind : segmentNames ('/' :: rest) = segmentNames rest :=
      segmentNames_append_slash [] rest
    rw [split]
    exact behind

/-- The head of a path is found in front of the first slash, and does not depend on what follows. -/
theorem headChars_append_slash {a : List Char} (b : List Char) (nonempty : a ≠ []) :
    headChars (a ++ '/' :: b) = headChars a := by
  cases a with
  | nil => exact absurd rfl nonempty
  | cons c cs =>
    by_cases root : c = '/'
    · rw [root]
      rfl
    · by_cases dot : c = '.'
      · subst dot
        cases cs with
        | nil => rfl
        | cons d ds =>
          by_cases slash : d = '/'
          · rw [slash]
            rfl
          · simp [headChars, slash]
      · simp [headChars, root, dot]

theorem prefix_headChars (cs : List Char) : headChars cs <+: cs := by
  unfold headChars
  split <;> simp

/-- A text behind a slash adds the names of its segments. -/
theorem components_append_slash {a : List Char} (b : List Char) (nonempty : a ≠ []) :
    (Path.mk (String.ofList (a ++ '/' :: b))).components
      = (Path.mk (String.ofList a)).components ++ segmentNames b := by
  rw [components_eq, components_eq, String.toList_ofList, String.toList_ofList]
  unfold headComponents
  rw [headChars_append_slash b nonempty, List.append_assoc]
  have dropped : (a ++ '/' :: b).drop (headChars a).length
      = a.drop (headChars a).length ++ '/' :: b := by
    refine List.drop_append_of_le_length ?_
    exact (prefix_headChars a).length_le
  rw [dropped, segmentNames_append_slash]

/-- **A relative path adds its names.** -/
theorem components_join {p q : Path} (nonempty : p.text ≠ "") (relative : q.isAbsolute = false) :
    (p.join q).components = p.components ++ q.names := by
  have hq : q.text.toList.head? ≠ some '/' := of_decide_eq_false relative
  have here : p = ⟨String.ofList p.text.toList⟩ := by rw [String.ofList_toList]
  have present : p.text.toList ≠ [] := fun empty => nonempty (String.toList_eq_nil_iff.1 empty)
  rw [names_of_relative relative]
  unfold join
  rcases joinChars_cases p.text.toList hq with ⟨empty, -⟩ | ⟨a, split, joined⟩ | ⟨-, joined⟩
  · exact absurd empty present
  · rw [joined]
    by_cases root : a = []
    · rw [root] at split ⊢
      rw [here, split]
      rw [components_eq, components_eq, String.toList_ofList, String.toList_ofList]
      rfl
    · rw [components_append_slash _ root, here, split, components_append_slash _ root,
        List.append_assoc]
      rfl
  · rw [joined, components_append_slash _ present, ← here]

/-- An absolute path is taken as it is. -/
theorem join_of_isAbsolute {p q : Path} (h : q.isAbsolute = true) : p.join q = q := by
  have hq : q.text.toList.head? = some '/' := of_decide_eq_true h
  unfold join joinChars
  rw [if_pos hq, String.ofList_toList]

theorem text_ne_empty_of_isAbsolute {p : Path} (h : p.isAbsolute = true) : p.text ≠ "" := by
  intro empty
  unfold isAbsolute at h
  rw [empty] at h
  cases h

theorem components_of_text_eq_empty {p : Path} (empty : p.text = "") : p.components = [] := by
  unfold components
  rw [empty]
  rfl

/-- Seen from the empty path, a path stands alone. -/
theorem join_of_text_eq_empty {p : Path} (empty : p.text = "") (q : Path) : p.join q = q := by
  unfold join joinChars
  rw [empty]
  split
  · exact congrArg Path.mk String.ofList_toList
  · rw [if_pos (.inl rfl)]
    exact congrArg Path.mk String.ofList_toList

/-- Names are added to names, too. -/
theorem names_join {p q : Path} (relative : q.isAbsolute = false) :
    (p.join q).names = p.names ++ q.names := by
  by_cases empty : p.text = ""
  · have none : p.names = [] := by
      unfold names
      rw [components_of_text_eq_empty empty]
      rfl
    rw [join_of_text_eq_empty empty, none, List.nil_append]
  · unfold names
    rw [components_join empty relative, List.filter_append]
    unfold names
    rw [List.filter_filter]
    simp

/-! ## Parents -/

/-- The path above an absolute path is absolute. -/
theorem isAbsolute_parent? {p q : Path} (h : p.parent? = some q) (absolute : p.isAbsolute = true) :
    q.isAbsolute = true := by
  have root : p.text.toList.head? = some '/' := of_decide_eq_true absolute
  obtain ⟨rest, hp⟩ : ∃ rest, p.text.toList = '/' :: rest := List.head?_eq_some_iff.1 root
  unfold parent? at h
  obtain ⟨cs, above, rfl⟩ := Option.map_eq_some_iff.1 h
  unfold isAbsolute
  rw [String.toList_ofList]
  unfold parentChars? at above
  rw [hp] at above
  split at above
  · cases above
    rfl
  · cases above

/-- The induction is on the way up. -/
theorem isAbsolute_of_mem_ancestors {p q : Path} (h : q ∈ p.ancestors)
    (absolute : p.isAbsolute = true) : q.isAbsolute = true := by
  induction p using ancestors.induct with
  | case1 p top =>
    rw [ancestors_of_parent?_eq_none top] at h
    rw [List.mem_singleton.1 h]
    exact absolute
  | case2 p above up ih =>
    rw [ancestors_of_parent?_eq_some up] at h
    rcases List.mem_cons.1 h with rfl | h
    · exact absolute
    · exact ih h (isAbsolute_parent? up absolute)

end Path

end BuildVariants
