import BuildVariants.Proofs.Path.Spelling

/-!
# Parents

The path above a path has all of its components but the last, however the two are spelled
(`Path.components_parent?`), and only the root and the empty path have none above them.  So the
path above a name in a directory is the directory again, up to spelling (`Path.parent?_join`), and
what is seen from one spelling of a directory is seen from every other (`Path.Same.join`).

The ancestors of a path are those some number of levels above it (`Path.above?`).
-/

namespace BuildVariants

namespace Path

/-! ## Segments put together -/

/-- No piece of a text that is cut at its slashes holds one. -/
theorem slash_notMem_of_mem_splitSlash {cs s : List Char} (h : s ∈ splitSlash cs) : '/' ∉ s := by
  induction cs generalizing s with
  | nil =>
    rw [List.mem_singleton.1 h]
    exact List.not_mem_nil
  | cons c cs ih =>
    rw [splitSlash] at h
    split at h
    · rcases List.mem_cons.1 h with rfl | h
      · exact List.not_mem_nil
      · exact ih h
    · next other =>
      obtain ⟨first, more, split⟩ := List.exists_cons_of_ne_nil (splitSlash_ne_nil cs)
      simp only [split] at h ih
      rcases List.mem_cons.1 h with rfl | h
      · rw [List.mem_cons, not_or]
        exact ⟨Ne.symm other, ih List.mem_cons_self⟩
      · exact ih (List.mem_cons_of_mem _ h)

theorem splitSlash_of_notMem {s : List Char} (plain : '/' ∉ s) : splitSlash s = [s] := by
  induction s with
  | nil => rfl
  | cons c s ih =>
    obtain ⟨other, rest⟩ := not_or.1 (mt List.mem_cons.2 plain)
    rw [splitSlash, if_neg (Ne.symm other), ih rest]

/-- Pieces without a slash are found again when they have been joined. -/
theorem splitSlash_joinSlash {ss : List (List Char)} (nonempty : ss ≠ [])
    (plain : ∀ s ∈ ss, '/' ∉ s) : splitSlash (joinSlash ss) = ss := by
  induction ss with
  | nil => exact absurd rfl nonempty
  | cons s ss ih =>
    obtain ⟨first, others⟩ := List.forall_mem_cons.1 plain
    cases ss with
    | nil => exact splitSlash_of_notMem first
    | cons t ss =>
      rw [joinSlash, splitSlash_append_slash, splitSlash_of_notMem first,
        ih (List.cons_ne_nil t ss) others]
      rfl

/-- Two lists of pieces are joined with one more slash between them. -/
theorem joinSlash_append {xs ys : List (List Char)} (hx : xs ≠ []) (hy : ys ≠ []) :
    joinSlash (xs ++ ys) = joinSlash xs ++ '/' :: joinSlash ys := by
  induction xs with
  | nil => exact absurd rfl hx
  | cons x xs ih =>
    cases xs with
    | nil =>
      obtain ⟨y, ys, rfl⟩ := List.exists_cons_of_ne_nil hy
      rfl
    | cons z xs =>
      have rest := ih (List.cons_ne_nil z xs)
      simp only [List.cons_append] at rest ⊢
      rw [joinSlash, rest, joinSlash, List.append_assoc]
      rfl

/-- Segments that are not followed stand for no component, so they may be dropped. -/
theorem filterMap_component?_dropWhile (ss : List (List Char)) :
    (ss.dropWhile isHidden).filterMap component? = ss.filterMap component? := by
  induction ss with
  | nil => rfl
  | cons s ss ih =>
    by_cases hidden : isHidden s = true
    · have none : component? s = none := if_pos hidden
      rw [List.dropWhile_cons_of_pos hidden, List.filterMap_cons_none none, ih]
    · rw [List.dropWhile_cons_of_neg hidden]

/-! ## The path above -/

theorem headChars_eq (cs : List Char) :
    headChars cs = [] ∨ headChars cs = ['/'] ∨ headChars cs = ['.'] := by
  unfold headChars
  split <;> simp

/-- The head of a path is a path of its own. -/
theorem components_headChars (cs : List Char) :
    (Path.mk (String.ofList (headChars cs))).components = headComponents cs := by
  unfold headComponents
  rw [components_eq, String.toList_ofList]
  rcases headChars_eq cs with head | head | head <;> rw [head] <;> rfl

/-- A text is its head with its segments behind it. -/
theorem headChars_append_joinSlash (cs : List Char) :
    headChars cs ++ joinSlash (bodySegments cs) = cs := by
  unfold bodySegments
  rw [joinSlash_splitSlash]
  exact List.prefix_iff_eq_append.1 (prefix_headChars cs)

/-- What is cut off is the last component, with what is not followed around it. -/
theorem exists_cut {cs : List Char} {last : List Char} {above : List (List Char)}
    (rest : (bodySegments cs).reverse.dropWhile isHidden = last :: above) :
    ∃ gone c, bodySegments cs = (above.dropWhile isHidden).reverse ++ gone ∧
      gone.filterMap component? = [c] := by
  have visible : isHidden last = false := by
    have := List.head?_dropWhile_not isHidden (bodySegments cs).reverse
    simpa [rest] using this
  obtain ⟨c, named⟩ := exists_component?_of_not_isHidden visible
  obtain ⟨after, split⟩ := exists_append_of_dropWhile_reverse isHidden (bodySegments cs)
  obtain ⟨before, split'⟩ := exists_append_of_dropWhile_reverse isHidden above.reverse
  rw [List.reverse_reverse] at split'
  rw [rest, List.reverse_cons, split', List.append_assoc, List.append_assoc] at split
  refine ⟨before ++ ([last] ++ after), c, split, ?_⟩
  -- All components are those that are kept, and the one of the last segment that is followed.
  have whole : (bodySegments cs).filterMap component?
      = (above.dropWhile isHidden).reverse.filterMap component? ++ [c] := by
    have backwards := filterMap_component?_dropWhile (bodySegments cs).reverse
    rw [rest, List.filterMap_cons_some named, ← filterMap_component?_dropWhile above] at backwards
    rw [List.filterMap_reverse, ← List.reverse_cons, backwards, List.filterMap_reverse,
      List.reverse_reverse]
  rw [split, List.filterMap_append] at whole
  exact List.append_cancel_left whole

/-- The text of a path read from its head and its segments. -/
theorem components_ofList (cs : List Char) : (Path.mk (String.ofList cs)).components
    = headComponents cs ++ (bodySegments cs).filterMap component? := by
  unfold components
  rw [String.toList_ofList]

/-- A path whose last segments, taken together, stand for one component has that one behind those
of the text in front. -/
theorem components_of_cut {cs : List Char} {kept gone : List (List Char)} {c : Component}
    (cut : bodySegments cs = kept ++ gone) (single : gone.filterMap component? = [c]) :
    (Path.mk (String.ofList cs)).components
      = (Path.mk (String.ofList (headChars cs ++ joinSlash kept))).components ++ [c] := by
  by_cases none : kept = []
  · -- Nothing is left but the head.
    rw [none] at cut
    rw [components_ofList, cut, none, List.nil_append, single, joinSlash, List.append_nil,
      components_headChars]
  · -- The text goes on behind what is kept with a slash.
    have present : gone ≠ [] := by
      rintro rfl
      cases single
    have plain : ∀ s ∈ gone, '/' ∉ s := fun s hs =>
      slash_notMem_of_mem_splitSlash (cut ▸ List.mem_append_right kept hs)
    have text : cs = (headChars cs ++ joinSlash kept) ++ '/' :: joinSlash gone := by
      rw [List.append_assoc, ← joinSlash_append none present, ← cut, headChars_append_joinSlash]
    have nonempty : headChars cs ++ joinSlash kept ≠ [] := by
      intro empty
      rw [empty, List.nil_append] at text
      have root : headChars cs = ['/'] := by
        rw [text]
        rfl
      rw [root] at empty
      cases empty
    have names : segmentNames (joinSlash gone) = [c] := by
      unfold segmentNames
      rw [splitSlash_joinSlash present plain, single]
    have cutOff := components_append_slash (joinSlash gone) nonempty
    rwa [← text, names] at cutOff

/-- Where no segment is followed, there is nothing but the head. -/
theorem filterMap_component?_eq_nil {ss : List (List Char)}
    (rest : ss.reverse.dropWhile isHidden = []) : ss.filterMap component? = [] := by
  have hidden := filterMap_component?_dropWhile ss.reverse
  rw [rest, List.filterMap_reverse] at hidden
  exact List.reverse_eq_nil_iff.1 hidden.symm

/-- The parent of a path has all of its components but the last one. -/
theorem components_parentChars? {cs ds : List Char} (h : parentChars? cs = some ds) :
    ∃ c, (Path.mk (String.ofList cs)).components
      = (Path.mk (String.ofList ds)).components ++ [c] := by
  unfold parentChars? at h
  split at h
  · next last above rest =>
    obtain ⟨gone, c, cut, single⟩ := exists_cut rest
    cases h
    exact ⟨c, components_of_cut cut single⟩
  · next rest =>
    split at h
    · next dot =>
      -- The path is a dot, and the path above it is empty.
      cases h
      refine ⟨.here, ?_⟩
      rw [components_ofList, filterMap_component?_eq_nil rest, headComponents, dot]
      rfl
    · cases h

/-- **The path above has all components but the last.** -/
theorem components_parent? {p q : Path} (h : p.parent? = some q) :
    q.components = p.components.dropLast := by
  unfold parent? at h
  obtain ⟨ds, above, rfl⟩ := Option.map_eq_some_iff.1 h
  obtain ⟨c, cut⟩ := components_parentChars? above
  rw [String.ofList_toList] at cut
  rw [show p.components = _ from cut, List.dropLast_concat]

/-- Nothing is above the root, and above the empty path. -/
theorem components_of_parent?_eq_none {p : Path} (h : p.parent? = none) :
    p.components = [] ∨ p.components = [.root] := by
  unfold parent? parentChars? at h
  split at h
  · cases h
  · next rest =>
    unfold components headComponents
    rw [filterMap_component?_eq_nil rest, List.append_nil]
    rcases headChars_eq p.text.toList with head | head | head
    · rw [head]
      exact .inl rfl
    · rw [head]
      exact .inr rfl
    · rw [if_pos head] at h
      cases h

/-! ## Other spellings of a directory -/

/-- A directory may be spelled in another way. -/
theorem Same.join {p p' : Path} (same : p.Same p') (q : Path) : (p.join q).Same (p'.join q) := by
  cases placed : q.isAbsolute with
  | true =>
    rw [join_of_isAbsolute placed, join_of_isAbsolute placed]
    exact .refl q
  | false =>
    by_cases empty : p.text = ""
    · -- Only the empty path is the same as the empty one.
      have none : p'.components = [] := same ▸ components_of_text_eq_empty empty
      have empty' : p'.text = "" := by
        by_contra present
        exact components_ne_nil present none
      have alike : p = p' := by
        obtain ⟨text⟩ := p
        obtain ⟨text'⟩ := p'
        exact congrArg Path.mk (empty.trans empty'.symm)
      rw [alike]
      exact .refl _
    · have present : p'.text ≠ "" := by
        intro empty'
        exact components_ne_nil empty (Eq.trans same (components_of_text_eq_empty empty'))
      unfold Same
      rw [components_join empty placed, components_join present placed, same]

/-- **A parent undoes a name**: above a name in a directory there is the directory, perhaps in
another spelling. -/
theorem parent?_join (d : Path) {q : Path} {name : String} (single : q.components = [.name name]) :
    ∃ r, (d.join q).parent? = some r ∧ r.Same d := by
  have relative : q.isAbsolute = false := by
    rw [Bool.eq_false_iff, Ne, isAbsolute_iff, single]
    exact fun root => absurd (List.mem_singleton.1 root) nofun
  have names : q.names = [.name name] := by
    unfold names
    rw [single]
    rfl
  have joined : (d.join q).components = d.components ++ [.name name] := by
    by_cases empty : d.text = ""
    · rw [join_of_text_eq_empty empty, components_of_text_eq_empty empty, single, List.nil_append]
    · rw [components_join empty relative, names]
  cases above : (d.join q).parent? with
  | none =>
    rcases components_of_parent?_eq_none above with none | root
    · rw [joined] at none
      exact absurd none (List.append_ne_nil_of_right_ne_nil _ (List.cons_ne_nil _ _))
    · have named : .name name ∈ [Component.root] :=
        root ▸ joined ▸ List.mem_append_right d.components (List.mem_singleton_self _)
      exact absurd (List.mem_singleton.1 named) nofun
  | some r =>
    refine ⟨r, rfl, ?_⟩
    unfold Same
    rw [components_parent? above, joined, List.dropLast_concat]

/-! ## Levels -/

/-- The path some levels above: the path above it, the path above that, and so on. -/
def above? : Path → Nat → Option Path
  | p, 0 => some p
  | p, n + 1 => p.parent?.bind (above? · n)

/-- The ancestors of a path are the paths above it, level by level. -/
theorem getElem?_ancestors (p : Path) (n : Nat) : p.ancestors[n]? = p.above? n := by
  induction n generalizing p with
  | zero =>
    cases above : p.parent? with
    | none =>
      rw [ancestors_of_parent?_eq_none above]
      rfl
    | some q =>
      rw [ancestors_of_parent?_eq_some above]
      rfl
  | succ n ih =>
    cases above : p.parent? with
    | none =>
      rw [ancestors_of_parent?_eq_none above, above?, above]
      rfl
    | some q =>
      rw [ancestors_of_parent?_eq_some above, above?, above, List.getElem?_cons_succ, ih]
      rfl

end Path

end BuildVariants
