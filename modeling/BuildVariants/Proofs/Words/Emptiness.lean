import BuildVariants.Proofs.Words.Derivation

/-!
# Lines without words

Arguments count as empty when there is nothing in them to see: a list without items, or a line of
white space.  They come to nothing when no word is left of them, and a line without words is one of
blanks and comments (`Words.derives_nil_iff`).  These are two notions.  White space is that of
Unicode, but only three of its characters separate words, and any other of them is a word; and a
comment is something to see, but no word.  No third kind of line tells the two notions apart
(`ArgumentText.isEmpty_iff_expand`).
-/

namespace BuildVariants.Words

variable {cs : List Char} {ws : List (List Char)}

/-! ## Blanks and comments -/

/-- A sentence has at least the word it ends with. -/
theorem Sentence.ne_nil (sentence : Sentence cs ws) : ws ≠ [] := by
  cases sentence with
  | word => exact List.cons_ne_nil _ _
  | snoc => exact List.append_ne_nil_of_right_ne_nil _ (List.cons_ne_nil _ _)

/-- A line without words is one of blanks and comments. -/
theorem derives_nil_iff : Derives cs [] ↔ Closing cs := by
  constructor
  · intro derives
    generalize none : ([] : List (List Char)) = ws at derives
    cases derives with
    | empty closing => exact closing
    | words _ sentence => exact absurd none.symm sentence.ne_nil
  · exact .empty

theorem gap_of_forall_mem_blanks (blank : ∀ c ∈ cs, c ∈ blanks) : Gap cs := by
  induction cs using List.reverseRecOn with
  | nil => exact .nil
  | append_singleton cs c ih =>
    rw [List.forall_mem_append] at blank
    exact .blank (ih blank.1) (blank.2 c (List.mem_singleton_self c))

/-- A gap in which no comment begins is blank. -/
theorem Gap.forall_mem_blanks (gap : Gap cs) (noComment : '#' ∉ cs) : ∀ c ∈ cs, c ∈ blanks := by
  induction gap with
  | nil => exact nofun
  | blank _ blank ih =>
    rw [List.mem_append, not_or] at noComment
    rw [List.forall_mem_append]
    refine ⟨ih noComment.1, fun d mem => ?_⟩
    rwa [List.mem_singleton.1 mem]
  | comment =>
    refine absurd ?_ noComment
    rw [List.append_assoc]
    exact List.mem_append_right _ List.mem_cons_self

/-- Without a comment there is nothing but blanks. -/
theorem closing_iff_of_notMem (noComment : '#' ∉ cs) : Closing cs ↔ ∀ c ∈ cs, c ∈ blanks := by
  constructor
  · intro closing
    cases closing with
    | gap gap => exact gap.forall_mem_blanks noComment
    | comment => exact absurd (List.mem_append_right _ List.mem_cons_self) noComment
  · exact fun blank => .gap (gap_of_forall_mem_blanks blank)

/-! ## Lines that can be cut -/

/-- What a cut piece begins with is a quote or a backslash. -/
theorem CutPiece.exists_opening {mode : Mode} {o v : List Char} (cut : CutPiece mode o v) :
    ∃ c ∈ o, c ∈ ['\'', '"', '\\'] := by
  cases cut
  case escaped => exact ⟨'\\', List.mem_cons_self, by decide⟩
  case single => exact ⟨'\'', List.mem_cons_self, by decide⟩
  case double => exact ⟨'"', List.mem_cons_self, by decide⟩
  case doubleEscaped => exact ⟨'"', List.mem_cons_self, by decide⟩

/-- Only a quote or a backslash can leave a line unfinished. -/
theorem Unfinished.exists_opening (unfinished : Unfinished cs) :
    ∃ c ∈ cs, c ∈ ['\'', '"', '\\'] := by
  obtain ⟨front, start, cut⟩ := unfinished
  obtain ⟨c, mem, opens⟩ := cut.exists_opening
  exact ⟨c, List.mem_append_right _ mem, opens⟩

/-! ## White space -/

theorem isBlank_of_mem_blanks {c : Char} (mem : c ∈ blanks) : Text.isBlank c = true := by
  simp only [blanks, List.mem_cons, List.not_mem_nil, or_false] at mem
  obtain rfl | rfl | rfl := mem <;> decide

/-- White space makes neither comments nor quotes. -/
theorem not_isBlank_of_mem {c : Char} (mem : c ∈ ['#', '\'', '"', '\\']) :
    Text.isBlank c = false := by
  simp only [List.mem_cons, List.not_mem_nil, or_false] at mem
  obtain rfl | rfl | rfl | rfl := mem <;> decide

/-- A line of white space can be cut. -/
theorem exists_split_of_isBlankText {line : String} (blank : Text.isBlankText line = true) :
    ∃ words, split line = some words := by
  rw [← Option.ne_none_iff_exists']
  intro none
  obtain ⟨c, mem, opens⟩ := (split_eq_none_iff.1 none).exists_opening
  have space := List.all_eq_true.1 blank c mem
  rw [not_isBlank_of_mem (List.mem_cons_of_mem _ opens)] at space
  cases space

end BuildVariants.Words

namespace BuildVariants

open Words

namespace ArgumentText

/-- White space that is read as words: not all of it separates words. -/
def IsSolidSpace : ArgumentText → Prop
  | line text => Text.isBlankText text = true ∧ ∃ c ∈ text.toList, c ∉ blanks
  | list _ => False

/-- Blanks and comments, and at least one comment. -/
def IsRemark : ArgumentText → Prop
  | line text => Closing text.toList ∧ '#' ∈ text.toList
  | list _ => False

/-- A line has no words just if it is a gap, perhaps with a comment behind it. -/
theorem expand_line_eq_nil_iff {text : String} :
    (line text).expand = .ok [] ↔ Closing text.toList :=
  splitLine_eq_ok_iff.trans (split_eq_some_iff.trans derives_nil_iff)

/-- There is no comment in white space. -/
theorem closing_iff_of_isBlankText {text : String} (blank : Text.isBlankText text = true) :
    Closing text.toList ↔ ∀ c ∈ text.toList, c ∈ blanks := by
  refine closing_iff_of_notMem fun comment => ?_
  have space := List.all_eq_true.1 blank '#' comment
  exact absurd space (by decide)

/-- White space that does not separate words is a word, though the line counts as empty. -/
theorem IsSolidSpace.expand {text : String} (solid : (line text).IsSolidSpace) :
    (line text).isEmpty = true ∧ ∃ word words, (line text).expand = .ok (word :: words) := by
  obtain ⟨blank, c, mem, other⟩ := solid
  refine ⟨blank, ?_⟩
  obtain ⟨words, cut⟩ := exists_split_of_isBlankText blank
  have expanded : (line text).expand = .ok words := splitLine_eq_ok_iff.2 cut
  cases words with
  | nil =>
    have closing := expand_line_eq_nil_iff.1 expanded
    exact absurd ((closing_iff_of_isBlankText blank).1 closing c mem) other
  | cons word words => exact ⟨word, words, expanded⟩

/-- A comment is no word, though the line does not count as empty. -/
theorem IsRemark.expand {text : String} (remark : (line text).IsRemark) :
    (line text).isEmpty = false ∧ (line text).expand = .ok [] := by
  obtain ⟨closing, comment⟩ := remark
  refine ⟨List.all_eq_false.2 ⟨'#', comment, ?_⟩, expand_line_eq_nil_iff.2 closing⟩
  decide

/-- Any other line without words is one of blanks. -/
theorem isEmpty_line_iff {text : String} (solid : ¬ (line text).IsSolidSpace)
    (remark : ¬ (line text).IsRemark) :
    (line text).isEmpty = true ↔ (line text).expand = .ok [] := by
  rw [expand_line_eq_nil_iff]
  constructor
  · intro blank
    rw [closing_iff_of_isBlankText blank]
    by_contra other
    push Not at other
    exact solid ⟨blank, other⟩
  · intro closing
    have noComment : '#' ∉ text.toList := fun comment => remark ⟨closing, comment⟩
    have blank := (closing_iff_of_notMem noComment).1 closing
    exact List.all_eq_true.2 fun c mem => isBlank_of_mem_blanks (blank c mem)

/-- **Arguments are empty when they come to nothing, except for two kinds of lines.**  White space
with a character that separates no words is empty and comes to a word; a line of blanks and
comments, with a comment, is not empty and comes to nothing. -/
theorem isEmpty_iff_expand (args : ArgumentText) :
    ((args.isEmpty = true ↔ args.expand = .ok []) ↔ ¬ args.IsSolidSpace ∧ ¬ args.IsRemark) ∧
    (args.IsSolidSpace →
      args.isEmpty = true ∧ ∃ word words, args.expand = .ok (word :: words)) ∧
    (args.IsRemark → args.isEmpty = false ∧ args.expand = .ok []) := by
  cases args with
  | list items =>
    refine ⟨iff_of_true ?_ ⟨id, id⟩, False.elim, False.elim⟩
    show items.isEmpty = true ↔ Except.ok items = .ok []
    rw [List.isEmpty_iff, Except.ok.injEq]
  | line text =>
    refine ⟨⟨fun agree => ⟨fun solid => ?_, fun remark => ?_⟩, ?_⟩, IsSolidSpace.expand,
      IsRemark.expand⟩
    · obtain ⟨empty, word, words, expanded⟩ := solid.expand
      cases (agree.1 empty).symm.trans expanded
    · obtain ⟨shown, expanded⟩ := remark.expand
      cases shown.symm.trans (agree.2 expanded)
    · exact fun others => isEmpty_line_iff others.1 others.2

/-- **Being empty and coming to nothing are not the same**: a comment is not empty, and a space that
does not break is a word. -/
theorem remark_and_solid_space_disagree :
    ¬ (isEmpty (.line "# none") = true ↔ expand (.line "# none") = .ok []) ∧
    ¬ (isEmpty (.line "\u00a0") = true ↔ expand (.line "\u00a0") = .ok []) := by
  decide +kernel

end ArgumentText

end BuildVariants
