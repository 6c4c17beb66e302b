import BuildVariants.Proofs.Toml.WrittenDocument

/-!
# Where a written string ends

A written string or key is read back, and the reader stops where the writer did.  That is so for the
string itself, whatever follows other than a further quote, and for the line of a document that it
stands on, whatever follows on the next lines (`written_forms_read_back`).

Such a line need not be a single line of the text.  Between triple quotes a line break is written as
it is, and one more stands behind the opening quotes; the form with escapes on one line has none
(`Form.newline_mem_write_iff`), and it is not taken for a string with a line break
(`Form.ofString_ne_basic`).  So a string is written on one line just when it has no line break.
-/

namespace BuildVariants.Toml

open Text

/-! ## Line breaks in what is written -/

/-- A line break is never part of an escape. -/
theorem newline_notMem_escape (c : Char) : '\n' ∉ escape c := by
  have digits : '\n' ∉ ['\\', 'u'] ++ hexText false 4 c.toNat := by
    rw [List.mem_append, not_or]
    refine ⟨by decide, fun mem => ?_⟩
    exact absurd (isSome_hexDigit?_of_mem_hexText mem) (by decide)
  unfold escape
  split_ifs
  case neg => exact digits
  all_goals decide

/-- Between double quotes on one line there is no line break. -/
theorem newline_notMem_basicText (cs : List Char) : '\n' ∉ basicText cs := by
  induction cs with
  | nil => exact List.not_mem_nil
  | cons c cs ih =>
    rw [basicText_cons, List.mem_append, not_or]
    refine ⟨?_, ih⟩
    split
    · exact newline_notMem_escape c
    · next plain =>
      rw [List.mem_singleton]
      rintro rfl
      exact plain (by decide)

/-- Between triple double quotes the line breaks are those of the text. -/
theorem newline_mem_multilineText_iff (cs : List Char) :
    ∀ run, '\n' ∈ multilineText run cs ↔ '\n' ∈ cs := by
  induction cs with
  | nil => exact fun _ => Iff.rfl
  | cons c cs ih =>
    intro run
    rw [multilineText, List.mem_cons]
    split
    · next quote =>
      subst quote
      have other : ¬ '\n' = '"' := by decide
      split
      · rw [List.mem_append, ih, or_iff_right (newline_notMem_escape '"'), or_iff_right other]
      · rw [List.mem_cons, ih]
    · split
      · next escaped =>
        have other : ¬ '\n' = c := by
          rintro rfl
          exact absurd escaped (by decide)
        rw [List.mem_append, ih, or_iff_right (newline_notMem_escape c), or_iff_right other]
      · rw [List.mem_cons, ih]

theorem newline_mem_openingBreak_iff {cs : List Char} : '\n' ∈ openingBreak cs ↔ '\n' ∈ cs := by
  unfold openingBreak
  split
  · next broken => exact iff_of_true List.mem_cons_self (List.contains_iff_mem.1 broken)
  · next whole => exact iff_of_false List.not_mem_nil (mt List.contains_iff_mem.2 whole)

/-- Only the form with escapes on one line has no place for a line break. -/
theorem Form.newline_mem_write_iff {form : Form} {cs : List Char} :
    '\n' ∈ form.write cs ↔ form ≠ .basic ∧ '\n' ∈ cs := by
  cases form with
  | basic =>
    have one : '\n' ∉ Form.basic.write cs := by
      simp [write, newline_notMem_basicText]
    exact iff_of_false one fun both => both.1 rfl
  | literal => simp [write]
  | multilineBasic => simp [write, newline_mem_openingBreak_iff, newline_mem_multilineText_iff]
  | multilineLiteral => simp [write, newline_mem_openingBreak_iff]

/-- That form is not taken for a string with a line break. -/
theorem Form.ofString_ne_basic {cs : List Char} (broken : '\n' ∈ cs) :
    Form.ofString cs ≠ .basic := by
  have there : cs.contains '\n' = true := List.contains_iff_mem.2 broken
  unfold ofString
  simp only [there, Bool.not_true, Bool.and_false, Bool.false_eq_true, if_false, if_true]
  split_ifs <;> nofun

/-- **A string is written on one line just when it has no line break.** -/
theorem newline_mem_stringText_iff (s : String) : '\n' ∈ stringText s ↔ '\n' ∈ s.toList := by
  unfold stringText
  rw [Form.newline_mem_write_iff, and_iff_right_iff_imp]
  exact Form.ofString_ne_basic

/-! ## What is read back -/

/-- **Written strings and keys are read back, and nothing else is read.**  A string is read back as
a value in front of anything but a quote, and a key as one key in front of anything but a further
letter of a key.  A line with the string as its value or as its key, and the header of a table with
that name, are read as what they were written for, whatever the text behind them is.  The string is
written on one line just when it has no line break. -/
theorem written_forms_read_back (s : String) :
    (∀ depth rest, NoQuoteAhead rest →
      readValue depth (stringText s ++ rest) = some (.string s, rest)) ∧
    (∀ rest, NoKeyAhead rest → readSimpleKey (keyText s ++ rest) = some (s, rest)) ∧
    (∀ key rest, readLine (pairLine (key, .string s) ++ rest)
      = some ([.pair [] key (.string s)], rest)) ∧
    (∀ datum rest, readLine (pairLine (s, datum) ++ rest)
      = some ([.pair [] s datum.value], rest)) ∧
    (∀ table rest, readLine ((Heading.table [table, s]).write ++ rest)
      = some ([.header [table] s], rest)) ∧
    ('\n' ∈ stringText s ↔ '\n' ∈ s.toList) := by
  refine ⟨fun depth rest => readValue_stringText depth s, fun rest => readSimpleKey_keyText s,
    fun key rest => readLine_pairLine (key, .string s) rest,
    fun datum rest => readLine_pairLine (s, datum) rest, fun table rest => ?_,
    newline_mem_stringText_iff s⟩
  have legal : (Heading.table [table, s]).IsLegal :=
    ⟨List.cons_ne_nil table [s], show 2 ≤ maxDepth by decide⟩
  exact readLine_heading legal nofun rest

end BuildVariants.Toml
