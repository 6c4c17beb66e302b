import BuildVariants.Proofs.Json.Grammar

/-!
# Printed values are documents

Whatever stands between the tokens, as long as it is blank, a printed value is a document that holds
it (`document_print`).  Numbers are printed as they were given, so they have to be written as
numbers (`Written`); of strings and names nothing is asked, because whatever could not stand in a
string is escaped (`charText_escape`).
-/

namespace BuildVariants.Json

open Text

/-! ## Blanks -/

/-- Only blanks stand between the tokens. -/
structure Spacing.Blank (sp : Spacing) : Prop where
  /-- The line breaks, with their indentation. -/
  lineBreak : ∀ depth, Gap (sp.lineBreak depth)
  /-- What stands behind a colon. -/
  gap : Gap sp.gap

theorem gap_nil : Gap [] := nofun

/-- The compact spacing has nothing between the tokens. -/
theorem Spacing.blank_compact : Spacing.Blank .compact :=
  ⟨fun _ => gap_nil, gap_nil⟩

/-- The indented spacing has line breaks and spaces between them. -/
theorem Spacing.blank_indented : Spacing.Blank .indented := by
  refine ⟨fun depth c mem => ?_, fun c mem => ?_⟩
  · rcases List.mem_cons.1 mem with rfl | mem
    · decide
    · rw [List.eq_of_mem_replicate mem]
      decide
  · rw [List.mem_singleton.1 mem]
    decide

/-! ## Strings -/

/-- **Every character is written as itself.** -/
theorem charText_escape (c : Char) : CharText (escape c) c := by
  unfold escape
  -- Seven characters have a letter.
  iterate 7
    split
    · next is =>
      subst is
      exact .short (by simp [shortEscapes])
  next noQuote noEscape _ _ _ _ _ =>
  split
  · next control =>
    -- The other control characters are written by their number.
    have fits : c.toNat < hexBase 4 := Nat.lt_trans control (by decide)
    have digits : FourDigits (hexText true 4 c.toNat) c.toNat := by
      obtain ⟨digits, is, four⟩ := hexNumber_eq_some_iff.1 (hexNumber_hexText true fits [])
      rw [List.append_nil, List.append_nil] at is
      exact is ▸ four
    have written := CharText.code digits (by omega)
    rwa [Char.ofNat_toNat] at written
  · next visible => exact .plain (Nat.le_of_not_lt visible) noQuote noEscape

/-- The characters of a string are written one by one, and do not depend on their neighbours. -/
theorem characters_flatMap_escape (cs : List Char) : Characters (cs.flatMap escape) cs := by
  induction cs with
  | nil => exact .nil
  | cons c cs ih =>
    rw [List.flatMap_cons]
    exact .cons (charText_escape c) ih

/-- A string in its quotation marks is read as that string, whatever it holds. -/
theorem stringText_quoted (s : String) : StringText (quoted s) s := by
  have written := StringText.quoted (characters_flatMap_escape s.toList)
  rwa [String.ofList_toList] at written

/-! ## Items and fields -/

section Brackets

variable {α : Type} {Item : List Char → α → Prop} {lineBreak closing : List Char}
  {print : α → List Char}

/-- Items on lines of their own, with commas in front of all but the first one. -/
theorem items_flatMap (gb : Gap lineBreak) (ga : Gap closing) (x : α) (xs : List α)
    (each : ∀ y ∈ x :: xs, Item (print y) y) :
    Items Item (lineBreak ++ print x ++ (xs.flatMap fun y => ',' :: (lineBreak ++ print y))
      ++ closing) (x :: xs) := by
  have first := each x List.mem_cons_self
  induction xs generalizing x with
  | nil =>
    rw [List.flatMap_nil, List.append_nil]
    exact .one gb first ga
  | cons y ys ih =>
    have others := ih y (fun z mem => each z (List.mem_cons_of_mem x mem))
      (each y (List.mem_cons_of_mem x List.mem_cons_self))
    have all := Items.cons gb first gap_nil others
    rwa [List.append_nil, show lineBreak ++ print x ++ ',' :: (lineBreak ++ print y
      ++ (ys.flatMap fun y => ',' :: (lineBreak ++ print y)) ++ closing)
      = lineBreak ++ print x ++ ((y :: ys).flatMap fun y => ',' :: (lineBreak ++ print y))
        ++ closing by simp] at all

end Brackets

/-- A field with its value at a depth. -/
def printField (sp : Spacing) (depth : Nat) (f : String × Json) : List Char :=
  quoted f.1 ++ ':' :: sp.gap ++ print sp depth f.2

variable {sp : Spacing} {depth : Nat}

/-- The printer of further items, which recurses together with the printer of values, as a list of
what is printed of each. -/
theorem printItems_eq (xs : List Json) : printItems sp depth xs
    = xs.flatMap fun x => ',' :: (sp.lineBreak depth ++ print sp depth x) := by
  induction xs with
  | nil => rw [printItems, List.flatMap_nil]
  | cons x xs ih => rw [printItems, List.flatMap_cons, ih, List.cons_append]

theorem printFields_eq (fs : List (String × Json)) : printFields sp depth fs
    = fs.flatMap fun f => ',' :: (sp.lineBreak depth ++ printField sp depth f) := by
  induction fs with
  | nil => rw [printFields, List.flatMap_nil]
  | cons f fs ih =>
    obtain ⟨k, x⟩ := f
    rw [printFields, List.flatMap_cons, ih]
    simp [printField]

/-- A field is printed as one if its value is printed as one. -/
theorem field_printField (blank : sp.Blank) {f : String × Json}
    (value : Value (print sp depth f.2) f.2) : Field Value (printField sp depth f) f := by
  have field := Field.named (stringText_quoted f.1) gap_nil blank.gap value
  rwa [List.append_nil] at field

/-! ## Values -/

/-- Every number in a value is written as one. -/
inductive Written : Json → Prop
  | null : Written null
  | boolean (b : Bool) : Written (boolean b)
  | number {digits : String} : Numeral digits.toList → Written (number digits)
  | string (s : String) : Written (string s)
  | array {xs : List Json} : (∀ x ∈ xs, Written x) → Written (array xs)
  | object {fs : List (String × Json)} : (∀ f ∈ fs, Written f.2) → Written (object fs)

/-- A printed value is one of the grammar. -/
theorem value_print (blank : sp.Blank) {j : Json} (h : Written j) (depth : Nat) :
    Value (print sp depth j) j := by
  induction h generalizing depth with
  | null => exact .null
  | boolean b => cases b <;> first | exact .true | exact .false
  | @number digits numeral =>
    have value := Value.number numeral
    rwa [String.ofList_toList] at value
  | string s => exact .string (stringText_quoted s)
  | @array xs _ ih =>
    cases xs with
    | nil => exact .array (.empty gap_nil)
    | cons x xs =>
      have items := items_flatMap (blank.lineBreak (depth + 1)) (blank.lineBreak depth) x xs
        fun y mem => ih y mem (depth + 1)
      rw [← printItems_eq] at items
      exact .array (.items items)
  | @object fs _ ih =>
    cases fs with
    | nil => exact .object (.empty gap_nil)
    | cons f fs =>
      have fields := items_flatMap (blank.lineBreak (depth + 1)) (blank.lineBreak depth) f fs
        fun g mem => field_printField blank (ih g mem (depth + 1))
      rw [← printFields_eq] at fields
      have value := Value.object (.items fields)
      unfold print
      simpa [printField] using value

/-- **A printed value is a document that holds it.** -/
theorem document_print (blank : sp.Blank) {j : Json} (h : Written j) (depth : Nat) :
    Document (String.ofList (print sp depth j)) j := by
  refine .surrounded ?_ gap_nil (value_print blank h depth) gap_nil
  rw [String.toList_ofList, List.nil_append, List.append_nil]

end BuildVariants.Json
