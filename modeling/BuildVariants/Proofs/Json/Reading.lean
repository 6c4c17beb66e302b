import BuildVariants.Proofs.Json.Scalars

/-!
# Reading a document

The reader reads the documents of the grammar and no other texts (`parse?_eq_some_iff`).  That it
finds nothing else (`IsSound`) is shown along its recursion; that it misses nothing is shown of all
values up to some length, which bounds the levels of brackets in them (`IsComplete`).  Both are
passed on from the items to what stands in brackets, once for arrays and objects alike.

As there is one answer for a text, a text holds one value at most (`Document.unique`).
-/

namespace BuildVariants.Json

open Text

variable {α : Type} {cs rest text : List Char} {c close : Char} {n : Nat}

/-! ## Blanks and words -/

/-- The test of the reader decides the blanks of the grammar. -/
theorem isGap_iff : isGap c = true ↔ c ∈ blanks := by
  simp [isGap, blanks, or_assoc]

/-- Blanks in front are skipped, however many there are. -/
theorem skipGap_append {gap : List Char} (h : Gap gap) (cs : List Char) :
    skipGap (gap ++ cs) = skipGap cs :=
  List.dropWhile_append_of_pos fun c mem => isGap_iff.2 (h c mem)

theorem skipGap_cons (h : c ∉ blanks) (cs : List Char) : skipGap (c :: cs) = c :: cs := by
  unfold skipGap
  rw [List.dropWhile_cons, if_neg (mt isGap_iff.1 h)]

theorem skipGap_gap {gap : List Char} (h : Gap gap) : skipGap gap = [] := by
  have := skipGap_append h []
  rwa [List.append_nil] at this

/-- What is skipped is a gap, so the text is a gap and the rest. -/
theorem exists_gap (cs : List Char) : ∃ gap, Gap gap ∧ cs = gap ++ skipGap cs := by
  refine ⟨cs.takeWhile isGap, ?_, List.takeWhile_append_dropWhile.symm⟩
  exact fun c mem => isGap_iff.1 (List.mem_takeWhile_imp mem)

/-- A fixed word is read off just where the text begins with it. -/
theorem expect_eq_some_iff {xs : List Char} : expect xs cs = some rest ↔ cs = xs ++ rest := by
  induction xs generalizing cs with
  | nil =>
    show some cs = some rest ↔ cs = rest
    rw [Option.some.injEq]
  | cons x xs ih =>
    cases cs with
    | nil => exact iff_of_false nofun nofun
    | cons c cs =>
      rw [expect, List.cons_append, List.cons.injEq]
      split
      · next same => rw [ih, and_iff_right same]
      · next other => exact iff_of_false nofun fun h => other h.1

/-- What may stand behind a value. -/
def Follows (rest : List Char) : Prop :=
  ∀ c ∈ rest.head?, c ∈ blanks ++ [',', ']', '}']

theorem follows_nil : Follows [] := nofun

/-- A blank, a comma or a closing bracket may stand behind a value. -/
theorem follows_cons (h : c ∈ blanks ++ [',', ']', '}']) (cs : List Char) : Follows (c :: cs) := by
  rintro _ ⟨⟩
  exact h

theorem follows_comma (cs : List Char) : Follows (',' :: cs) :=
  follows_cons (by decide) cs

/-- A value may be followed by blanks in front of what may follow it anyway. -/
theorem Follows.gap_append {gap : List Char} (h : Gap gap) (follows : Follows cs) :
    Follows (gap ++ cs) := by
  cases gap with
  | nil => exact follows
  | cons c gap => exact follows_cons (List.mem_append_left _ (h c List.mem_cons_self)) _

/-- It does not go on with a number. -/
theorem Follows.endsNumber (h : Follows rest) : EndsNumber rest := by
  cases rest with
  | nil => exact ⟨nofun, nofun, nofun⟩
  | cons c cs =>
    have other : ∀ c ∈ blanks ++ [',', ']', '}'],
        c.isDigit = false ∧ c ≠ '.' ∧ ¬ (c = 'e' ∨ c = 'E') := by simp [blanks, Char.isDigit]
    obtain ⟨noDigit, noPoint, noExponent⟩ := other c (h c rfl)
    refine ⟨?_, ?_, ?_⟩
    · rintro _ ⟨⟩
      exact noDigit
    · rintro ⟨⟩
      exact noPoint rfl
    · rintro _ ⟨⟩
      exact noExponent

/-! ## What stands in brackets -/

/-- Whatever is read is an item. -/
def IsSound (item : Scan α) (Item : List Char → α → Prop) : Prop :=
  ∀ {cs x rest}, item cs = some (x, rest) → ∃ text, cs = text ++ rest ∧ Item text x

/-- An item is read if it is not longer than `n`, and it does not begin like something else. -/
structure IsComplete (item : Scan α) (Item : List Char → α → Prop) (n : Nat) : Prop where
  /-- It is read in front of anything that may follow. -/
  read : ∀ {text x rest}, text.length ≤ n → Item text x → Follows rest →
    item (text ++ rest) = some (x, rest)
  /-- It begins neither like a gap nor like what may follow. -/
  head : ∀ {text x}, Item text x → ∃ c cs, text = c :: cs ∧ c ∉ blanks ++ [',', ']', '}']

section Brackets

variable {item : Scan α} {Item : List Char → α → Prop} {x : α} {xs : List α}

/-- The first item is reached behind some blanks. -/
theorem IsComplete.exists_skipGap (complete : IsComplete item Item n) {before : List Char}
    (gap : Gap before) (hx : Item text x) (rest : List Char) :
    ∃ c cs, skipGap (before ++ text ++ rest) = c :: cs ∧ c :: cs = text ++ rest ∧
      c ∉ [',', ']', '}'] := by
  obtain ⟨c, cs, rfl, other⟩ := complete.head hx
  rw [List.mem_append, not_or] at other
  refine ⟨c, cs ++ rest, ?_, rfl, other.2⟩
  rw [List.append_assoc, skipGap_append gap]
  exact skipGap_cons other.1 _

/-- An item behind a comma is read, with blanks on both sides of the comma. -/
theorem behindComma_append (complete : IsComplete item Item n) {before after : List Char}
    (ga : Gap after) (gb : Gap before) (hx : Item text x) (short : text.length ≤ n)
    (follows : Follows rest) :
    behindComma item (after ++ ',' :: (before ++ text ++ rest)) = some (x, rest) := by
  obtain ⟨c, cs, skipped, is, -⟩ := complete.exists_skipGap gb hx rest
  unfold behindComma
  rw [skipGap_append ga, skipGap_cons (by decide)]
  simp only
  rw [skipped, is]
  exact complete.read short hx follows

theorem follows_close (closing : close = ']' ∨ close = '}') (cs : List Char) :
    Follows (close :: cs) := by
  rcases closing with rfl | rfl <;> exact follows_cons (by decide) cs

theorem skipGap_close (closing : close = ']' ∨ close = '}') {gap : List Char} (h : Gap gap)
    (cs : List Char) : skipGap (gap ++ close :: cs) = close :: cs := by
  rw [skipGap_append h]
  rcases closing with rfl | rfl <;> exact skipGap_cons (by decide) cs

/-- Behind the last item no other one is read. -/
theorem many_of_close (closing : close = ']' ∨ close = '}') {after : List Char} (h : Gap after)
    (rest : List Char) :
    many (behindComma item) (after ++ close :: rest) = ([], after ++ close :: rest) := by
  refine many_of_none ?_
  unfold behindComma
  rw [skipGap_close closing h]
  rcases closing with rfl | rfl <;> rfl

/-- The items behind a comma are read up to the closing bracket. -/
theorem many_of_items (complete : IsComplete item Item n) (closing : close = ']' ∨ close = '}')
    (h : Items Item text xs) (short : text.length ≤ n) (rest : List Char) :
    ∀ after, Gap after → ∃ left, Gap left ∧
      many (behindComma item) (after ++ ',' :: (text ++ close :: rest))
        = (xs, left ++ close :: rest) := by
  induction h with
  | @one before text after' x gb hx ga' =>
    intro after ga
    have fits : text.length ≤ n := by
      rw [List.length_append, List.length_append] at short
      omega
    have first := behindComma_append complete ga gb hx fits
      (.gap_append ga' (follows_close closing rest))
    refine ⟨after', ga', ?_⟩
    rw [List.append_assoc, many_of_some first (by simp; omega), many_of_close closing ga']
  | @cons before text after' tail x xs gb hx ga' _ ih =>
    intro after ga
    rw [List.length_append, List.length_append, List.length_append, List.length_cons] at short
    have fits : text.length ≤ n := by omega
    have first := behindComma_append complete ga gb hx fits
      (.gap_append ga' (follows_comma (tail ++ close :: rest)))
    obtain ⟨left, gl, others⟩ := ih (by omega) after' ga'
    refine ⟨left, gl, ?_⟩
    rw [List.append_assoc (before ++ text ++ after'), List.append_assoc (before ++ text),
      List.cons_append, many_of_some first (by simp; omega), others]

/-- What is read behind an opening bracket: nothing, or an item and those behind it. -/
theorem readList_eq_some_iff :
    readList item close cs = some (xs, rest) ↔
      (skipGap cs = close :: rest ∧ xs = []) ∨
      ∃ c r x r', skipGap cs = c :: r ∧ c ≠ close ∧ item (c :: r) = some (x, r') ∧
        skipGap (many (behindComma item) r').2 = close :: rest ∧
        xs = x :: (many (behindComma item) r').1 := by
  unfold readList
  constructor
  · intro h
    split at h
    · cases h
    · next c r skipped =>
      split at h
      · next closes =>
        cases h
        exact .inl ⟨closes ▸ skipped, rfl⟩
      · next other =>
        split at h
        · cases h
        · next x r' read =>
          simp only at h
          split at h
          · cases h
          · next d left behind =>
            split at h
            · next closes =>
              cases h
              exact .inr ⟨c, r, x, r', skipped, other, read, closes ▸ behind, rfl⟩
            · cases h
  · rintro (⟨skipped, rfl⟩ | ⟨c, r, x, r', skipped, other, read, behind, rfl⟩)
    · rw [skipped]
      exact if_pos rfl
    · rw [skipped]
      simp only
      rw [if_neg other, read]
      simp only
      rw [behind]
      exact if_pos rfl

/-- An item is read with what stands behind it. -/
theorem readList_item (complete : IsComplete item Item n) (closing : close = ']' ∨ close = '}')
    {before left after : List Char} (gb : Gap before) (hx : Item text x) (short : text.length ≤ n)
    (follows : Follows left) (ga : Gap after)
    (others : many (behindComma item) left = (xs, after ++ close :: rest)) :
    readList item close (before ++ text ++ left) = some (x :: xs, rest) := by
  obtain ⟨c, cs, skipped, is, other⟩ := complete.exists_skipGap gb hx left
  refine readList_eq_some_iff.2 (.inr ⟨c, cs, x, left, skipped, ?_, ?_, ?_, ?_⟩)
  · rintro rfl
    rcases closing with rfl | rfl <;> exact other (by decide)
  · rw [is, complete.read short hx follows]
  · rw [others, skipGap_close closing ga]
  · rw [others]

/-- What stands behind the opening bracket is read up to the closing one. -/
theorem readList_append (complete : IsComplete item Item n) (closing : close = ']' ∨ close = '}')
    {opening : Char} (h : Bracketed Item opening close text xs) (short : text.length ≤ n + 1)
    (rest : List Char) :
    ∃ tail, text = opening :: tail ∧ readList item close (tail ++ rest) = some (xs, rest) := by
  cases h with
  | @empty gap hg =>
    refine ⟨gap ++ [close], rfl, readList_eq_some_iff.2 (.inl ⟨?_, rfl⟩)⟩
    rw [List.append_assoc, List.singleton_append]
    exact skipGap_close closing hg rest
  | @items text _ items =>
    refine ⟨text ++ [close], rfl, ?_⟩
    rw [List.length_append, List.length_cons] at short
    rw [List.append_assoc, List.singleton_append]
    cases items with
    | @one before text after x gb hx ga =>
      rw [List.length_append, List.length_append] at short
      rw [List.append_assoc]
      exact readList_item complete closing gb hx (by omega)
        (.gap_append ga (follows_close closing rest)) ga (many_of_close closing ga rest)
    | @cons before text after tail x xs gb hx ga items =>
      rw [List.length_append, List.length_append, List.length_append, List.length_cons] at short
      obtain ⟨left, gl, others⟩ := many_of_items complete closing items (by omega) rest after ga
      rw [List.append_assoc, List.append_assoc]
      exact readList_item complete closing gb hx (by omega) (.gap_append ga (follows_comma _)) gl
        others

/-- Items that are read behind another one stand in brackets with it. -/
theorem items_of_many (sound : IsSound item Item) (r : List Char) :
    ∀ {t before : List Char} {x : α}, Item t x → Gap before →
      skipGap (many (behindComma item) r).2 = close :: rest →
      ∃ text, before ++ t ++ r = text ++ close :: rest ∧
        Items Item text (x :: (many (behindComma item) r).1) := by
  -- The induction is on the recursion of `many`.
  have last {t before : List Char} {x : α} {r : List Char} (hx : Item t x) (gb : Gap before)
      (closed : skipGap r = close :: rest) :
      ∃ text, before ++ t ++ r = text ++ close :: rest ∧ Items Item text [x] := by
    obtain ⟨after, ga, is⟩ := exists_gap r
    refine ⟨before ++ t ++ after, ?_, .one gb hx ga⟩
    rw [closed] at is
    rw [is, List.append_assoc (before ++ t)]
  fun_induction many (behindComma item) r with
  | case1 r none => exact last
  | case2 r y s read shorter ys left others ih =>
    intro t before x hx gb closed
    unfold behindComma at read
    split at read
    · next q comma =>
      obtain ⟨after, ga, is⟩ := exists_gap r
      obtain ⟨before', gb', is'⟩ := exists_gap q
      obtain ⟨t', skipped, hy⟩ := sound read
      rw [others] at ih
      obtain ⟨text, whole, items⟩ := ih hy gb' closed
      refine ⟨before ++ t ++ after ++ ',' :: text, ?_, .cons gb hx ga items⟩
      rw [is, comma, is', skipped, ← List.append_assoc before', whole]
      simp
    · cases read
  | case3 r y s read longer => exact last

/-- What is read behind an opening bracket stands in brackets. -/
theorem bracketed_of_readList (sound : IsSound item Item) (opening : Char)
    (h : readList item close cs = some (xs, rest)) :
    ∃ text, opening :: cs = text ++ rest ∧ Bracketed Item opening close text xs := by
  obtain ⟨before, gb, is⟩ := exists_gap cs
  obtain ⟨skipped, rfl⟩ | ⟨c, r, x, r', skipped, -, read, behind, rfl⟩ := readList_eq_some_iff.1 h
  · refine ⟨opening :: before ++ [close], ?_, .empty gb⟩
    rw [is, skipped]
    simp
  · obtain ⟨t, split, hx⟩ := sound read
    obtain ⟨text, whole, items⟩ := items_of_many sound r' hx gb behind
    refine ⟨opening :: text ++ [close], ?_, .items items⟩
    rw [is, skipped, split, ← List.append_assoc, whole]
    simp

end Brackets

/-! ## Fields -/

theorem isSound_readField {value : Scan Json} {Item : List Char → Json → Prop}
    (sound : IsSound value Item) : IsSound (readField value) (Field Item) := by
  intro cs field rest h
  unfold readField at h
  split at h
  · cases h
  · next k r readName =>
    obtain ⟨name, rfl, hname⟩ := readString_eq_some_iff.1 readName
    split at h
    · next r' colon =>
      obtain ⟨⟨x, left⟩, readItem, ⟨⟩⟩ := Option.map_eq_some_iff.1 h
      obtain ⟨before, gb, is⟩ := exists_gap r
      obtain ⟨after, ga, is'⟩ := exists_gap r'
      obtain ⟨text, skipped, hx⟩ := sound readItem
      refine ⟨name ++ before ++ ':' :: after ++ text, ?_, .named hname gb ga hx⟩
      rw [is, colon, is', skipped]
      simp
    · cases h

/-- A string begins with a quotation mark, which tells it from the other values. -/
theorem StringText.exists_eq_cons {s : String} (h : StringText text s) :
    ∃ cs, text = '"' :: cs := by
  obtain ⟨-⟩ := h
  exact ⟨_, rfl⟩

/-- Any field is read whose value is read; its name needs no bound, as a string ends with its own
mark. -/
theorem isComplete_readField {value : Scan Json} {Item : List Char → Json → Prop}
    (complete : IsComplete value Item n) : IsComplete (readField value) (Field Item) n := by
  constructor
  · intro text field rest short h follows
    obtain @⟨name, before, after, text, k, x, hname, gb, ga, hx⟩ := h
    simp only [List.length_append, List.length_cons] at short
    obtain ⟨c, cs, skipped, is, -⟩ := complete.exists_skipGap ga hx rest
    have readName : readString (name ++ (before ++ ':' :: (after ++ text ++ rest)))
        = some (k, before ++ ':' :: (after ++ text ++ rest)) :=
      readString_eq_some_iff.2 ⟨name, rfl, hname⟩
    have whole : name ++ before ++ ':' :: after ++ text ++ rest
        = name ++ (before ++ ':' :: (after ++ text ++ rest)) := by simp
    unfold readField
    rw [whole, readName]
    simp only
    rw [skipGap_append gb, skipGap_cons (by decide)]
    simp only
    rw [skipped, is, complete.read (by omega) hx follows]
    rfl
  · intro text field h
    obtain ⟨hname, -, -, -⟩ := h
    obtain ⟨cs, rfl⟩ := hname.exists_eq_cons
    exact ⟨'"', _, rfl, by decide⟩

/-! ## Values -/

/-- What is bracketed begins with its bracket. -/
theorem Bracketed.exists_eq_cons {Item : List Char → α → Prop} {opening : Char} {xs : List α}
    (h : Bracketed Item opening close text xs) : ∃ cs, text = opening :: cs := by
  cases h <;> exact ⟨_, rfl⟩

/-- A number begins with a digit or a sign, and nothing else does. -/
theorem Numeral.exists_head (h : Numeral text) :
    ∃ c cs, text = c :: cs ∧ (c.isDigit = true ∨ c = '-') := by
  cases h with
  | positive magnitude =>
    obtain ⟨d, ds, rfl, digit⟩ := magnitude.exists_head
    exact ⟨d, ds, rfl, .inl digit⟩
  | negative _ => exact ⟨'-', _, rfl, .inr rfl⟩

/-- Such a character begins no other value, and follows none. -/
theorem ne_of_isNumeralHead (h : c.isDigit = true ∨ c = '-') {d : Char}
    (other : (d.isDigit || d == '-') = false) : c ≠ d := by
  rintro rfl
  rcases h with digit | rfl
  · rw [digit] at other
    cases other
  · cases other

/-- A value begins neither with a blank nor with what may stand behind another one, so the reader
cannot take the end of a list for an item. -/
theorem exists_head_of_value {j : Json} (h : Value text j) :
    ∃ c cs, text = c :: cs ∧ c ∉ blanks ++ [',', ']', '}'] := by
  cases h with
  | null | true | false => exact ⟨_, _, rfl, by decide⟩
  | number numeral =>
    obtain ⟨c, cs, rfl, head⟩ := numeral.exists_head
    refine ⟨c, cs, rfl, fun mem => ?_⟩
    have other : ∀ d ∈ blanks ++ [',', ']', '}'], (d.isDigit || d == '-') = false := by
      simp [blanks, Char.isDigit]
    exact ne_of_isNumeralHead head (other c mem) rfl
  | string quoted =>
    obtain ⟨cs, rfl⟩ := quoted.exists_eq_cons
    exact ⟨'"', cs, rfl, by decide⟩
  | array items =>
    obtain ⟨cs, rfl⟩ := items.exists_eq_cons
    exact ⟨'[', cs, rfl, by decide⟩
  | object fields =>
    obtain ⟨cs, rfl⟩ := fields.exists_eq_cons
    exact ⟨'{', cs, rfl, by decide⟩

/-- **A value is read** with as many levels as its text has characters. -/
theorem isComplete_readValue (n : Nat) : IsComplete (readValue n) Value n := by
  induction n with
  | zero =>
    refine ⟨fun short h _ => ?_, exists_head_of_value⟩
    -- No value is as short as that.
    obtain ⟨c, cs, rfl, -⟩ := exists_head_of_value h
    cases short
  | succ n ih =>
    refine ⟨fun {text j rest} short h follows => ?_, exists_head_of_value⟩
    cases h with
    | null =>
      simp [readValue, expect]
    | true =>
      simp [readValue, expect]
    | false =>
      simp [readValue, expect]
    | number numeral =>
      -- A number is what is left when the first character opens nothing else.
      obtain ⟨c, cs, rfl, head⟩ := numeral.exists_head
      have noBracket : ¬ (c = '[' ∨ c = '{') :=
        not_or.2 ⟨ne_of_isNumeralHead head rfl, ne_of_isNumeralHead head rfl⟩
      rw [List.cons_append, readValue, if_neg (ne_of_isNumeralHead head rfl),
        if_neg (ne_of_isNumeralHead head rfl), if_neg (ne_of_isNumeralHead head rfl),
        if_neg (ne_of_isNumeralHead head rfl), if_neg noBracket]
      exact readNumber_append numeral follows.endsNumber
    | @string _ s quoted =>
      have read : readString (text ++ rest) = some (s, rest) :=
        readString_eq_some_iff.2 ⟨text, rfl, quoted⟩
      obtain ⟨cs, rfl⟩ := quoted.exists_eq_cons
      rw [List.cons_append] at read
      rw [List.cons_append, readValue, if_pos rfl, read]
      rfl
    | array items =>
      obtain ⟨tail, rfl, read⟩ := readList_append ih (.inl rfl) items short rest
      show (readList (readValue n) ']' (tail ++ rest)).map _ = _
      rw [read]
      rfl
    | object fields =>
      obtain ⟨tail, rfl, read⟩ :=
        readList_append (isComplete_readField ih) (.inr rfl) fields short rest
      show (readList (readField (readValue n)) '}' (tail ++ rest)).map _ = _
      rw [read]
      rfl

/-- What is read without a bracket in front is a value. -/
theorem value_of_readValue (noBracket : ¬ (c = '[' ∨ c = '{')) {j : Json}
    (h : readValue n (c :: cs) = some (j, rest)) :
    ∃ text, c :: cs = text ++ rest ∧ Value text j := by
  unfold readValue at h
  split at h
  · obtain ⟨⟨s, left⟩, read, ⟨⟩⟩ := Option.map_eq_some_iff.1 h
    obtain ⟨text, is, quoted⟩ := readString_eq_some_iff.1 read
    exact ⟨text, is, .string quoted⟩
  · split at h
    · obtain ⟨left, read, ⟨⟩⟩ := Option.map_eq_some_iff.1 h
      exact ⟨_, expect_eq_some_iff.1 read, .null⟩
    · split at h
      · obtain ⟨left, read, ⟨⟩⟩ := Option.map_eq_some_iff.1 h
        exact ⟨_, expect_eq_some_iff.1 read, .true⟩
      · split at h
        · obtain ⟨left, read, ⟨⟩⟩ := Option.map_eq_some_iff.1 h
          exact ⟨_, expect_eq_some_iff.1 read, .false⟩
        · obtain ⟨text, is, numeral, rfl⟩ := numeral_of_readNumber h
          exact ⟨text, is, .number numeral⟩

/-- **What is read is a value**, with any number of levels. -/
theorem isSound_readValue (n : Nat) : IsSound (readValue n) Value := by
  induction n with
  | zero =>
    intro cs j rest h
    cases cs with
    | nil => cases h
    | cons c cs =>
      by_cases bracket : c = '[' ∨ c = '{'
      · rcases bracket with rfl | rfl <;> cases h
      · exact value_of_readValue bracket h
  | succ n ih =>
    intro cs j rest h
    cases cs with
    | nil => cases h
    | cons c cs =>
      by_cases bracket : c = '[' ∨ c = '{'
      · rcases bracket with rfl | rfl
        · obtain ⟨⟨xs, left⟩, read, ⟨⟩⟩ := Option.map_eq_some_iff.1 h
          obtain ⟨text, is, items⟩ := bracketed_of_readList ih '[' read
          exact ⟨text, is, .array items⟩
        · obtain ⟨⟨fs, left⟩, read, ⟨⟩⟩ := Option.map_eq_some_iff.1 h
          obtain ⟨text, is, fields⟩ := bracketed_of_readList (isSound_readField ih) '{' read
          exact ⟨text, is, .object fields⟩
      · exact value_of_readValue bracket h

/-! ## Documents -/

/-- **The reader reads the documents of the grammar**, and no other texts. -/
theorem parse?_eq_some_iff {s : String} {j : Json} : parse? s = some j ↔ Document s j := by
  constructor
  · intro h
    unfold parse? at h
    split at h
    · cases h
    · next j' rest read =>
      split at h
      · next ends =>
        cases h
        obtain ⟨before, gb, is⟩ := exists_gap s.toList
        obtain ⟨after, ga, is'⟩ := exists_gap rest
        obtain ⟨text, skipped, value⟩ := isSound_readValue _ read
        rw [ends, List.append_nil] at is'
        subst is'
        refine .surrounded ?_ gb value ga
        rw [is, skipped, List.append_assoc]
      · cases h
  · rintro @⟨before, text, after, _, whole, gb, value, ga⟩
    -- The text of the value is a part of the whole, so the fuel is enough for it.
    have short : text.length ≤ s.toList.length := by
      rw [whole]
      simp
      omega
    have follows : Follows after := by
      have := Follows.gap_append ga follows_nil
      rwa [List.append_nil] at this
    obtain ⟨c, cs, skipped, is, -⟩ :=
      (isComplete_readValue s.toList.length).exists_skipGap gb value after
    have read := (isComplete_readValue s.toList.length).read short value follows
    rw [← is, ← skipped, ← whole] at read
    unfold parse?
    rw [read]
    simp only
    rw [skipGap_gap ga]
    exact if_pos rfl

/-- A text holds one value at most. -/
theorem Document.unique {s : String} {j j' : Json} (h : Document s j) (h' : Document s j') :
    j = j' :=
  Option.some.inj ((parse?_eq_some_iff.2 h).symm.trans (parse?_eq_some_iff.2 h'))

end BuildVariants.Json
