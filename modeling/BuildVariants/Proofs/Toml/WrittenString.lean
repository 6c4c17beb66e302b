import BuildVariants.Proofs.Text.Hexadecimal
import BuildVariants.Toml.Lexeme

/-!
# Written strings and keys are read back

Every form in which a string or a key is written is taken off the front of a text as what it was
written for, and nothing behind it is touched: `readString_stringText` and
`readSimpleKey_keyText`.

What may follow is the only condition.  A string that ends in quotes would take further quotes
with it, and a bare key would take further letters, so neither may stand right behind.

Between double quotes no condition on the text is needed, because everything that could be misread
is escaped.  Between single quotes nothing can be escaped, and there the choice of the form has to
be looked at: `Form.ofString` takes them only for texts without control characters and without a
run of quotes that could be taken for the end.
-/

namespace BuildVariants

namespace Toml

open Text

/-! ## Escapes -/

/-- Whether a character is written as an escape between double quotes on one line. -/
def isEscaped (c : Char) : Bool :=
  needsEscape c || c == '"' || c == '\n'

theorem isEscaped_of_needsEscape {c : Char} (h : needsEscape c = true) : isEscaped c = true := by
  simp [isEscaped, h]

/-- A character that is not written as an escape stands for itself. -/
theorem isBasicChar_of_not_isEscaped {c : Char} (h : isEscaped c = false) :
    isBasicChar c = true := by
  simp only [isEscaped, needsEscape, isControl, isBasicChar, isCommentChar] at h ⊢
  grind

/-- An escape begins with a backslash, and what stands behind that is read as the character. -/
theorem exists_escape {c : Char} (h : isEscaped c = true) :
    ∃ tail, escape c = '\\' :: tail ∧ (∀ x ∈ tail.head?, ¬ isBlank x ∧ x ≠ '\n' ∧ x ≠ '\r') ∧
      ∀ rest, unescape (tail ++ rest) = some (c, rest) := by
  rw [escape]
  have letter (l : Char) (h : ¬ isBlank l ∧ l ≠ '\n' ∧ l ≠ '\r') :
      ∀ x ∈ [l].head?, ¬ isBlank x ∧ x ≠ '\n' ∧ x ≠ '\r' := by
    intro x hx
    cases hx
    exact h
  by_cases b : c = '\x08'
  · subst b; exact ⟨['b'], rfl, letter 'b' (by decide), fun rest => rfl⟩
  by_cases t : c = '\t'
  · subst t; exact ⟨['t'], rfl, letter 't' (by decide), fun rest => rfl⟩
  by_cases n : c = '\n'
  · subst n; exact ⟨['n'], rfl, letter 'n' (by decide), fun rest => rfl⟩
  by_cases f : c = '\x0c'
  · subst f; exact ⟨['f'], rfl, letter 'f' (by decide), fun rest => rfl⟩
  by_cases r : c = '\r'
  · subst r; exact ⟨['r'], rfl, letter 'r' (by decide), fun rest => rfl⟩
  by_cases q : c = '"'
  · subst q; exact ⟨['"'], rfl, letter '"' (by decide), fun rest => rfl⟩
  by_cases s : c = '\\'
  · subst s; exact ⟨['\\'], rfl, letter '\\' (by decide), fun rest => rfl⟩
  -- What is left are control characters without a letter of their own.
  have small : c.toNat < hexBase 4 := by
    simp [isEscaped, needsEscape, isControl, t, n, q, s] at h
    rw [show hexBase 4 = 65536 by decide]
    omega
  refine ⟨'u' :: hexText false 4 c.toNat, by simp [b, t, n, f, r, q, s], ?_, ?_⟩
  · rintro x ⟨⟩
    decide
  intro rest
  have valid : c.toNat.isValidChar := c.valid
  have letter : letterEscape? 'u' = none := by decide
  simp only [List.cons_append, unescape, letter, if_true, codePoint,
    hexNumber_hexText false small, if_pos valid, Char.ofNat_toNat]

/-! ## Strings on one line -/

theorem basicBody_quote (r : List Char) : basicBody ('"' :: r) = some ([], r) := by
  rw [basicBody, if_pos rfl]

/-- A character that is written as it is stands neither for the end nor for an escape. -/
theorem basicBody_of_isBasicChar {c : Char} (h : isBasicChar c = true) (r : List Char) :
    basicBody (c :: r) = consRead c (basicBody r) := by
  have plain : c ≠ '"' ∧ c ≠ '\\' := by
    simp only [isBasicChar] at h
    grind
  rw [basicBody, if_neg plain.1, if_neg plain.2, if_pos h]

/-- An escape adds one character, whatever the number of its own. -/
theorem basicBody_of_unescape {c : Char} {r r' : List Char} (h : unescape r = some (c, r')) :
    basicBody ('\\' :: r) = consRead c (basicBody r') := by
  rw [basicBody, if_neg (by decide), if_pos rfl]
  split
  · next none => rw [h] at none; cases none
  · next x s eq =>
    rw [h] at eq
    cases eq
    rfl

theorem basicText_cons (c : Char) (cs : List Char) :
    basicText (c :: cs) = (if isEscaped c then escape c else [c]) ++ basicText cs := rfl

/-- Between double quotes on one line every text is read back. -/
theorem basicBody_basicText (cs rest : List Char) :
    basicBody (basicText cs ++ '"' :: rest) = some (cs, rest) := by
  induction cs with
  | nil => exact basicBody_quote rest
  | cons c cs ih =>
    rw [basicText_cons, List.append_assoc]
    by_cases h : isEscaped c = true
    · obtain ⟨tail, escaped, -, read⟩ := exists_escape h
      rw [if_pos h, escaped, List.cons_append, basicBody_of_unescape (read _), ih, consRead_some]
    · have plain := isBasicChar_of_not_isEscaped (Bool.not_eq_true _ ▸ h)
      rw [if_neg h, List.singleton_append, basicBody_of_isBasicChar plain, ih, consRead_some]

/-- A text that can stand between single quotes on one line is read back. -/
theorem literalBody_append {cs : List Char} (plain : ∀ c ∈ cs, isLiteralChar c = true)
    (rest : List Char) : literalBody (cs ++ '\'' :: rest) = some (cs, rest) := by
  induction cs with
  | nil => simp [literalBody]
  | cons c cs ih =>
    have h := plain c List.mem_cons_self
    have notQuote : c ≠ '\'' := by
      simp only [isLiteralChar] at h
      grind
    rw [List.cons_append, literalBody, if_neg notQuote, if_pos h,
      ih fun x hx => plain x (List.mem_cons_of_mem _ hx), consRead_some]

/-! ## Strings on several lines -/

/-- A text is a run of one character, or such a run stops in it. -/
theorem eq_replicate_or_exists (q : Char) (cs : List Char) :
    ∃ k, cs = List.replicate k q ∨ ∃ x xs, x ≠ q ∧ cs = List.replicate k q ++ x :: xs := by
  induction cs with
  | nil => exact ⟨0, Or.inl rfl⟩
  | cons c cs ih =>
    by_cases h : c = q
    · subst h
      obtain ⟨k, all | ⟨x, xs, ne, stop⟩⟩ := ih
      · exact ⟨k + 1, Or.inl (by rw [all, List.replicate_succ])⟩
      · exact ⟨k + 1, Or.inr ⟨x, xs, ne, by rw [stop, List.replicate_succ, List.cons_append]⟩⟩
    · exact ⟨0, Or.inr ⟨c, cs, h, rfl⟩⟩

/-- Up to two quotes in front of the closing ones belong to the text. -/
theorem closing?_replicate {q : Char} {k : Nat} (few : k ≤ 2) {rest : List Char}
    (ends : rest.head? ≠ some q) :
    closing? q (List.replicate k q ++ q :: q :: q :: rest) = some (List.replicate k q, rest) := by
  match k, rest with
  | 0, [] => simp [closing?]
  | 0, [d] => simp [closing?] at ends ⊢; simp [ends]
  | 0, d :: e :: rest => simp [closing?] at ends ⊢; simp [ends]
  | 1, [] => simp [closing?, List.replicate]
  | 1, d :: rest => simp [closing?, List.replicate] at ends ⊢; simp [ends]
  | 2, rest => simp [closing?, List.replicate]
  | k + 3, _ => omega

/-- Up to two quotes in front of another character close nothing. -/
theorem closing?_of_ne {q x : Char} {k : Nat} (few : k ≤ 2) (ne : x ≠ q) (rest : List Char) :
    closing? q (List.replicate k q ++ x :: rest) = none := by
  match k, rest with
  | 0, [] => simp [closing?]
  | 0, [_] => simp [closing?]
  | 0, _ :: _ :: _ => simp [closing?, ne]
  | 1, [] => simp [closing?, List.replicate]
  | 1, _ :: _ => simp [closing?, List.replicate, ne]
  | 2, _ => simp [closing?, List.replicate, ne]
  | k + 3, _ => omega

/-- Whether the string ends is asked first, at every character. -/
theorem multilineBody_of_closing? {cs xs rest : List Char}
    (h : closing? '"' cs = some (xs, rest)) : multilineBody cs = some (xs, rest) := by
  rw [multilineBody.eq_def, h]

/-- Quotes that close nothing belong to the text, like any other character. -/
theorem multilineBody_of_isBasicChar {c : Char} {r : List Char}
    (opened : closing? '"' (c :: r) = none) (h : isBasicChar c = true ∨ c = '"') :
    multilineBody (c :: r) = consRead c (multilineBody r) := by
  have notSlash : c ≠ '\\' := by
    rcases h with h | rfl
    · simp only [isBasicChar] at h
      grind
    · decide
  rw [multilineBody, opened]
  simp [notSlash, h]

/-- A line break belongs to the text, and stays the one it is. -/
theorem multilineBody_newline (r : List Char) :
    multilineBody ('\n' :: r) = consRead '\n' (multilineBody r) := by
  have opened : closing? '"' ('\n' :: r) = none := closing?_of_ne (k := 0) (by omega) (by decide) r
  rw [multilineBody, opened]
  simp only [show ('\n' = '\\') = False by decide,
    show (isBasicChar '\n' || '\n' == '"') = false by decide, if_false, Bool.false_eq_true]
  split
  · next none => cases none
  · next s eq =>
    cases eq
    rfl

/-- A backslash continues a line only if a line break follows it, perhaps behind blanks; no escape
begins like that. -/
theorem continuation?_eq_none {cs : List Char}
    (h : ∀ x ∈ cs.head?, ¬ isBlank x ∧ x ≠ '\n' ∧ x ≠ '\r') : continuation? cs = none := by
  match cs with
  | [] => rfl
  | c :: cs =>
    obtain ⟨notBlank, notNewline, notReturn⟩ := h c rfl
    have stays : skipBlanks (c :: cs) = c :: cs := List.dropWhile_cons_of_neg notBlank
    rw [continuation?, stays, lineBreak?.eq_def]
    split <;> simp_all

/-- An escape adds one character if it does not continue the line. -/
theorem multilineBody_of_unescape {c : Char} {r r' : List Char}
    (noLineBreak : continuation? r = none) (h : unescape r = some (c, r')) :
    multilineBody ('\\' :: r) = consRead c (multilineBody r') := by
  have opened : closing? '"' ('\\' :: r) = none := closing?_of_ne (k := 0) (by omega) (by decide) r
  rw [multilineBody, opened]
  simp only [if_true]
  split
  · next s eq => rw [noLineBreak] at eq; cases eq
  · split
    · next none => rw [h] at none; cases none
    · next x s eq =>
      rw [h] at eq
      cases eq
      rfl

/-- Between triple double quotes no third quote in a row is written as it is: what is written ends
with at most two of them, or they stop at another character. -/
theorem multilineText_runs (cs : List Char) : ∀ run ≤ 2,
    ∃ k, run + k ≤ 2 ∧
      ((cs = List.replicate k '"' ∧ multilineText run cs = List.replicate k '"') ∨
        ∃ x xs, x ≠ '"' ∧ multilineText run cs = List.replicate k '"' ++ x :: xs) := by
  induction cs with
  | nil => exact fun run few => ⟨0, few, Or.inl ⟨rfl, rfl⟩⟩
  | cons c cs ih =>
    intro run few
    by_cases quote : c = '"'
    · subst quote
      -- A third quote in a row is escaped, so a backslash stops the run.
      by_cases third : run = 2
      · exact ⟨0, few, Or.inr ⟨'\\', '"' :: multilineText 0 cs, by decide, by
          simp [multilineText, third, escape]⟩⟩
      · obtain ⟨k, few', h⟩ := ih (run + 1) (by omega)
        refine ⟨k + 1, by omega, ?_⟩
        rw [multilineText, if_pos rfl, if_neg third, List.replicate_succ]
        obtain ⟨all, written⟩ | ⟨x, xs, ne, written⟩ := h
        · exact Or.inl ⟨by rw [all], by rw [written]⟩
        · exact Or.inr ⟨x, xs, ne, by rw [written, List.cons_append]⟩
    · rw [multilineText, if_neg quote]
      by_cases h : needsEscape c = true
      · obtain ⟨tail, escaped, -, -⟩ := exists_escape (isEscaped_of_needsEscape h)
        exact ⟨0, few, Or.inr ⟨'\\', tail ++ multilineText 0 cs, by decide, by
          rw [if_pos h, escaped]; rfl⟩⟩
      · exact ⟨0, few, Or.inr ⟨c, multilineText 0 cs, quote, by rw [if_neg h]; rfl⟩⟩

/-- Between triple double quotes every text is read back. -/
theorem multilineBody_multilineText (cs : List Char) {rest : List Char}
    (ends : rest.head? ≠ some '"') : ∀ run ≤ 2,
      multilineBody (multilineText run cs ++ '"' :: '"' :: '"' :: rest) = some (cs, rest) := by
  induction cs with
  | nil =>
    exact fun run _ => multilineBody_of_closing? (closing?_replicate (k := 0) (by omega) ends)
  | cons c cs ih =>
    intro run few
    obtain ⟨k, few', ⟨all, written⟩ | ⟨x, xs, ne, written⟩⟩ := multilineText_runs (c :: cs) run few
    · rw [written, all]
      exact multilineBody_of_closing? (closing?_replicate (by omega) ends)
    -- The quotes in front do not close the string, so the first character is read for itself.
    have opened : closing? '"'
        (multilineText run (c :: cs) ++ '"' :: '"' :: '"' :: rest) = none := by
      rw [written, List.append_assoc, List.cons_append]
      exact closing?_of_ne (by omega) ne _
    rw [multilineText] at opened ⊢
    by_cases quote : c = '"'
    · subst quote
      by_cases third : run = 2
      · rw [if_pos rfl, if_pos third, show escape '"' = ['\\', '"'] by decide, List.append_assoc,
          List.cons_append, List.singleton_append, multilineBody_of_unescape rfl rfl,
          ih 0 (by omega), consRead_some]
      · rw [if_pos rfl, if_neg third, List.cons_append] at opened ⊢
        rw [multilineBody_of_isBasicChar opened (Or.inr rfl), ih (run + 1) (by omega),
          consRead_some]
    · rw [if_neg quote] at opened ⊢
      by_cases h : needsEscape c = true
      · obtain ⟨tail, escaped, head, read⟩ := exists_escape (isEscaped_of_needsEscape h)
        rw [if_pos h, escaped, List.append_assoc, List.cons_append]
        have noLineBreak : continuation?
            (tail ++ (multilineText 0 cs ++ '"' :: '"' :: '"' :: rest)) = none := by
          refine continuation?_eq_none fun x hx => head x ?_
          match tail with
          | [] => cases read []
          | y :: ys => exact hx
        rw [multilineBody_of_unescape noLineBreak (read _), ih 0 (by omega), consRead_some]
      · rw [if_neg h, List.cons_append] at opened ⊢
        by_cases newline : c = '\n'
        · rw [newline, multilineBody_newline, ih 0 (by omega), consRead_some]
        · have plain : isBasicChar c = true :=
            isBasicChar_of_not_isEscaped (by simp [isEscaped, h, quote, newline])
          rw [multilineBody_of_isBasicChar opened (Or.inl plain), ih 0 (by omega), consRead_some]

/-- A longest run is at least as long as the run that is counted and the longest one before. -/
theorem max_le_longestRun (q : Char) (cs : List Char) :
    ∀ current longest, max current longest ≤ longestRun q current longest cs := by
  induction cs with
  | nil => exact fun current longest => Nat.le_refl _
  | cons c cs ih =>
    intro current longest
    rw [longestRun]
    split
    · have := ih (current + 1) longest
      omega
    · have := ih 0 (max current longest)
      omega

/-- A run at the beginning of a text is counted on. -/
theorem add_le_longestRun_replicate (q : Char) (k : Nat) (cs : List Char) :
    ∀ current longest, current + k ≤ longestRun q current longest (List.replicate k q ++ cs) := by
  induction k with
  | zero =>
    intro current longest
    exact Nat.le_trans (Nat.le_max_left ..) (max_le_longestRun q cs current longest)
  | succ k ih =>
    intro current longest
    rw [List.replicate_succ, List.cons_append, longestRun, if_pos rfl]
    have := ih (current + 1) longest
    omega

theorem multilineLiteralBody_of_closing? {cs xs rest : List Char}
    (h : closing? '\'' cs = some (xs, rest)) :
    multilineLiteralBody cs = some (xs, rest) := by
  rw [multilineLiteralBody.eq_def, h]

theorem multilineLiteralBody_of_isLiteralChar {c : Char} {r : List Char}
    (opened : closing? '\'' (c :: r) = none) (h : isLiteralChar c = true ∨ c = '\'') :
    multilineLiteralBody (c :: r) = consRead c (multilineLiteralBody r) := by
  rw [multilineLiteralBody, opened]
  simp [h]

/-- A line break is the one control character that may stand between triple single quotes as it
is. -/
theorem multilineLiteralBody_newline (r : List Char) :
    multilineLiteralBody ('\n' :: r) = consRead '\n' (multilineLiteralBody r) := by
  have opened : closing? '\'' ('\n' :: r) = none :=
    closing?_of_ne (k := 0) (by omega) (by decide) r
  rw [multilineLiteralBody, opened]
  simp only [show (isLiteralChar '\n' || '\n' == '\'') = false by decide, Bool.false_eq_true,
    if_false]
  split
  · next none => cases none
  · next s eq =>
    cases eq
    rfl

/-- A character that is no control character can stand between single quotes, unless it is a quote
or a line break. -/
theorem isLiteralChar_of_not_isControl {c : Char} (h : isControl c = false) (quote : c ≠ '\'')
    (newline : c ≠ '\n') : isLiteralChar c = true := by
  simp only [isControl, isLiteralChar, isCommentChar] at h ⊢
  grind

/-- Between triple single quotes a text without control characters and without three quotes in a
row is read back. -/
theorem multilineLiteralBody_append {rest : List Char} (ends : rest.head? ≠ some '\'')
    (cs : List Char) :
    ∀ current longest, longestRun '\'' current longest cs ≤ 2 →
      (∀ c ∈ cs, isControl c = false) →
      multilineLiteralBody (cs ++ '\'' :: '\'' :: '\'' :: rest) = some (cs, rest) := by
  induction cs with
  | nil =>
    intro _ _ _ _
    exact multilineLiteralBody_of_closing? (closing?_replicate (k := 0) (by omega) ends)
  | cons c cs ih =>
    intro current longest runs plain
    -- Either only quotes are left, and they stand in front of the closing ones, or they stop.
    obtain ⟨k, all | ⟨x, xs, ne, stop⟩⟩ := eq_replicate_or_exists '\'' (c :: cs)
    · have few := add_le_longestRun_replicate '\'' k [] current longest
      rw [List.append_nil, ← all] at few
      rw [all]
      exact multilineLiteralBody_of_closing? (closing?_replicate (by omega) ends)
    have few := add_le_longestRun_replicate '\'' k (x :: xs) current longest
    rw [← stop] at few
    have opened : closing? '\'' (c :: cs ++ '\'' :: '\'' :: '\'' :: rest) = none := by
      rw [stop, List.append_assoc, List.cons_append]
      exact closing?_of_ne (by omega) ne _
    have body : multilineLiteralBody (cs ++ '\'' :: '\'' :: '\'' :: rest) = some (cs, rest) := by
      rw [longestRun] at runs
      split at runs
      · exact ih _ _ runs fun y hy => plain y (List.mem_cons_of_mem _ hy)
      · exact ih _ _ runs fun y hy => plain y (List.mem_cons_of_mem _ hy)
    rw [List.cons_append] at opened ⊢
    by_cases newline : c = '\n'
    · rw [newline, multilineLiteralBody_newline, body, consRead_some]
    · have h : isLiteralChar c = true ∨ c = '\'' := by
        by_cases quote : c = '\''
        · exact Or.inr quote
        · exact Or.inl
            (isLiteralChar_of_not_isControl (plain c List.mem_cons_self) quote newline)
      rw [multilineLiteralBody_of_isLiteralChar opened h, body, consRead_some]

/-! ## Strings in all forms -/

/-- The line break that is written behind an opening triple quote is passed over, and no other. -/
theorem skipOpeningBreak_openingBreak {cs r : List Char}
    (h : '\n' ∉ cs → ∀ x ∈ r.head?, x ≠ '\n' ∧ x ≠ '\r') :
    skipOpeningBreak (openingBreak cs ++ r) = r := by
  rw [openingBreak]
  by_cases newline : '\n' ∈ cs
  · rw [if_pos (by simpa using newline)]
    rfl
  · rw [if_neg (by simpa using newline), List.nil_append, skipOpeningBreak]
    have none : lineBreak? r = none := by
      rw [lineBreak?.eq_def]
      split
      · exact absurd rfl (h newline '\n' rfl).1
      · exact absurd rfl (h newline '\r' rfl).2
      · rfl
    rw [none, Option.getD_none]

/-- A string is on one line if its opening quote is not followed by two more. -/
theorem readString_basic {r : List Char} (h : ∀ s, r ≠ '"' :: '"' :: s) :
    readString ('"' :: r) = basicBody r := by
  rw [readString.eq_def]
  split <;> simp_all

theorem readString_literal {r : List Char} (h : ∀ s, r ≠ '\'' :: '\'' :: s) :
    readString ('\'' :: r) = literalBody r := by
  rw [readString.eq_def]
  split <;> simp_all

/-- What may follow a string: no quote of either kind. -/
def NoQuoteAhead (rest : List Char) : Prop :=
  ∀ c ∈ rest.head?, c ≠ '"' ∧ c ≠ '\''

/-- No quote of either kind follows, so the closing ones are not taken for a part of the text. -/
theorem NoQuoteAhead.ne_double {rest : List Char} (h : NoQuoteAhead rest) :
    rest.head? ≠ some '"' := fun eq => (h '"' eq).1 rfl

theorem NoQuoteAhead.ne_single {rest : List Char} (h : NoQuoteAhead rest) :
    rest.head? ≠ some '\'' := fun eq => (h '\'' eq).2 rfl

/-- The empty string is the one to look at, as its two quotes could be the beginning of three. -/
theorem readString_write_basic (cs : List Char) {rest : List Char} (ends : NoQuoteAhead rest) :
    readString (Form.basic.write cs ++ rest) = some (cs, rest) := by
  have written : Form.basic.write cs ++ rest = '"' :: (basicText cs ++ '"' :: rest) := by
    simp [Form.write]
  rw [written, readString_basic, basicBody_basicText]
  -- Two further quotes would open a string on several lines.
  intro s eq
  match cs with
  | [] =>
    rw [basicText, List.flatMap_nil, List.nil_append, List.cons.injEq] at eq
    exact ends.ne_double (by rw [eq.2]; rfl)
  | c :: cs =>
    rw [basicText_cons] at eq
    by_cases h : isEscaped c = true
    · obtain ⟨tail, escaped, -, -⟩ := exists_escape h
      rw [if_pos h, escaped] at eq
      simp at eq
    · rw [if_neg h, List.singleton_append, List.cons_append, List.cons.injEq] at eq
      exact h (by rw [eq.1]; decide)

/-- The same between single quotes, for a text that can stand there. -/
theorem readString_write_literal {cs : List Char} (plain : ∀ c ∈ cs, isLiteralChar c = true)
    {rest : List Char} (ends : NoQuoteAhead rest) :
    readString (Form.literal.write cs ++ rest) = some (cs, rest) := by
  have written : Form.literal.write cs ++ rest = '\'' :: (cs ++ '\'' :: rest) := by
    simp [Form.write]
  rw [written, readString_literal, literalBody_append plain]
  -- Here, too, no two quotes may follow the first one.
  intro s eq
  match cs with
  | [] =>
    rw [List.nil_append, List.cons.injEq] at eq
    exact ends.ne_single (by rw [eq.2]; rfl)
  | c :: cs =>
    rw [List.cons_append, List.cons.injEq] at eq
    have := plain c List.mem_cons_self
    rw [eq.1] at this
    exact absurd this (by decide)

/-- Between triple double quotes every text is read back; where it has a line break, the first one
is written for the reader to pass over. -/
theorem readString_write_multilineBasic (cs : List Char) {rest : List Char}
    (ends : NoQuoteAhead rest) :
    readString (Form.multilineBasic.write cs ++ rest) = some (cs, rest) := by
  have written : Form.multilineBasic.write cs ++ rest
      = '"' :: '"' :: '"' ::
        (openingBreak cs ++ (multilineText 0 cs ++ '"' :: '"' :: '"' :: rest)) := by
    simp [Form.write]
  rw [written, readString, skipOpeningBreak_openingBreak]
  · exact multilineBody_multilineText cs ends.ne_double 0 (by omega)
  intro noNewline
  match cs with
  | [] => rintro x ⟨⟩; decide
  | c :: cs =>
    have ne : c ≠ '\n' := fun eq => noNewline (eq ▸ List.mem_cons_self)
    rw [multilineText]
    split
    · next quote =>
      rw [quote, show escape '"' = ['\\', '"'] by decide]
      split
      · rintro x ⟨⟩; decide
      · rintro x ⟨⟩; decide
    · split
      · next h =>
        obtain ⟨tail, escaped, -, -⟩ := exists_escape (isEscaped_of_needsEscape h)
        rw [escaped, List.append_assoc, List.cons_append]
        rintro x ⟨⟩
        decide
      · next h =>
        rintro x ⟨⟩
        refine ⟨ne, ?_⟩
        rintro rfl
        exact h (by decide)

/-- Between triple single quotes a text is read back if it could be written there. -/
theorem readString_write_multilineLiteral {cs : List Char}
    (plain : ∀ c ∈ cs, isControl c = false) (runs : singleRun cs ≤ 2) {rest : List Char}
    (ends : NoQuoteAhead rest) :
    readString (Form.multilineLiteral.write cs ++ rest) = some (cs, rest) := by
  have written : Form.multilineLiteral.write cs ++ rest
      = '\'' :: '\'' :: '\'' :: (openingBreak cs ++ (cs ++ '\'' :: '\'' :: '\'' :: rest)) := by
    simp [Form.write]
  rw [written, readString, skipOpeningBreak_openingBreak]
  · exact multilineLiteralBody_append ends.ne_single cs 0 0 runs plain
  intro noNewline
  match cs with
  | [] => rintro x ⟨⟩; decide
  | c :: cs =>
    rintro x ⟨⟩
    refine ⟨fun eq => noNewline (eq ▸ List.mem_cons_self), ?_⟩
    rintro rfl
    exact absurd (plain '\r' List.mem_cons_self) (by decide)

/-- A text without a run of a character does not have the character. -/
theorem notMem_of_longestRun_eq_zero {q : Char} (cs : List Char) :
    ∀ current longest, longestRun q current longest cs = 0 → q ∉ cs := by
  induction cs with
  | nil => exact fun _ _ _ => List.not_mem_nil
  | cons c cs ih =>
    intro current longest h
    rw [longestRun] at h
    split at h
    · have := max_le_longestRun q cs (current + 1) longest
      omega
    · next ne =>
      rw [List.mem_cons, not_or]
      exact ⟨Ne.symm ne, ih _ _ h⟩

/-- **Every string is read back** from the form it is written in. -/
theorem readString_stringText (s : String) {rest : List Char} (ends : NoQuoteAhead rest) :
    readString (stringText s ++ rest) = some (s.toList, rest) := by
  rw [stringText, Form.ofString]
  generalize s.toList = cs
  split
  · exact readString_write_basic cs ends
  split
  · next h =>
    simp only [Bool.and_eq_true, Bool.not_eq_true', List.any_eq_false, decide_eq_true_eq] at h
    -- Single quotes on one line: no control character, no quote and no line break.
    obtain ⟨⟨coded, single⟩, newline⟩ := h
    refine readString_write_literal (fun c hc => ?_) ends
    refine isLiteralChar_of_not_isControl (Bool.not_eq_true _ ▸ coded c hc) ?_ ?_
    · rintro rfl
      exact notMem_of_longestRun_eq_zero cs 0 0 single hc
    · rintro rfl
      simp [hc] at newline
  split
  · exact readString_write_multilineBasic cs ends
  split
  · next h =>
    simp only [Bool.and_eq_true, Bool.not_eq_true', List.any_eq_false, decide_eq_true_eq] at h
    exact readString_write_multilineLiteral
      (fun c hc => Bool.not_eq_true _ ▸ h.1 c hc) h.2 ends
  split
  · exact readString_write_multilineBasic cs ends
  · exact readString_write_basic cs ends

/-! ## Keys -/

/-- What may follow a bare key: no further letter of one. -/
def NoKeyAhead (rest : List Char) : Prop :=
  ∀ c ∈ rest.head?, isBareKeyChar c = false

/-- A bare key is read up to the first character that cannot stand in one. -/
theorem readSimpleKey_bare {cs : List Char} (nonempty : cs ≠ [])
    (bare : ∀ c ∈ cs, isBareKeyChar c = true) {rest : List Char} (ends : NoKeyAhead rest) :
    readSimpleKey (cs ++ rest) = some (String.ofList cs, rest) := by
  obtain ⟨c, cs, rfl⟩ := List.exists_cons_of_ne_nil nonempty
  have stop : rest.takeWhile isBareKeyChar = [] ∧ rest.dropWhile isBareKeyChar = rest := by
    match rest with
    | [] => exact ⟨rfl, rfl⟩
    | x :: xs => simp [ends x rfl]
  have taken : ((c :: cs) ++ rest).takeWhile isBareKeyChar = c :: cs := by
    rw [List.takeWhile_append_of_pos bare, stop.1, List.append_nil]
  have left : ((c :: cs) ++ rest).dropWhile isBareKeyChar = rest := by
    rw [List.dropWhile_append_of_pos bare, stop.2]
  -- A bare key begins with neither quote.
  have head := bare c List.mem_cons_self
  rw [readSimpleKey.eq_def]
  split
  · next eq =>
    rw [List.cons_append, List.cons.injEq] at eq
    exact absurd (eq.1 ▸ head) (by decide)
  · next eq =>
    rw [List.cons_append, List.cons.injEq] at eq
    exact absurd (eq.1 ▸ head) (by decide)
  · rw [taken, left]
    rfl

/-- A key between double quotes is read back, whatever it holds and whatever follows. -/
theorem readSimpleKey_write_basic (cs rest : List Char) :
    readSimpleKey (Form.basic.write cs ++ rest) = some (String.ofList cs, rest) := by
  have written : Form.basic.write cs ++ rest = '"' :: (basicText cs ++ '"' :: rest) := by
    simp [Form.write]
  rw [written, readSimpleKey, basicBody_basicText, Option.map_some]

theorem readSimpleKey_write_literal {cs : List Char} (plain : ∀ c ∈ cs, isLiteralChar c = true)
    (rest : List Char) :
    readSimpleKey (Form.literal.write cs ++ rest) = some (String.ofList cs, rest) := by
  have written : Form.literal.write cs ++ rest = '\'' :: (cs ++ '\'' :: rest) := by
    simp [Form.write]
  rw [written, readSimpleKey, literalBody_append plain, Option.map_some]

/-- **Every key is read back** from the form it is written in. -/
theorem readSimpleKey_keyText (k : String) {rest : List Char} (ends : NoKeyAhead rest) :
    readSimpleKey (keyText k ++ rest) = some (k, rest) := by
  suffices readSimpleKey (keyText k ++ rest) = some (String.ofList k.toList, rest) by
    rwa [String.ofList_toList] at this
  rw [keyText]
  generalize k.toList = cs
  split
  · next h =>
    simp only [Bool.and_eq_true, Bool.not_eq_true', List.isEmpty_eq_false_iff, List.all_eq_true]
      at h
    exact readSimpleKey_bare h.1 h.2 ends
  split
  · exact readSimpleKey_write_basic cs rest
  split
  · next h =>
    simp only [Bool.and_eq_true, Bool.not_eq_true', List.any_eq_false, List.contains_eq_mem,
      decide_eq_false_iff_not] at h
    refine readSimpleKey_write_literal (fun c hc => ?_) rest
    have coded := h.1 c hc
    simp only [Bool.or_eq_true, beq_iff_eq, not_or, Bool.not_eq_true] at coded
    exact isLiteralChar_of_not_isControl coded.1 (fun eq => h.2 (eq ▸ hc)) coded.2
  · exact readSimpleKey_write_basic cs rest

end Toml

end BuildVariants
