import BuildVariants.Json.Reader
import BuildVariants.Proofs.Json.Grammar
import Mathlib.Data.List.TakeWhile

/-!
# Strings and numbers

The reader takes a string off the front of a text just as the grammar has it, whatever stands behind
(`readString_eq_some_iff`).  Of a number it takes as much as it can, so there it matters that what
stands behind does not go on with the number (`EndsNumber`).
-/

namespace BuildVariants.Json

open Text

variable {cs rest text : List Char} {c : Char}

/-! ## Characters of a string -/

/-- The escapes of one letter are read by a table. -/
theorem unescape_short {letter : Char} (h : (letter, c) ∈ shortEscapes) (rest : List Char) :
    unescape (letter :: rest) = some (c, rest) := by
  simp only [shortEscapes, List.mem_cons, Prod.mk.injEq, List.not_mem_nil, or_false] at h
  rcases h with ⟨rfl, rfl⟩ | ⟨rfl, rfl⟩ | ⟨rfl, rfl⟩ | ⟨rfl, rfl⟩ | ⟨rfl, rfl⟩ | ⟨rfl, rfl⟩ |
    ⟨rfl, rfl⟩ | ⟨rfl, rfl⟩ <;> rfl

/-- The reader of hexadecimal numbers reads just the four digits of the grammar, with their
value. -/
theorem hexNumber_eq_some_iff_fourDigits {n : Nat} :
    hexNumber 4 0 cs = some (n, rest) ↔ ∃ digits, cs = digits ++ rest ∧ FourDigits digits n :=
  hexNumber_eq_some_iff

/-- Four digits that are no half of a pair stand for the character of that number. -/
theorem unescape_code {digits : List Char} {n : Nat} (h : FourDigits digits n)
    (whole : ¬ (0xd800 ≤ n ∧ n ≤ 0xdfff)) (rest : List Char) :
    unescape ('u' :: (digits ++ rest)) = some (Char.ofNat n, rest) := by
  have read : hexNumber 4 0 (digits ++ rest) = some (n, rest) :=
    hexNumber_eq_some_iff_fourDigits.2 ⟨digits, rfl, h⟩
  rw [unescape, read]
  simp only
  rw [if_neg (by omega), if_neg (by omega)]

/-- Two halves of a pair stand for one character beyond the first plane. -/
theorem unescape_pair {high low : List Char} {h l : Nat} (hh : FourDigits high h)
    (above : 0xd800 ≤ h) (below : h ≤ 0xdbff) (hl : FourDigits low l) (above' : 0xdc00 ≤ l)
    (below' : l ≤ 0xdfff) (rest : List Char) :
    unescape ('u' :: (high ++ '\\' :: 'u' :: (low ++ rest)))
      = some (Char.ofNat (0x10000 + (h - 0xd800) * 0x400 + (l - 0xdc00)), rest) := by
  have readHigh : hexNumber 4 0 (high ++ '\\' :: 'u' :: (low ++ rest))
      = some (h, '\\' :: 'u' :: (low ++ rest)) :=
    hexNumber_eq_some_iff_fourDigits.2 ⟨high, rfl, hh⟩
  have readLow : hexNumber 4 0 (low ++ rest) = some (l, rest) :=
    hexNumber_eq_some_iff_fourDigits.2 ⟨low, rfl, hl⟩
  rw [unescape, readHigh]
  simp only
  rw [if_pos ⟨above, below⟩, lowSurrogate, readLow]
  simp only
  rw [if_pos ⟨above', below'⟩]

theorem stringBody_of_unescape {r : List Char} (h : unescape r = some (c, rest)) :
    stringBody ('\\' :: r) = consRead c (stringBody rest) := by
  rw [stringBody, if_neg (by decide), if_pos rfl]
  split
  · next none =>
    rw [h] at none
    cases none
  · next read =>
    rw [h] at read
    cases read
    rfl

/-- A character is read in front of the others. -/
theorem stringBody_of_charText (h : CharText text c) (rest : List Char) :
    stringBody (text ++ rest) = consRead c (stringBody rest) := by
  cases h with
  | plain visible noQuote noEscape =>
    rw [List.singleton_append, stringBody, if_neg noQuote, if_neg noEscape, if_neg (by omega)]
  | short letter => exact stringBody_of_unescape (unescape_short letter rest)
  | code digits whole => exact stringBody_of_unescape (unescape_code digits whole rest)
  | pair hh above below hl above' below' =>
    refine stringBody_of_unescape ?_
    show unescape ('u' :: (_ ++ '\\' :: 'u' :: _ ++ rest)) = _
    rw [List.append_assoc]
    exact unescape_pair hh above below hl above' below' rest

/-- The body of a string is read up to its closing mark. -/
theorem stringBody_of_characters {body xs : List Char} (h : Characters body xs)
    (rest : List Char) : stringBody (body ++ '"' :: rest) = some (xs, rest) := by
  induction h with
  | nil => rw [List.nil_append, stringBody, if_pos rfl]
  | cons first _ ih => rw [List.append_assoc, stringBody_of_charText first, ih, consRead_some]

/-- What is read behind a backslash is an escape. -/
theorem charText_of_unescape (h : unescape cs = some (c, rest)) :
    ∃ tail, cs = tail ++ rest ∧ CharText ('\\' :: tail) c := by
  unfold unescape at h
  split at h
  · next cs =>
    split at h
    · cases h
    · next n r read =>
      obtain ⟨digits, rfl, four⟩ := hexNumber_eq_some_iff_fourDigits.1 read
      split at h
      · -- The first half of a pair has to be followed by the second one.
        next high =>
        unfold lowSurrogate at h
        split at h
        · next r =>
          split at h
          · cases h
          · next l r' readLow =>
            obtain ⟨digits', rfl, four'⟩ := hexNumber_eq_some_iff_fourDigits.1 readLow
            split at h
            · next low =>
              simp only [Option.some.injEq, Prod.mk.injEq] at h
              obtain ⟨rfl, rfl⟩ := h
              refine ⟨'u' :: (digits ++ '\\' :: 'u' :: digits'), ?_,
                .pair four high.1 high.2 four' low.1 low.2⟩
              rw [List.cons_append, List.append_assoc]
              rfl
            · cases h
        · cases h
      · next notHigh =>
        split at h
        · cases h
        · next notLow =>
          cases h
          exact ⟨'u' :: digits, rfl, .code four (by omega)⟩
  -- The other escapes are letters of the table.
  all_goals cases h
  all_goals exact ⟨[_], rfl, .short (by simp [shortEscapes])⟩

/-- What is read up to the closing quote is characters of a string. -/
theorem characters_of_stringBody {xs : List Char} (h : stringBody cs = some (xs, rest)) :
    ∃ body, cs = body ++ '"' :: rest ∧ Characters body xs := by
  -- The induction is on the recursion of the reader.
  fun_induction stringBody cs generalizing xs with
  | case1 => cases h
  | case2 r =>
    cases h
    exact ⟨[], rfl, .nil⟩
  | case3 => cases h
  | case4 r x r' read _ ih =>
    obtain ⟨⟨ys, left⟩, readRest, ⟨⟩⟩ := Option.map_eq_some_iff.1 h
    obtain ⟨body, rfl, characters⟩ := ih readRest
    obtain ⟨tail, rfl, first⟩ := charText_of_unescape read
    refine ⟨'\\' :: tail ++ body, ?_, .cons first characters⟩
    simp
  | case5 => cases h
  | case6 c r noQuote noEscape visible ih =>
    obtain ⟨⟨ys, left⟩, readRest, ⟨⟩⟩ := Option.map_eq_some_iff.1 h
    obtain ⟨body, rfl, characters⟩ := ih readRest
    exact ⟨c :: body, rfl, .cons (.plain (by omega) noQuote noEscape) characters⟩

/-- **A string is read just where one stands.** -/
theorem readString_eq_some_iff {s : String} :
    readString cs = some (s, rest) ↔ ∃ text, cs = text ++ rest ∧ StringText text s := by
  constructor
  · intro h
    unfold readString at h
    split at h
    · obtain ⟨⟨xs, left⟩, readBody, ⟨⟩⟩ := Option.map_eq_some_iff.1 h
      obtain ⟨body, rfl, characters⟩ := characters_of_stringBody readBody
      refine ⟨'"' :: body ++ ['"'], ?_, .quoted characters⟩
      simp
    · cases h
  · rintro ⟨_, rfl, ⟨characters⟩⟩
    rw [List.cons_append, List.cons_append, List.append_assoc, List.singleton_append, readString,
      stringBody_of_characters characters]
    rfl

/-! ## Parts of a number -/

/-- No digit goes on with a number that ends here. -/
def NoDigit (rest : List Char) : Prop :=
  ∀ c ∈ rest.head?, c.isDigit = false

/-- What stands behind a number does not go on with it. -/
structure EndsNumber (rest : List Char) : Prop where
  noDigit : NoDigit rest
  noPoint : rest.head? ≠ some '.'
  noExponent : ∀ e ∈ rest.head?, ¬ (e = 'e' ∨ e = 'E')

/-- All digits are read, if what follows is none. -/
theorem digits_append (h : Digits text) (ends : NoDigit rest) :
    digits (text ++ rest) = some (text, rest) := by
  have taken : rest.takeWhile Char.isDigit = [] ∧ rest.dropWhile Char.isDigit = rest := by
    cases rest with
    | nil => exact ⟨rfl, rfl⟩
    | cons c cs =>
      have other : c.isDigit = false := ends c rfl
      rw [List.takeWhile_cons, List.dropWhile_cons, other]
      exact ⟨rfl, rfl⟩
  unfold digits
  rw [List.takeWhile_append_of_pos h.all, List.dropWhile_append_of_pos h.all, taken.1, taken.2,
    List.append_nil, List.isEmpty_eq_false_iff.2 h.nonempty]
  rfl

theorem digits_of_digits {ds : List Char} (h : digits cs = some (ds, rest)) :
    cs = ds ++ rest ∧ Digits ds := by
  unfold digits at h
  split at h
  · cases h
  · next some =>
    cases h
    refine ⟨(List.takeWhile_append_dropWhile).symm, ?_, fun c mem => List.mem_takeWhile_imp mem⟩
    rwa [List.isEmpty_iff] at some

/-- The whole part is read to its end; a leading zero stands alone. -/
theorem wholePart_append (h : WholePart text) (ends : NoDigit rest) :
    wholePart (text ++ rest) = some (text, rest) := by
  cases h with
  | zero => rfl
  | digits ds noZero =>
    unfold wholePart
    split
    · next r is =>
      cases text with
      | nil => exact absurd rfl ds.nonempty
      | cons c cs =>
        cases is
        exact absurd rfl noZero
    · exact digits_append ds ends

theorem wholePart_of_wholePart {whole : List Char} (h : wholePart cs = some (whole, rest)) :
    cs = whole ++ rest ∧ WholePart whole := by
  unfold wholePart at h
  split at h
  · cases h
    exact ⟨rfl, .zero⟩
  · next noZero =>
    obtain ⟨rfl, ds⟩ := digits_of_digits h
    refine ⟨rfl, .digits ds fun zero => ?_⟩
    obtain ⟨more, rfl⟩ := List.head?_eq_some_iff.1 zero
    exact noZero _ rfl

/-- The fraction is read to its end, or nothing where there is none; no point may follow. -/
theorem fractionPart_append (h : FractionPart text) (ends : NoDigit rest)
    (noPoint : rest.head? ≠ some '.') : fractionPart (text ++ rest) = some (text, rest) := by
  cases h with
  | none =>
    rw [List.nil_append]
    unfold fractionPart
    split
    · exact absurd rfl noPoint
    · rfl
  | digits ds => rw [List.cons_append, fractionPart, digits_append ds ends, consRead_some]

theorem fractionPart_of_fractionPart {fraction : List Char}
    (h : fractionPart cs = some (fraction, rest)) :
    cs = fraction ++ rest ∧ FractionPart fraction := by
  unfold fractionPart at h
  split at h
  · obtain ⟨⟨ds, left⟩, readDigits, ⟨⟩⟩ := Option.map_eq_some_iff.1 h
    obtain ⟨rfl, ds⟩ := digits_of_digits readDigits
    exact ⟨rfl, .digits ds⟩
  · cases h
    exact ⟨rfl, .none⟩

/-- The exponent is read to its end, or nothing where there is none; its letter may not follow. -/
theorem exponentPart_append (h : ExponentPart text) (ends : NoDigit rest)
    (noExponent : ∀ e ∈ rest.head?, ¬ (e = 'e' ∨ e = 'E')) :
    exponentPart (text ++ rest) = some (text, rest) := by
  cases h with
  | none =>
    rw [List.nil_append]
    unfold exponentPart
    split
    · next e s cs => rw [if_neg (noExponent e rfl)]
    · rfl
  | @digits e ds letter all =>
    obtain ⟨d, ds, rfl⟩ := List.exists_cons_of_ne_nil all.nonempty
    have noSign : ¬ (d = '+' ∨ d = '-') := by
      have digit := all.all d List.mem_cons_self
      rintro (rfl | rfl) <;> cases digit
    have read := digits_append all ends
    rw [List.cons_append] at read
    rw [List.cons_append, List.cons_append, exponentPart, if_pos letter, if_neg noSign, read,
      consRead_some]
  | signed letter sign all =>
    rw [List.cons_append, List.cons_append, exponentPart, if_pos letter, if_pos sign,
      digits_append all ends, consRead_some, consRead_some]

theorem exponentPart_of_exponentPart {exponent : List Char}
    (h : exponentPart cs = some (exponent, rest)) :
    cs = exponent ++ rest ∧ ExponentPart exponent := by
  unfold exponentPart at h
  split at h
  · split at h
    · next letter =>
      split at h
      · next sign =>
        obtain ⟨⟨ys, left⟩, readSigned, ⟨⟩⟩ := Option.map_eq_some_iff.1 h
        obtain ⟨⟨ds, left⟩, readDigits, ⟨⟩⟩ := Option.map_eq_some_iff.1 readSigned
        obtain ⟨rfl, ds⟩ := digits_of_digits readDigits
        exact ⟨rfl, .signed letter sign ds⟩
      · obtain ⟨⟨ds, left⟩, readDigits, ⟨⟩⟩ := Option.map_eq_some_iff.1 h
        obtain ⟨split, ds⟩ := digits_of_digits readDigits
        rw [split]
        exact ⟨rfl, .digits letter ds⟩
    · cases h
      exact ⟨rfl, .none⟩
  · cases h
    exact ⟨rfl, .none⟩

/-! ## Numbers -/

/-- A part of a number that stands behind a whole part begins with no digit. -/
theorem noDigit_parts {fraction exponent : List Char} (hf : FractionPart fraction)
    (he : ExponentPart exponent) (ends : EndsNumber rest) :
    NoDigit (exponent ++ rest) ∧ (exponent ++ rest).head? ≠ some '.' ∧
      NoDigit (fraction ++ (exponent ++ rest)) := by
  have behind : NoDigit (exponent ++ rest) ∧ (exponent ++ rest).head? ≠ some '.' := by
    cases he with
    | none => exact ⟨ends.noDigit, ends.noPoint⟩
    | digits letter _ | signed letter _ _ =>
      rcases letter with rfl | rfl
      all_goals
        refine ⟨?_, by simp⟩
        rintro c ⟨⟩
        rfl
  refine ⟨behind.1, behind.2, ?_⟩
  cases hf with
  | none => exact behind.1
  | digits _ =>
    rintro c ⟨⟩
    rfl

/-- A number without its sign is read part by part; each part ends where the next one may begin. -/
theorem unsigned_append (h : Magnitude text) (ends : EndsNumber rest) :
    unsigned (text ++ rest) = some (text, rest) := by
  obtain ⟨hw, hf, he⟩ := h
  obtain ⟨noDigit, noPoint, noDigit'⟩ := noDigit_parts hf he ends
  rw [List.append_assoc, List.append_assoc, unsigned, wholePart_append hw noDigit']
  simp only
  rw [fractionPart_append hf noDigit noPoint]
  simp only
  rw [exponentPart_append he ends.noDigit ends.noExponent]

theorem magnitude_of_unsigned (h : unsigned cs = some (text, rest)) :
    cs = text ++ rest ∧ Magnitude text := by
  unfold unsigned at h
  split at h
  · cases h
  · next readWhole =>
    split at h
    · cases h
    · next readFraction =>
      split at h
      · cases h
      · next readExponent =>
        cases h
        obtain ⟨rfl, hw⟩ := wholePart_of_wholePart readWhole
        obtain ⟨rfl, hf⟩ := fractionPart_of_fractionPart readFraction
        obtain ⟨rfl, he⟩ := exponentPart_of_exponentPart readExponent
        refine ⟨?_, .parts hw hf he⟩
        rw [List.append_assoc, List.append_assoc]

/-- A number begins with a digit. -/
theorem Magnitude.exists_head (h : Magnitude text) :
    ∃ d ds, text = d :: ds ∧ d.isDigit = true := by
  obtain ⟨hw, -, -⟩ := h
  cases hw with
  | zero => exact ⟨'0', _, rfl, rfl⟩
  | digits ds _ =>
    obtain ⟨d, ds', rfl⟩ := List.exists_cons_of_ne_nil ds.nonempty
    exact ⟨d, _, rfl, ds.all d List.mem_cons_self⟩

/-- A number is read with its sign, and kept as the text it is written as. -/
theorem readNumber_append (h : Numeral text) (ends : EndsNumber rest) :
    readNumber (text ++ rest) = some (number (String.ofList text), rest) := by
  cases h with
  | positive magnitude =>
    have read := unsigned_append magnitude ends
    obtain ⟨d, ds, rfl, digit⟩ := magnitude.exists_head
    unfold readNumber
    split
    · next is =>
      cases is
      cases digit
    · rw [read]
      rfl
  | negative magnitude =>
    rw [List.cons_append, readNumber, unsigned_append magnitude ends]
    rfl

/-- What is read as a number is written as one, and the value keeps its text. -/
theorem numeral_of_readNumber {j : Json} (h : readNumber cs = some (j, rest)) :
    ∃ text, cs = text ++ rest ∧ Numeral text ∧ j = number (String.ofList text) := by
  unfold readNumber at h
  split at h
  · obtain ⟨⟨ys, left⟩, readSigned, ⟨⟩⟩ := Option.map_eq_some_iff.1 h
    obtain ⟨⟨text, left⟩, readUnsigned, ⟨⟩⟩ := Option.map_eq_some_iff.1 readSigned
    obtain ⟨rfl, magnitude⟩ := magnitude_of_unsigned readUnsigned
    exact ⟨'-' :: text, rfl, .negative magnitude, rfl⟩
  · obtain ⟨⟨text, left⟩, readUnsigned, ⟨⟩⟩ := Option.map_eq_some_iff.1 h
    obtain ⟨rfl, magnitude⟩ := magnitude_of_unsigned readUnsigned
    exact ⟨text, rfl, .positive magnitude, rfl⟩

end BuildVariants.Json
