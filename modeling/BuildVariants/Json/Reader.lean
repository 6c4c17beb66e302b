import BuildVariants.Json

/-!
# Reading JSON

`parse?` reads one JSON text.  Blanks may stand around every token; a character outside the basic
plane may be escaped as a pair of surrogates, and half a pair is refused.

Nesting is followed by recursion on a number of levels, which is at most the number of characters,
so `parse?` never runs out of it; the items of an array and the fields of an object are read by
`many`.
-/

namespace BuildVariants.Json

open BuildVariants.Text

/-- The four blanks that may stand between tokens. -/
def isGap (c : Char) : Bool :=
  c == ' ' || c == '\t' || c == '\n' || c == '\r'

/-- Passes over blanks. -/
def skipGap (cs : List Char) : List Char :=
  cs.dropWhile isGap

/-- Passes over a given text. -/
def expect : List Char → List Char → Option (List Char)
  | [], cs => some cs
  | _ :: _, [] => none
  | x :: xs, c :: cs => if c = x then expect xs cs else none

/-! ## Strings -/

/-- The lower half of a pair of surrogates whose upper half has been read. -/
def lowSurrogate (high : Nat) : Scan Char
  | '\\' :: 'u' :: cs =>
    match hexNumber 4 0 cs with
    | none => none
    | some (low, rest) =>
      if 0xdc00 ≤ low ∧ low ≤ 0xdfff then
        some (Char.ofNat (0x10000 + (high - 0xd800) * 0x400 + (low - 0xdc00)), rest)
      else none
  | _ => none

/-- What stands behind a backslash in a string. -/
def unescape : Scan Char
  | 'u' :: cs =>
    match hexNumber 4 0 cs with
    | none => none
    | some (n, rest) =>
      if 0xd800 ≤ n ∧ n ≤ 0xdbff then lowSurrogate n rest
      else if 0xdc00 ≤ n ∧ n ≤ 0xdfff then none
      else some (Char.ofNat n, rest)
  | '"' :: cs => some ('"', cs)
  | '\\' :: cs => some ('\\', cs)
  | '/' :: cs => some ('/', cs)
  | 'b' :: cs => some ('\x08', cs)
  | 'f' :: cs => some ('\x0c', cs)
  | 'n' :: cs => some ('\n', cs)
  | 'r' :: cs => some ('\r', cs)
  | 't' :: cs => some ('\t', cs)
  | _ => none

theorem length_of_lowSurrogate {high : Nat} {cs rest : List Char} {c : Char}
    (h : lowSurrogate high cs = some (c, rest)) : rest.length < cs.length := by
  unfold lowSurrogate at h
  split at h
  · split at h
    · cases h
    · next low r hr =>
      have := length_of_hexNumber hr
      split at h
      · simp only [Option.some.injEq, Prod.mk.injEq] at h
        rw [← h.2, List.length_cons, List.length_cons]
        omega
      · cases h
  · cases h

/-- An escape takes at least one character. -/
theorem length_of_unescape {cs rest : List Char} {c : Char} (h : unescape cs = some (c, rest)) :
    rest.length < cs.length := by
  unfold unescape at h
  split at h
  · split at h
    · cases h
    · next n r hr =>
      have := length_of_hexNumber hr
      split at h
      · have := length_of_lowSurrogate h
        simp
        omega
      · split at h
        · cases h
        · simp only [Option.some.injEq, Prod.mk.injEq] at h
          rw [← h.2, List.length_cons]
          omega
  all_goals simp only [Option.some.injEq, Prod.mk.injEq, reduceCtorEq] at h
  all_goals simp [← h.2]

/-- The characters of a string behind its opening quote. -/
def stringBody (cs : List Char) : Option (List Char × List Char) :=
  match cs with
  | [] => none
  | c :: r =>
    if c = '"' then some ([], r)
    else if c = '\\' then
      match _h : unescape r with
      | none => none
      | some (x, r') => consRead x (stringBody r')
    else if c.toNat < 0x20 then none
    else consRead c (stringBody r)
termination_by cs.length
decreasing_by
  · have := length_of_unescape _h
    simp
    omega
  · simp

/-- A string with its quotes. -/
def readString : Scan String
  | '"' :: cs => (stringBody cs).map fun x => (String.ofList x.1, x.2)
  | _ => none

/-! ## Numbers -/

/-- One or more digits. -/
def digits (cs : List Char) : Option (List Char × List Char) :=
  if (cs.takeWhile Char.isDigit).isEmpty then none
  else some (cs.takeWhile Char.isDigit, cs.dropWhile Char.isDigit)

/-- The whole part of a number: a zero stands alone. -/
def wholePart : List Char → Option (List Char × List Char)
  | '0' :: cs => some (['0'], cs)
  | cs => digits cs

/-- The part behind the point, if there is one. -/
def fractionPart : List Char → Option (List Char × List Char)
  | '.' :: cs => consRead '.' (digits cs)
  | cs => some ([], cs)

/-- The exponent, if there is one. -/
def exponentPart : List Char → Option (List Char × List Char)
  | e :: s :: cs =>
    if e = 'e' ∨ e = 'E' then
      if s = '+' ∨ s = '-' then consRead e (consRead s (digits cs))
      else consRead e (digits (s :: cs))
    else some ([], e :: s :: cs)
  | cs => some ([], cs)

/-- A number without its sign. -/
def unsigned (cs : List Char) : Option (List Char × List Char) :=
  match wholePart cs with
  | none => none
  | some (whole, cs) =>
    match fractionPart cs with
    | none => none
    | some (fraction, cs) =>
      match exponentPart cs with
      | none => none
      | some (exponent, cs) => some (whole ++ fraction ++ exponent, cs)

/-- A number, as written. -/
def readNumber : Scan Json
  | '-' :: cs => (consRead '-' (unsigned cs)).map fun x => (number (String.ofList x.1), x.2)
  | cs => (unsigned cs).map fun x => (number (String.ofList x.1), x.2)

/-! ## Values -/

/-- An item or field behind a comma. -/
def behindComma {α : Type} (item : Scan α) (cs : List Char) : Option (α × List Char) :=
  match skipGap cs with
  | ',' :: r => item (skipGap r)
  | _ => none

/-- Items separated by commas up to a closing bracket; the opening one has been read. -/
def readList {α : Type} (item : Scan α) (close : Char) (cs : List Char) :
    Option (List α × List Char) :=
  match skipGap cs with
  | [] => none
  | c :: r =>
    if c = close then some ([], r)
    else match item (c :: r) with
      | none => none
      | some (x, r') =>
        match many (behindComma item) r' with
        | (xs, r'') =>
          match skipGap r'' with
          | [] => none
          | d :: rest => if d = close then some (x :: xs, rest) else none

/-- A field: a name, a colon and a value. -/
def readField (value : Scan Json) (cs : List Char) : Option ((String × Json) × List Char) :=
  match readString cs with
  | none => none
  | some (k, r) =>
    match skipGap r with
    | ':' :: r' => (value (skipGap r')).map fun x => ((k, x.1), x.2)
    | _ => none

/-- A value with at most `levels` levels of brackets. -/
def readValue : (levels : Nat) → Scan Json
  | _, [] => none
  | levels, c :: cs =>
    if c = '"' then (readString (c :: cs)).map fun x => (string x.1, x.2)
    else if c = 'n' then (expect "null".toList (c :: cs)).map fun r => (null, r)
    else if c = 't' then (expect "true".toList (c :: cs)).map fun r => (boolean true, r)
    else if c = 'f' then (expect "false".toList (c :: cs)).map fun r => (boolean false, r)
    else if c = '[' ∨ c = '{' then
      match levels with
      | 0 => none
      | n + 1 =>
        if c = '[' then (readList (readValue n) ']' cs).map fun x => (array x.1, x.2)
        else (readList (readField (readValue n)) '}' cs).map fun x => (object x.1, x.2)
    else readNumber (c :: cs)

/-- The value a text holds, if it is one JSON text. -/
def parse? (s : String) : Option Json :=
  match readValue s.toList.length (skipGap s.toList) with
  | none => none
  | some (j, rest) => if skipGap rest = [] then some j else none

end BuildVariants.Json
