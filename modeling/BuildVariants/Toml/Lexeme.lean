import BuildVariants.Toml.Form
import BuildVariants.Toml.Value

/-!
# Lexemes of a TOML document

Readers for what a document is made of below the level of values: blanks, line breaks and
comments, strings in their four forms, keys, numbers, dates and times.  Each of them takes its
lexeme off the front of the text and declines if there is none.

The bodies of the four string forms follow the text character by character; only an escape takes
more than one, and `length_of_unescape` says that it takes at least one.  Between triple quotes up
to two quotes may stand right in front of the closing ones, so a run of quotes is looked at as a
whole (`multilineBody`).  A line break inside a string is read as a single `\n` whichever way it
is written.
-/

namespace BuildVariants.Toml

open BuildVariants.Text

/-! ## Blanks, line breaks and comments -/

/-- The two blanks. -/
def isBlank (c : Char) : Bool :=
  c == ' ' || c == '\t'

/-- Passes over blanks. -/
def skipBlanks (cs : List Char) : List Char :=
  cs.dropWhile isBlank

/-- Passes over one line break. -/
def lineBreak? : List Char → Option (List Char)
  | '\n' :: cs => some cs
  | '\r' :: '\n' :: cs => some cs
  | _ => none

/-- A character that may stand in a comment. -/
def isCommentChar (c : Char) : Bool :=
  c == '\t' || (0x20 ≤ c.toNat && c.toNat != 0x7f)

/-- Passes over a comment, if there is one. -/
def skipComment : List Char → List Char
  | '#' :: cs => cs.dropWhile isCommentChar
  | cs => cs

/-- Passes over the rest of a line that has nothing more to say. -/
def endLine? (cs : List Char) : Option (List Char) :=
  match skipComment (skipBlanks cs) with
  | [] => some []
  | rest => lineBreak? rest

/-- Passes over blanks, line breaks and comments; `inComment` while a comment lasts. -/
def skipLines : (inComment : Bool) → List Char → List Char
  | _, [] => []
  | _, '\n' :: cs => skipLines false cs
  | _, '\r' :: '\n' :: cs => skipLines false cs
  | true, c :: cs => if isCommentChar c then skipLines true cs else c :: cs
  | false, c :: cs =>
    if isBlank c then skipLines false cs
    else if c = '#' then skipLines true cs
    else c :: cs

/-- Passes over blanks and line breaks. -/
def skipSpace : List Char → List Char
  | [] => []
  | '\r' :: '\n' :: cs => skipSpace cs
  | c :: cs => if isBlank c || c == '\n' then skipSpace cs else c :: cs

theorem length_skipBlanks_le (cs : List Char) : (skipBlanks cs).length ≤ cs.length :=
  (List.dropWhile_sublist _).length_le

theorem length_skipSpace_le (cs : List Char) : (skipSpace cs).length ≤ cs.length := by
  fun_induction skipSpace cs with
  | case1 => simp
  | case2 cs ih => simp; omega
  | case3 c cs _ _ ih => simp; omega
  | case4 c cs => simp

theorem length_of_lineBreak? {cs rest : List Char} (h : lineBreak? cs = some rest) :
    rest.length < cs.length := by
  unfold lineBreak? at h
  split at h
  · cases h
    exact Nat.lt_succ_self _
  · cases h
    exact Nat.lt_succ_of_lt (Nat.lt_succ_self _)
  · cases h

/-! ## Strings -/

/-- The character of a code point written with `n` digits; surrogates are none. -/
def codePoint (n : Nat) (cs : List Char) : Option (Char × List Char) :=
  match hexNumber n 0 cs with
  | none => none
  | some (v, rest) => if v.isValidChar then some (Char.ofNat v, rest) else none

/-- The character that a letter behind a backslash stands for. -/
def letterEscape? (c : Char) : Option Char :=
  if c = 'b' then some '\x08'
  else if c = 't' then some '\t'
  else if c = 'n' then some '\n'
  else if c = 'f' then some '\x0c'
  else if c = 'r' then some '\r'
  else if c = '"' ∨ c = '\\' then some c
  else none

/-- What stands behind a backslash between double quotes. -/
def unescape : Scan Char
  | [] => none
  | c :: cs =>
    match letterEscape? c with
    | some x => some (x, cs)
    | none =>
      if c = 'u' then codePoint 4 cs
      else if c = 'U' then codePoint 8 cs
      else none

/-- The digits of a code point are taken off the text, so the reader of escapes ends. -/
theorem length_of_codePoint {n : Nat} {cs rest : List Char} {c : Char}
    (h : codePoint n cs = some (c, rest)) : rest.length ≤ cs.length := by
  unfold codePoint at h
  split at h
  · cases h
  · next v r hr =>
    have := length_of_hexNumber hr
    split at h
    · simp only [Option.some.injEq, Prod.mk.injEq] at h
      rw [← h.2]
      omega
    · cases h

/-- An escape takes at least one character. -/
theorem length_of_unescape {cs rest : List Char} {c : Char} (h : unescape cs = some (c, rest)) :
    rest.length < cs.length := by
  cases cs with
  | nil => cases h
  | cons x cs =>
    rw [unescape] at h
    split at h
    · cases h
      exact Nat.lt_succ_self _
    · split at h
      · exact Nat.lt_succ_of_le (length_of_codePoint h)
      · split at h
        · exact Nat.lt_succ_of_le (length_of_codePoint h)
        · cases h

/-- A character that stands for itself between double quotes. -/
def isBasicChar (c : Char) : Bool :=
  isCommentChar c && c != '"' && c != '\\'

/-- A character that stands for itself between single quotes. -/
def isLiteralChar (c : Char) : Bool :=
  isCommentChar c && c != '\''

/-- The characters behind an opening double quote, up to the closing one. -/
def basicBody (cs : List Char) : Option (List Char × List Char) :=
  match cs with
  | [] => none
  | c :: r =>
    if c = '"' then some ([], r)
    else if c = '\\' then
      match _h : unescape r with
      | none => none
      | some (x, r') => consRead x (basicBody r')
    else if isBasicChar c then consRead c (basicBody r)
    else none
termination_by cs.length
decreasing_by
  · have := length_of_unescape _h
    simp
    omega
  · simp

/-- The characters behind an opening single quote, up to the closing one. -/
def literalBody : List Char → Option (List Char × List Char)
  | [] => none
  | c :: cs =>
    if c = '\'' then some ([], cs)
    else if isLiteralChar c then consRead c (literalBody cs)
    else none

/-- A closing triple quote, with the quotes of the text that stand right in front of it.  Of three
to five quotes in a row the last three close. -/
def closing? (q : Char) : List Char → Option (List Char × List Char)
  | a :: b :: c :: cs =>
    if a = q ∧ b = q ∧ c = q then
      match cs with
      | d :: e :: rest =>
        if d = q then if e = q then some ([q, q], rest) else some ([q], e :: rest)
        else some ([], d :: e :: rest)
      | [d] => if d = q then some ([q], []) else some ([], [d])
      | [] => some ([], [])
    else none
  | _ => none

/-- What a backslash in front of a line break passes over: blanks up to the line break and all
blanks and line breaks behind it. -/
def continuation? (cs : List Char) : Option (List Char) :=
  (lineBreak? (skipBlanks cs)).map skipSpace

/-- A continuation takes at least its line break. -/
theorem length_of_continuation? {cs rest : List Char} (h : continuation? cs = some rest) :
    rest.length < cs.length := by
  simp only [continuation?, Option.map_eq_some_iff] at h
  obtain ⟨r, hr, rfl⟩ := h
  have := length_of_lineBreak? hr
  have := length_skipSpace_le r
  have := length_skipBlanks_le cs
  omega

/-- The characters between triple double quotes, up to the closing ones. -/
def multilineBody (cs : List Char) : Option (List Char × List Char) :=
  match closing? '"' cs with
  | some r => some r
  | none =>
    match cs with
    | [] => none
    | c :: r =>
      if c = '\\' then
        match _h : continuation? r with
        | some r' => multilineBody r'
        | none =>
          match _h' : unescape r with
          | none => none
          | some (x, r') => consRead x (multilineBody r')
      else if isBasicChar c || c == '"' then consRead c (multilineBody r)
      else
        match _h : lineBreak? (c :: r) with
        | none => none
        | some r' => consRead '\n' (multilineBody r')
termination_by cs.length
decreasing_by
  · have := length_of_continuation? _h
    simp
    omega
  · have := length_of_unescape _h'
    simp
    omega
  · simp
  · exact length_of_lineBreak? _h

/-- The characters between triple single quotes, up to the closing ones. -/
def multilineLiteralBody (cs : List Char) : Option (List Char × List Char) :=
  match closing? '\'' cs with
  | some r => some r
  | none =>
    match cs with
    | [] => none
    | c :: r =>
      if isLiteralChar c || c == '\'' then consRead c (multilineLiteralBody r)
      else
        match _h : lineBreak? (c :: r) with
        | none => none
        | some r' => consRead '\n' (multilineLiteralBody r')
termination_by cs.length
decreasing_by
  · simp
  · exact length_of_lineBreak? _h

/-- Passes over the line break right behind an opening triple quote. -/
def skipOpeningBreak (cs : List Char) : List Char :=
  (lineBreak? cs).getD cs

/-- A string in any of its forms. -/
def readString (cs : List Char) : Option (List Char × List Char) :=
  match cs with
  | '"' :: '"' :: '"' :: r => multilineBody (skipOpeningBreak r)
  | '"' :: r => basicBody r
  | '\'' :: '\'' :: '\'' :: r => multilineLiteralBody (skipOpeningBreak r)
  | '\'' :: r => literalBody r
  | _ => none

/-! ## Keys -/

/-- One key: bare, or a string on one line. -/
def readSimpleKey : Scan String
  | '"' :: cs => (basicBody cs).map fun x => (String.ofList x.1, x.2)
  | '\'' :: cs => (literalBody cs).map fun x => (String.ofList x.1, x.2)
  | cs =>
    if (cs.takeWhile isBareKeyChar).isEmpty then none
    else some (String.ofList (cs.takeWhile isBareKeyChar), cs.dropWhile isBareKeyChar)

/-- One key with the blanks around it. -/
def readKeyPart (cs : List Char) : Option (String × List Char) :=
  match readSimpleKey (skipBlanks cs) with
  | none => none
  | some (k, rest) => some (k, skipBlanks rest)

/-- A further part of a dotted key. -/
def readDottedPart : Scan String
  | '.' :: cs => readKeyPart cs
  | _ => none

/-- The most brackets that may be open at one place, and the most parts a dotted key may have. -/
def maxDepth : Nat := 79

/-- A dotted key: the parts in front of the last one, and the last one. -/
def readKey (cs : List Char) : Option ((List String × String) × List Char) :=
  match readKeyPart cs with
  | none => none
  | some (k, r) =>
    match many readDottedPart r with
    | (ks, rest) =>
      if maxDepth < ks.length + 1 then none
      else some (((k :: ks).dropLast, (k :: ks).getLast (by simp)), rest)

end BuildVariants.Toml
