import BuildVariants.Proofs.Toml.WrittenString
import BuildVariants.Toml.Document
import BuildVariants.Toml.Reader

/-!
# Written documents are read back

A document is written as sections and read as statements.  `Section.statements` are the statements
that a section stands for, and `statements?_writeSections` says that they are what is read from
the text of a list of sections, in the same order.

The proof goes up the layers of the text: keys and paths, values, pairs, lines.  Each layer says
that what is written of it is taken off the front of any text that goes on in a way the layer
allows; `readLines_append` then puts lines together.
-/

namespace BuildVariants.Toml

open Text

/-! ## What a section stands for -/

/-- The value that is written as a datum. -/
def Datum.value : Datum → Value
  | string s => .string s
  | strings items => .array (items.map .string)

/-- The path of a heading is neither empty nor too long. -/
def Heading.IsLegal : Heading → Prop
  | top => True
  | table path | element path => path ≠ [] ∧ path.length ≤ maxDepth

/-- The statements of a heading. -/
def Heading.statements : Heading → List Statement
  | top => []
  | table path => [.header path.dropLast (path.getLastD "")]
  | element path => [.element path.dropLast (path.getLastD "")]

/-- The statement of a pair under a heading. -/
def pairStatement (p : String × Datum) : Statement :=
  .pair [] p.1 p.2.value

/-- The statements of a section. -/
def Section.statements (s : Section) : List Statement :=
  s.heading.statements ++ s.pairs.map pairStatement

/-! ## First characters -/

/-- A character that begins a key or a string: no blank, no line break, no comment, no bracket. -/
def isOpening (c : Char) : Bool :=
  isBareKeyChar c || c == '"' || c == '\''

theorem isOpening_of_isBareKeyChar {c : Char} (h : isBareKeyChar c = true) :
    isOpening c = true := by
  simp [isOpening, h]

/-- What begins a key or a string is none of the characters that a reader of lines looks out for. -/
theorem ne_of_isOpening {c : Char} (h : isOpening c = true) :
    isBlank c = false ∧ c ≠ '\n' ∧ c ≠ '\r' ∧ c ≠ '#' ∧ c ≠ '[' ∧ c ≠ '.' := by
  refine ⟨?_, ?_, ?_, ?_, ?_, ?_⟩
  · rw [Bool.eq_false_iff]
    intro blank
    rw [isBlank, Bool.or_eq_true, beq_iff_eq, beq_iff_eq] at blank
    rcases blank with rfl | rfl <;> exact absurd h (by decide)
  all_goals rintro rfl; exact absurd h (by decide)

/-- A written key is never empty, and its first character decides what the line is. -/
theorem exists_keyText_eq_cons (k : String) :
    ∃ c cs, keyText k = c :: cs ∧ isOpening c = true := by
  rw [keyText]
  generalize k.toList = cs
  split
  · next h =>
    cases cs with
    | nil => simp at h
    | cons c cs =>
      simp only [List.all_cons, Bool.and_eq_true] at h
      exact ⟨c, cs, rfl, isOpening_of_isBareKeyChar h.2.1⟩
  split
  · exact ⟨'"', basicText cs ++ ['"'], rfl, by decide⟩
  split
  · exact ⟨'\'', cs ++ ['\''], rfl, by decide⟩
  · exact ⟨'"', basicText cs ++ ['"'], rfl, by decide⟩

/-- A written string begins with one of the two quotation marks, in whichever of the four forms it
is written. -/
theorem exists_stringText_eq_cons (s : String) :
    ∃ c cs, stringText s = c :: cs ∧ (c = '"' ∨ c = '\'') := by
  rw [stringText]
  generalize s.toList = cs
  cases Form.ofString cs with
  | basic => exact ⟨'"', basicText cs ++ ['"'], rfl, Or.inl rfl⟩
  | literal => exact ⟨'\'', cs ++ ['\''], rfl, Or.inr rfl⟩
  | multilineBasic => exact ⟨'"', _, rfl, Or.inl rfl⟩
  | multilineLiteral => exact ⟨'\'', _, rfl, Or.inr rfl⟩

theorem skipBlanks_of_isOpening {c : Char} (h : isOpening c = true) (r : List Char) :
    skipBlanks (c :: r) = c :: r :=
  List.dropWhile_cons_of_neg (by rw [(ne_of_isOpening h).1]; decide)

/-- No blanks are lost in front of a key. -/
theorem skipBlanks_keyText (k : String) (rest : List Char) :
    skipBlanks (keyText k ++ rest) = keyText k ++ rest := by
  obtain ⟨c, cs, head, opening⟩ := exists_keyText_eq_cons k
  rw [head, List.cons_append, skipBlanks_of_isOpening opening]

theorem isOpening_of_eq_quote {c : Char} (h : c = '"' ∨ c = '\'') : isOpening c = true := by
  rcases h with rfl | rfl <;> decide

theorem skipBlanks_stringText (s : String) (rest : List Char) :
    skipBlanks (stringText s ++ rest) = stringText s ++ rest := by
  obtain ⟨c, cs, head, quote⟩ := exists_stringText_eq_cons s
  rw [head, List.cons_append, skipBlanks_of_isOpening (isOpening_of_eq_quote quote)]

/-- Where a key or a string begins, neither a line break nor a comment is skipped. -/
theorem skipLines_of_isOpening {c : Char} (h : isOpening c = true) (r : List Char) :
    skipLines false (c :: r) = c :: r := by
  obtain ⟨blank, newline, return_, comment, -, -⟩ := ne_of_isOpening h
  rw [skipLines.eq_def]
  split <;> simp_all

theorem skipLines_stringText (s : String) (rest : List Char) :
    skipLines false (stringText s ++ rest) = stringText s ++ rest := by
  obtain ⟨c, cs, head, quote⟩ := exists_stringText_eq_cons s
  rw [head, List.cons_append, skipLines_of_isOpening (isOpening_of_eq_quote quote)]

/-! ## Keys and paths -/

/-- One part of a path is read back, together with the blanks behind it. -/
theorem readKeyPart_keyText (k : String) {rest : List Char} (ends : NoKeyAhead rest) :
    readKeyPart (keyText k ++ rest) = some (k, skipBlanks rest) := by
  rw [readKeyPart, skipBlanks_keyText, readSimpleKey_keyText k ends]

/-- A written path is its first part, and every further part behind a dot.  The reader takes it
apart in this way, while the writer recurses with a case for a single part. -/
theorem pathText_cons (k : String) (ks : List String) :
    pathText (k :: ks) = keyText k ++ ks.flatMap fun x => '.' :: keyText x := by
  induction ks generalizing k with
  | nil => rw [pathText, List.flatMap_nil, List.append_nil]
  | cons x xs ih =>
    rw [pathText, ih, List.flatMap_cons, List.cons_append]
    exact List.cons_ne_nil x xs

/-- What follows the parts of a path: neither a blank nor a further part. -/
def NoPartAhead (rest : List Char) : Prop :=
  ∀ c ∈ rest.head?, isBareKeyChar c = false ∧ isBlank c = false ∧ c ≠ '.'

theorem NoPartAhead.noKeyAhead {rest : List Char} (h : NoPartAhead rest) : NoKeyAhead rest :=
  fun c hc => (h c hc).1

theorem NoPartAhead.skipBlanks {rest : List Char} (h : NoPartAhead rest) :
    Toml.skipBlanks rest = rest := by
  match rest with
  | [] => rfl
  | c :: cs => exact List.dropWhile_cons_of_neg (by rw [(h c rfl).2.1]; decide)

/-- The reader of further parts stops where no dot follows. -/
theorem readDottedPart_of_noPartAhead {rest : List Char} (h : NoPartAhead rest) :
    readDottedPart rest = none := by
  match rest with
  | [] => rfl
  | c :: cs =>
    rw [readDottedPart.eq_def]
    split
    · next eq =>
      rw [List.cons.injEq] at eq
      exact absurd eq.1 (h c rfl).2.2
    · rfl

/-- A bare key ends in front of a dot, so parts do not run into each other. -/
theorem noKeyAhead_dotted (ks : List String) {rest : List Char} (ends : NoPartAhead rest) :
    NoKeyAhead ((ks.flatMap fun x => '.' :: keyText x) ++ rest) := by
  match ks with
  | [] => exact ends.noKeyAhead
  | k :: ks => rintro c ⟨⟩; decide

theorem skipBlanks_dotted (ks : List String) {rest : List Char} (ends : NoPartAhead rest) :
    skipBlanks ((ks.flatMap fun x => '.' :: keyText x) ++ rest)
      = (ks.flatMap fun x => '.' :: keyText x) ++ rest := by
  match ks with
  | [] => exact ends.skipBlanks
  | k :: ks => exact List.dropWhile_cons_of_neg (by decide)

/-- The further parts of a path are all read, up to its end.  The induction is on the parts; each of
them makes the text shorter, so the reader goes on. -/
theorem many_readDottedPart (ks : List String) {rest : List Char} (ends : NoPartAhead rest) :
    many readDottedPart ((ks.flatMap fun x => '.' :: keyText x) ++ rest) = (ks, rest) := by
  induction ks with
  | nil => exact many_of_none (readDottedPart_of_noPartAhead ends)
  | cons k ks ih =>
    have part : readDottedPart
        ((List.flatMap (fun x => '.' :: keyText x) (k :: ks)) ++ rest)
          = some (k, (ks.flatMap fun x => '.' :: keyText x) ++ rest) := by
      rw [List.flatMap_cons, List.append_assoc, List.cons_append, readDottedPart,
        readKeyPart_keyText k (noKeyAhead_dotted ks ends), skipBlanks_dotted ks ends]
    have shorter : ((ks.flatMap fun x => '.' :: keyText x) ++ rest).length
        < ((List.flatMap (fun x => '.' :: keyText x) (k :: ks)) ++ rest).length := by
      rw [List.flatMap_cons]
      simp only [List.length_append, List.length_cons]
      omega
    rw [many_of_some part shorter, ih]

/-- A written path is read back. -/
theorem readKey_pathText {path : List String} (nonempty : path ≠ [])
    (short : path.length ≤ maxDepth) {rest : List Char} (ends : NoPartAhead rest) :
    readKey (pathText path ++ rest) = some ((path.dropLast, path.getLastD ""), rest) := by
  obtain ⟨k, ks, rfl⟩ := List.exists_cons_of_ne_nil nonempty
  rw [pathText_cons, List.append_assoc, readKey,
    readKeyPart_keyText k (noKeyAhead_dotted ks ends), skipBlanks_dotted ks ends]
  simp only [many_readDottedPart ks ends]
  -- The reader gives the last part apart from the others.
  have last : (k :: ks).getLast nonempty = (k :: ks).getLastD "" := by
    rw [List.getLastD_eq_getLast?, List.getLast?_eq_some_getLast nonempty, Option.getD_some]
  rw [if_neg (by rw [List.length_cons] at short; omega), last]

/-- A written key in front of an equals sign is read back. -/
theorem readKey_keyText (k : String) (rest : List Char) :
    readKey (keyText k ++ ' ' :: '=' :: rest) = some (([], k), '=' :: rest) := by
  have equals : NoPartAhead ('=' :: rest) := by rintro c ⟨⟩; decide
  have none := many_readDottedPart [] equals
  rw [List.flatMap_nil, List.nil_append] at none
  rw [readKey, readKeyPart_keyText k (by rintro c ⟨⟩; decide),
    show skipBlanks (' ' :: '=' :: rest) = '=' :: rest from rfl]
  simp only [none]
  rfl

/-! ## Values -/

/-- A written string is read back as a value, at any depth of nesting. -/
theorem readValue_stringText (depth : Nat) (s : String) {rest : List Char}
    (ends : NoQuoteAhead rest) :
    readValue depth (stringText s ++ rest) = some (.string s, rest) := by
  obtain ⟨c, cs, head, quote⟩ := exists_stringText_eq_cons s
  have read := readString_stringText s ends
  rw [head, List.cons_append] at read ⊢
  rw [readValue.eq_def]
  simp only [if_pos quote, read, Option.map_some, String.ofList_toList]

/-- No value begins with a closing bracket. -/
theorem readValue_closing (depth : Nat) (rest : List Char) :
    readValue depth (']' :: rest) = none := by
  have digits (n low high : Nat) : readFixed (n + 1) low high (']' :: rest) = none := by
    simp [readFixed, Char.isDigit]
  have moment : readMoment (']' :: rest) = none := by
    simp [readMoment, readDate, readTime, digits]
  have decimal : passDecimal (']' :: rest) = none := by
    simp [passDecimal, passSign, passDigits, Char.isDigit]
  have float : readFloat (']' :: rest) = none := by
    simp [readFloat, readFraction, decimal, passSpecial, passSign]
  have integer : readInteger (']' :: rest) = none := by
    simp [readInteger, decimal]
  -- What begins with none of the other marks could only be a number or a moment.
  rw [readValue.eq_def]
  simp [readNumber, moment, float, integer]

/-- A string in an array is read back, and the space behind it is skipped. -/
theorem readItem_stringText (depth : Nat) (s : String) {rest : List Char}
    (ends : NoQuoteAhead rest) :
    readItem (readValue depth) (stringText s ++ rest)
      = some (.string s, skipLines false rest) := by
  rw [readItem, skipLines_stringText, readValue_stringText depth s ends]

/-- Blanks in front of an item do not matter. -/
theorem readItem_skipLines {value : Scan Value} {cs ds : List Char}
    (h : skipLines false cs = skipLines false ds) : readItem value cs = readItem value ds := by
  rw [readItem, readItem, h]

/-- A string on a line of its own is read back up to the comma. -/
theorem readItem_itemLine (depth : Nat) (s : String) (rest : List Char) :
    readItem (readValue depth) ('\n' :: (itemLine s ++ rest))
      = some (.string s, ',' :: '\n' :: rest) := by
  have skip : skipLines false ('\n' :: (itemLine s ++ rest))
      = skipLines false (stringText s ++ ',' :: '\n' :: rest) := by
    simp [itemLine, skipLines, isBlank]
  rw [readItem_skipLines skip, readItem_stringText depth s (by rintro c ⟨⟩; decide)]
  simp [skipLines, isBlank]

/-- The lines of the further items of an array, up to the comma in front of the closing bracket. -/
theorem many_readFurtherItem (depth : Nat) (items : List String) (rest : List Char) :
    many (readFurtherItem (readValue depth))
        (',' :: '\n' :: (items.flatMap itemLine ++ ']' :: rest))
      = (items.map .string, ',' :: '\n' :: ']' :: rest) := by
  induction items with
  | nil =>
    refine many_of_none ?_
    rw [readFurtherItem, readItem]
    have skip : skipLines false ('\n' :: (List.flatMap itemLine [] ++ ']' :: rest))
        = ']' :: rest := by
      simp [skipLines, isBlank]
    rw [skip, readValue_closing]
  | cons s items ih =>
    have item : readFurtherItem (readValue depth)
        (',' :: '\n' :: ((s :: items).flatMap itemLine ++ ']' :: rest))
          = some (.string s, ',' :: '\n' :: (items.flatMap itemLine ++ ']' :: rest)) := by
      rw [readFurtherItem, List.flatMap_cons, List.append_assoc, readItem_itemLine]
    have shorter : (',' :: '\n' :: (items.flatMap itemLine ++ ']' :: rest)).length
        < (',' :: '\n' :: ((s :: items).flatMap itemLine ++ ']' :: rest)).length := by
      rw [List.flatMap_cons, itemLine]
      simp only [List.length_append, List.length_cons]
      omega
    rw [many_of_some item shorter, ih, List.map_cons]

/-- What follows a datum: the end of its line. -/
theorem readValue_write (depth : Nat) (d : Datum) (rest : List Char) :
    readValue (depth + 1) (d.write ++ '\n' :: rest) = some (d.value, '\n' :: rest) := by
  match d with
  | .string s => exact readValue_stringText _ s (by rintro c ⟨⟩; decide)
  | .strings [] =>
    have closing : readItem (readValue depth) (']' :: '\n' :: rest) = none := by
      rw [readItem, show skipLines false (']' :: '\n' :: rest) = ']' :: '\n' :: rest by
        simp [skipLines, isBlank], readValue_closing]
    simp [Datum.write, Datum.value, readValue, readItems, closing, skipLines, isBlank, passChar]
  | .strings [s] =>
    have written : (Datum.strings [s]).write ++ '\n' :: rest
        = '[' :: (stringText s ++ ']' :: '\n' :: rest) := by
      simp [Datum.write]
    have ends : NoQuoteAhead (']' :: '\n' :: rest) := by
      rintro c ⟨⟩
      decide
    have item := readItem_stringText depth s ends
    have stop : many (readFurtherItem (readValue depth)) (']' :: '\n' :: rest)
        = ([], ']' :: '\n' :: rest) := many_of_none rfl
    rw [show skipLines false (']' :: '\n' :: rest) = ']' :: '\n' :: rest by
      simp [skipLines, isBlank]] at item
    rw [written]
    simp [Datum.value, readValue, readItems, item, stop, skipLines, isBlank, passChar,
      passOptional]
  | .strings (s :: t :: items) =>
    have written : (Datum.strings (s :: t :: items)).write ++ '\n' :: rest
        = '[' :: '\n' ::
          (itemLine s ++ ((t :: items).flatMap itemLine ++ ']' :: '\n' :: rest)) := by
      simp [Datum.write]
    rw [written]
    have item := readItem_itemLine depth s ((t :: items).flatMap itemLine ++ ']' :: '\n' :: rest)
    have further := many_readFurtherItem depth (t :: items) ('\n' :: rest)
    simp only [readValue, readItems, item, further]
    simp [Datum.value, skipLines, isBlank, passChar, passOptional]

/-- A datum does not begin with a blank, so the one blank behind the equals sign is all that is
skipped. -/
theorem skipBlanks_write (d : Datum) (rest : List Char) :
    skipBlanks (d.write ++ rest) = d.write ++ rest := by
  match d with
  | .string s => exact skipBlanks_stringText s rest
  | .strings [] => rfl
  | .strings [_] => rfl
  | .strings (_ :: _ :: _) => rfl

/-! ## Lines -/

/-- A written pair is read back.  The line break is left for the reader of lines. -/
theorem readPair_pairLine (p : String × Datum) (rest : List Char) :
    readPair (readValue maxDepth) (pairLine p ++ rest)
      = some ((([], p.1), p.2.value), '\n' :: rest) := by
  have written : pairLine p ++ rest
      = keyText p.1 ++ ' ' :: '=' :: ' ' :: (p.2.write ++ '\n' :: rest) := by
    simp [pairLine]
  have value : skipBlanks (' ' :: (p.2.write ++ '\n' :: rest)) = p.2.write ++ '\n' :: rest :=
    skipBlanks_write p.2 _
  rw [written, readPair, readKey_keyText]
  simp only [passChar, if_true, value, maxDepth, readValue_write]
  rfl

/-- A statement that ends with its line is the statement of the line. -/
theorem readLine_of_readStatement {cs rest : List Char} {ss : List Statement}
    (blank : skipBlanks cs = cs) (h : readStatement cs = some (ss, '\n' :: rest)) :
    readLine cs = some (ss, rest) := by
  rw [readLine, blank, h]
  rfl

theorem readLine_blank (rest : List Char) : readLine ('\n' :: rest) = some ([], rest) :=
  readLine_of_readStatement rfl rfl

/-- The line of a pair is the one statement it was written for: a key is neither a comment nor a
heading. -/
theorem readLine_pairLine (p : String × Datum) (rest : List Char) :
    readLine (pairLine p ++ rest) = some ([pairStatement p], rest) := by
  have read := readPair_pairLine p rest
  obtain ⟨c, cs, head, opening⟩ := exists_keyText_eq_cons p.1
  obtain ⟨-, newline, return_, comment, bracket, -⟩ := ne_of_isOpening opening
  rw [pairLine, head, List.append_assoc, List.append_assoc, List.append_assoc, List.cons_append]
    at read ⊢
  refine readLine_of_readStatement (skipBlanks_of_isOpening opening _) ?_
  rw [readStatement.eq_def]
  simp only [if_neg bracket, comment, newline, return_, or_self, if_false]
  rw [read, Option.map_some, pairStatement]

theorem noPartAhead_closing (rest : List Char) : NoPartAhead (']' :: rest) := by
  rintro c ⟨⟩
  decide

/-- A path does not begin with a bracket. -/
theorem pathText_ne_bracket {path : List String} (nonempty : path ≠ []) (rest r : List Char) :
    pathText path ++ rest ≠ '[' :: r := by
  obtain ⟨k, ks, rfl⟩ := List.exists_cons_of_ne_nil nonempty
  obtain ⟨c, cs, head, opening⟩ := exists_keyText_eq_cons k
  rw [pathText_cons, head]
  intro eq
  rw [List.cons_append, List.cons_append, List.cons.injEq] at eq
  exact (ne_of_isOpening opening).2.2.2.2.1 eq.1

/-- The heading of a table is told from that of an element by its second character, which begins a
key. -/
theorem readHeader_table {path : List String} (nonempty : path ≠ [])
    (short : path.length ≤ maxDepth) (rest : List Char) :
    readHeader (pathText path ++ ']' :: rest)
      = some (.header path.dropLast (path.getLastD ""), rest) := by
  rw [readHeader.eq_def]
  split
  · next eq => exact absurd eq (pathText_ne_bracket nonempty _ _)
  · rw [readKey_pathText nonempty short (noPartAhead_closing rest)]
    rfl

/-- The heading of an element of an array of tables is read back. -/
theorem readHeader_element {path : List String} (nonempty : path ≠ [])
    (short : path.length ≤ maxDepth) (rest : List Char) :
    readHeader ('[' :: (pathText path ++ ']' :: ']' :: rest))
      = some (.element path.dropLast (path.getLastD ""), rest) := by
  rw [readHeader, readKey_pathText nonempty short (noPartAhead_closing _)]
  rfl

/-- The line of a heading is the one statement it was written for. -/
theorem readLine_heading {h : Heading} (legal : h.IsLegal) (headed : h ≠ .top)
    (rest : List Char) : readLine (h.write ++ rest) = some (h.statements, rest) := by
  match h with
  | .top => exact absurd rfl headed
  | .table path =>
    have written : (Heading.table path).write ++ rest
        = '[' :: (pathText path ++ ']' :: '\n' :: rest) := by
      simp [Heading.write]
    rw [written]
    refine readLine_of_readStatement rfl ?_
    rw [readStatement, if_pos rfl, readHeader_table legal.1 legal.2, Option.map_some,
      Heading.statements]
  | .element path =>
    have written : (Heading.element path).write ++ rest
        = '[' :: '[' :: (pathText path ++ ']' :: ']' :: '\n' :: rest) := by
      simp [Heading.write]
    rw [written]
    refine readLine_of_readStatement rfl ?_
    rw [readStatement, if_pos rfl, readHeader_element legal.1 legal.2, Option.map_some,
      Heading.statements]

/-! ## Documents -/

/-- A line in front of others adds its statements. -/
theorem readLines_append {line rest : List Char} {ss : List Statement} (nonempty : line ≠ [])
    (h : readLine (line ++ rest) = some (ss, rest)) :
    readLines (line ++ rest) = (readLines rest).map (ss ++ ·) := by
  have notEmpty : line ++ rest ≠ [] := by simp [nonempty]
  have shorter : rest.length < (line ++ rest).length := by
    have := List.length_pos_iff.2 nonempty
    rw [List.length_append]
    omega
  rw [readLines, if_neg notEmpty, h]
  exact if_pos shorter

/-- The pairs of a section are read in their order. -/
theorem readLines_pairs (ps : List (String × Datum)) (rest : List Char) :
    readLines (ps.flatMap pairLine ++ rest)
      = (readLines rest).map (ps.map pairStatement ++ ·) := by
  induction ps with
  | nil => simp
  | cons p ps ih =>
    have nonempty : pairLine p ≠ [] := by simp [pairLine]
    rw [List.flatMap_cons, List.append_assoc,
      readLines_append nonempty (readLine_pairLine p _), ih, Option.map_map]
    rfl

/-- A section in front of a text adds its statements: the one of its heading, if it has one, and
those of its pairs. -/
theorem readLines_section {s : Section} (legal : s.heading.IsLegal) (rest : List Char) :
    readLines (s.write ++ rest) = (readLines rest).map (s.statements ++ ·) := by
  have pairs := readLines_pairs s.pairs rest
  by_cases top : s.heading = .top
  · rw [Section.write, Section.statements, top]
    exact pairs
  · have nonempty : s.heading.write ≠ [] := by
      match s.heading, top with
      | .table _, _ => exact List.cons_ne_nil _ _
      | .element _, _ => exact List.cons_ne_nil _ _
    rw [Section.write, Section.statements, List.append_assoc,
      readLines_append nonempty (readLine_heading legal top _), pairs, Option.map_map]
    refine congrArg (Option.map · (readLines rest)) (funext fun ss => ?_)
    rw [Function.comp_apply, List.append_assoc]

/-- The lines of a document are the statements of its sections.  The induction is on the sections; a
blank line stands in front of each but the first and has no statements. -/
theorem readLines_writeSections (sections : List Section)
    (legal : ∀ s ∈ sections, s.heading.IsLegal) :
    readLines (writeSections sections) = some (sections.flatMap Section.statements) := by
  have finished : readLines [] = some [] := by rw [readLines, if_pos rfl]
  induction sections with
  | nil => exact finished
  | cons s ss ih =>
    have first := readLines_section (legal s List.mem_cons_self)
    match ss with
    | [] =>
      have alone := first []
      rw [List.append_nil, finished] at alone
      rw [writeSections, alone, Option.map_some, List.flatMap_cons, List.flatMap_nil]
    | t :: ts =>
      -- A blank line stands in front of every further section.
      have blank := readLines_append (List.cons_ne_nil '\n' [])
        (readLine_blank (writeSections (t :: ts)))
      rw [List.singleton_append] at blank
      rw [writeSections, first, blank, ih fun x hx => legal x (List.mem_cons_of_mem _ hx)]
      · rfl
      · exact List.cons_ne_nil t ts

/-- A document without a byte order mark in front of it is read line by line. -/
theorem statements?_writeSections {sections : List Section}
    (legal : ∀ s ∈ sections, s.heading.IsLegal)
    (noMark : (writeSections sections).head? ≠ some byteOrderMark) :
    statements? (writeSections sections) = some (sections.flatMap Section.statements) := by
  rw [← readLines_writeSections sections legal, statements?.eq_def]
  split
  · next c r eq =>
    rw [eq] at noMark
    rw [eq, if_neg fun mark => noMark (congrArg some mark)]
  · next eq => rw [eq]

end BuildVariants.Toml
