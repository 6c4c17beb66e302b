import BuildVariants.Proofs.Words.Derivation

/-!
# Lists of words on one line

A list of words can be put on one line with blanks between them.  Where each of the texts is read as
one word, the list is read back (`split_intercalate`).  A quoted word is read as that word whatever
it holds, so every list can be written as a line.  Without quotes the words have to be plain, and it
does not help that a line is read as a whole: a line is never shorter than its words and the blanks
between them, and it is longer as soon as one of its characters does not stand for itself
(`Derives.plain_of_length_le`).  What is lost to a quote in one word can therefore not be made up
for in another.
-/

namespace BuildVariants.Words

/-! ## Reading a list back -/

/-- Texts that are read as words are read one by one. -/
theorem split_intercalate {spelling : String → String} {words : List String}
    (opened : ∀ word ∈ words,
      State.start.run (spelling word).toList = ⟨[], word.toList, .bare⟩) :
    split (" ".intercalate (words.map spelling)) = some words := by
  induction words with
  | nil => rfl
  | cons word words ih =>
    have first := opened word List.mem_cons_self
    cases words with
    | nil =>
      rw [List.map_singleton, String.intercalate_singleton]
      unfold split splitChars
      rw [first]
      show some [String.ofList word.toList] = _
      rw [String.ofList_toList]
    | cons next words =>
      rw [List.map_cons, List.map_cons, String.intercalate_cons_cons, split_append_of_run first,
        ← List.map_cons, ih fun w hw => opened w (List.mem_cons_of_mem word hw)]
      rfl

/-! ## Quoted words -/

/-- A word between single quotes, with each single quote inside written outside of them. -/
def quoteChars (word : List Char) : List Char :=
  '\'' :: word.flatMap (fun c => if c = '\'' then ['\'', '\\', '\'', '\''] else [c]) ++ ['\'']

/-- A word written so that `split` reads it back whatever it holds. -/
def quote (word : String) : String :=
  String.ofList (quoteChars word.toList)

/-- Inside the quotes each character is added to the word; a single quote is added on a detour
through the outside. -/
theorem State.run_single_of_quoted (words : List (List Char)) (word cs : List Char) :
    State.run ⟨words, word, .single⟩
        (cs.flatMap fun c => if c = '\'' then ['\'', '\\', '\'', '\''] else [c])
      = ⟨words, word ++ cs, .single⟩ := by
  induction cs generalizing word with
  | nil => rw [List.append_nil]; rfl
  | cons c cs ih =>
    have added : State.run ⟨words, word, .single⟩
        (if c = '\'' then ['\'', '\\', '\'', '\''] else [c])
        = ⟨words, word ++ [c], .single⟩ := by
      split
      · next quote =>
        subst quote
        rfl
      · next other =>
        simp only [run_cons, run_nil, step, if_neg other]
    rw [List.flatMap_cons, run_append, added, ih, List.append_assoc, List.singleton_append]

/-- A quoted word is read as that word, whatever it holds. -/
theorem run_start_quote (word : String) :
    State.start.run (quote word).toList = ⟨[], word.toList, .bare⟩ := by
  unfold quote quoteChars
  rw [String.toList_ofList, List.cons_append, State.run_cons, State.run_append]
  show State.run (State.run ⟨[], [], .single⟩ _) _ = _
  rw [State.run_single_of_quoted]
  rfl

/-! ## How long a line is -/

/-- What stands between double quotes gets no longer when the escapes are taken away. -/
theorem DoubleBody.length_le {t v : List Char} (body : DoubleBody t v) : v.length ≤ t.length := by
  induction body <;> simp only [List.length_append, List.length_cons, List.length_nil] <;> omega

/-- A piece is no shorter than what it stands for, and longer unless it stands for itself. -/
theorem Piece.plain_or_longer {t v : List Char} (piece : Piece t v) :
    (v = t ∧ ∀ c ∈ t, c ∉ specialChars) ∨ v.length < t.length := by
  cases piece with
  | plain special =>
    refine .inl ⟨rfl, fun c mem => ?_⟩
    rwa [List.mem_singleton.1 mem]
  | escape => exact .inr (Nat.lt_succ_self 1)
  | continuation => exact .inr (Nat.zero_lt_succ 1)
  | single =>
    refine .inr ?_
    rw [List.length_append, List.length_cons, List.length_singleton]
    omega
  | double body =>
    have bound := body.length_le
    refine .inr ?_
    rw [List.length_append, List.length_cons, List.length_singleton]
    omega

/-- Pieces that are not plain lose at least one character: a quote or a backslash. -/
theorem Pieces.plain_or_longer {t v : List Char} (pieces : Pieces t v) :
    (v = t ∧ ∀ c ∈ t, c ∉ specialChars) ∨ v.length < t.length := by
  induction pieces with
  | nil => exact .inl ⟨rfl, nofun⟩
  | snoc _ piece ih =>
    rw [List.length_append, List.length_append]
    obtain ⟨rfl, plain⟩ | longer := ih <;> obtain ⟨rfl, plain'⟩ | longer' := piece.plain_or_longer
    · exact .inl ⟨rfl, fun c mem => (List.mem_append.1 mem).elim (plain c) (plain' c)⟩
    all_goals exact .inr (by omega)

/-- A word that is as long as its text is plain. -/
theorem WordText.plain_or_longer {t w : List Char} (text : WordText t w) :
    (w.length = t.length ∧ IsPlainWord (String.ofList w)) ∨ w.length < t.length := by
  obtain ⟨rfl, plain⟩ | longer := text.pieces.plain_or_longer
  · refine .inl ⟨rfl, ?_, ?_, ?_⟩
    · exact fun empty => text.nonempty (String.ofList_eq_empty_iff.1 empty)
    · rw [String.toList_ofList]
      exact text.noComment
    · unfold IsPlain
      rwa [String.toList_ofList]
  · exact .inr longer

/-- The length of words with a character behind each of them. -/
def spread : List (List Char) → Nat
  | [] => 0
  | word :: words => word.length + 1 + spread words

theorem spread_cons (word : List Char) (words : List (List Char)) :
    spread (word :: words) = word.length + 1 + spread words := rfl

theorem spread_singleton (word : List Char) : spread [word] = word.length + 1 := rfl

theorem spread_append (words more : List (List Char)) :
    spread (words ++ more) = spread words + spread more := by
  induction words with
  | nil => exact (Nat.zero_add _).symm
  | cons word words ih =>
    rw [List.cons_append, spread_cons, spread_cons, ih]
    omega

/-- Words and the blanks between them have room on the line, and no room is left only if the words
are plain. -/
theorem Sentence.spread_le {s : List Char} {ws : List (List Char)} (sentence : Sentence s ws) :
    spread ws ≤ s.length + 1 ∧
      (s.length + 1 ≤ spread ws → ∀ w ∈ ws, IsPlainWord (String.ofList w)) := by
  induction sentence with
  | word text =>
    rw [spread_singleton]
    obtain ⟨same, plain⟩ | longer := text.plain_or_longer
    · refine ⟨by omega, fun _ w mem => ?_⟩
      rwa [List.mem_singleton.1 mem]
    · exact ⟨by omega, by omega⟩
  | snoc _ _ ends text ih =>
    obtain ⟨bound, tight⟩ := ih
    obtain ⟨b, -, rest, rfl⟩ := ends
    rw [spread_append, spread_singleton, List.length_append, List.length_append, List.length_cons]
    obtain ⟨same, plain⟩ | longer := text.plain_or_longer
    · refine ⟨by omega, fun full w mem => ?_⟩
      obtain mem | mem := List.mem_append.1 mem
      · exact tight (by omega) w mem
      · rwa [List.mem_singleton.1 mem]
    · exact ⟨by omega, by omega⟩

/-- **A line as short as its words** has plain words only. -/
theorem Derives.plain_of_length_le {line : List Char} {ws : List (List Char)}
    (derives : Derives line ws) (short : line.length + 1 ≤ spread ws) :
    ∀ w ∈ ws, IsPlainWord (String.ofList w) := by
  cases derives with
  | empty => exact nofun
  | words _ sentence =>
    obtain ⟨bound, tight⟩ := sentence.spread_le
    rw [List.length_append, List.length_append] at short
    exact tight (by omega)

/-- A list joined by blanks is as long as that. -/
theorem length_intercalate {item : String} {items : List String} :
    (" ".intercalate (item :: items)).toList.length + 1
      = spread ((item :: items).map String.toList) := by
  induction items generalizing item with
  | nil => rw [String.intercalate_singleton]; rfl
  | cons next items ih =>
    rw [String.intercalate_cons_cons, String.toList_append, String.toList_append,
      List.length_append, List.length_append, List.map_cons, spread_cons, ← ih]
    exact Nat.add_assoc _ _ 1

end BuildVariants.Words

namespace BuildVariants

open Words

/-- **Every list of words can be written as a line.**  Each word is quoted, and the line is cut into
the words that the list gives, wherever arguments are given as a line. -/
theorem quoted_words_agree (words : List String) :
    let line := " ".intercalate (words.map quote)
    ArgumentText.expand (.line line) = .ok words ∧
    optionWords (some (.line line)) = .ok words ∧
    ArgumentText.expand (.list words) = .ok words := by
  intro line
  have cut : splitLine line = .ok words :=
    splitLine_eq_ok_iff.2 (split_intercalate fun word _ => run_start_quote word)
  exact ⟨cut, cut, rfl⟩

/-- **A list agrees with its line just when its items are plain words.** -/
theorem joined_list_agrees_iff (items : List String) :
    (optionWords (some (.line (optionLine (some (.list items))))) = .ok items ∧
      optionWords (some (.list items)) = .ok items) ↔ ∀ item ∈ items, IsPlainWord item := by
  show (splitLine (" ".intercalate items) = .ok items ∧ _) ↔ _
  rw [and_iff_left (show optionWords (some (.list items)) = .ok items from rfl),
    splitLine_eq_ok_iff]
  constructor
  · intro cut item mem
    have derives := split_eq_some_iff.1 cut
    cases items with
    | nil => cases mem
    | cons first items =>
      have plain := derives.plain_of_length_le (Nat.le_of_eq length_intercalate) item.toList
        (List.mem_map_of_mem mem)
      rwa [String.ofList_toList] at plain
  · intro plain
    have cut : split (" ".intercalate (items.map id)) = some items :=
      split_intercalate fun item mem => run_start_of_plain (plain item mem)
    rwa [List.map_id] at cut

/-- Quotes that are opened in one item and closed in another put the items together. -/
example : optionWords (some (.line (optionLine (some (.list ["-DA='1", "2'"])))))
    = .ok ["-DA=1 2"] := by
  decide +kernel

end BuildVariants
