import BuildVariants.Words

/-!
# Words that stand for themselves

Six characters of an argument line do not stand for themselves: the separators, the quotes and the
backslash.  A word without them is read as it is written, if it does not begin a comment, and a
separator behind it brings the splitter back to where it was in front of the word.  So a line that
begins with plain words is read as these words and then as what follows them, whatever that is
(`split_append_of_plain`).
-/

namespace BuildVariants.Words

/-- The characters of an argument line that do not stand for themselves. -/
def specialChars : List Char := [' ', '\t', '\n', '\'', '"', '\\']

/-- A text all of whose characters stand for themselves inside a word. -/
def IsPlain (text : String) : Prop :=
  ∀ c ∈ text.toList, c ∉ specialChars

instance (text : String) : Decidable (IsPlain text) :=
  List.decidableBAll (· ∉ specialChars) text.toList

/-- A text that is a word of an argument line as it stands. -/
structure IsPlainWord (text : String) : Prop where
  /-- There is something to read. -/
  nonempty : text ≠ ""
  /-- It does not begin a comment. -/
  noComment : text.toList.head? ≠ some '#'
  /-- Nothing in it groups or ends words. -/
  plain : IsPlain text

theorem isPlain_append {a b : String} (ha : IsPlain a) (hb : IsPlain b) : IsPlain (a ++ b) := by
  intro c mem
  rw [String.toList_append, List.mem_append] at mem
  exact mem.elim (ha c) (hb c)

/-- A plain word may be continued by anything plain. -/
theorem IsPlainWord.append {word text : String} (h : IsPlainWord word) (plain : IsPlain text) :
    IsPlainWord (word ++ text) := by
  have present : word.toList ≠ [] := fun none => h.nonempty (String.toList_eq_nil_iff.1 none)
  obtain ⟨c, cs, split⟩ := List.exists_cons_of_ne_nil present
  have continued : (word ++ text).toList = c :: (cs ++ text.toList) := by
    rw [String.toList_append, split, List.cons_append]
  have first := h.noComment
  rw [split] at first
  refine ⟨?_, ?_, isPlain_append h.plain plain⟩
  · intro empty
    rw [empty] at continued
    cases continued
  · rw [continued]
    exact first

theorem isSeparator_of_plain {c : Char} (plain : c ∉ specialChars) : isSeparator c = false := by
  simp only [specialChars, List.mem_cons, List.not_mem_nil, or_false, not_or] at plain
  obtain ⟨blank, tab, newline, -⟩ := plain
  simp [isSeparator, blank, tab, newline]

/-! ## Reading a plain word -/

/-- A character that stands for itself is added to the open word. -/
theorem State.stepBare_of_plain (s : State) {c : Char} (plain : c ∉ specialChars) :
    s.stepBare c = ⟨s.words, s.word ++ [c], .bare⟩ := by
  have separates := isSeparator_of_plain plain
  simp only [specialChars, List.mem_cons, List.not_mem_nil, or_false, not_or] at plain
  obtain ⟨-, -, -, single, double, backslash⟩ := plain
  unfold stepBare
  rw [separates, if_neg Bool.false_ne_true, if_neg double, if_neg single, if_neg backslash]

/-- The induction is on the characters, inside the open word. -/
theorem State.run_bare_of_plain (words : List (List Char)) (word cs : List Char)
    (plain : ∀ c ∈ cs, c ∉ specialChars) :
    State.run ⟨words, word, .bare⟩ cs = ⟨words, word ++ cs, .bare⟩ := by
  induction cs generalizing word with
  | nil => rw [run_nil, List.append_nil]
  | cons c cs ih =>
    have opened : State.step ⟨words, word, .bare⟩ c = ⟨words, word ++ [c], .bare⟩ :=
      stepBare_of_plain ⟨words, word, .bare⟩ (plain c List.mem_cons_self)
    rw [run_cons, opened, ih _ fun d hd => plain d (List.mem_cons_of_mem c hd),
      List.append_assoc, List.singleton_append]

/-- A plain word is open when all of it has been read. -/
theorem run_start_of_plain {text : String} (word : IsPlainWord text) :
    State.start.run text.toList = ⟨[], text.toList, .bare⟩ := by
  have present : text.toList ≠ [] := fun none => word.nonempty (String.toList_eq_nil_iff.1 none)
  obtain ⟨c, cs, split⟩ := List.exists_cons_of_ne_nil present
  have plain := word.plain
  have noComment := word.noComment
  unfold IsPlain at plain
  rw [split] at plain noComment ⊢
  have first : c ∉ specialChars := plain c List.mem_cons_self
  have opened : State.start.step c = ⟨[], [c], .bare⟩ := by
    show (if isSeparator c then _ else if c = '#' then _ else _) = _
    rw [isSeparator_of_plain first, if_neg Bool.false_ne_true,
      if_neg fun is => noComment (congrArg some is),
      State.stepBare_of_plain _ first]
    rfl
  rw [State.run_cons, opened]
  exact State.run_bare_of_plain [] [c] cs fun d hd => plain d (List.mem_cons_of_mem c hd)

/-! ## Reading on behind it -/

/-- Between two words the rest of a line is read like a line of its own. -/
theorem State.finish_run_gap (words : List (List Char)) (rest : List Char) :
    (State.run ⟨words, [], .gap⟩ rest).finish = (splitChars rest).map (words ++ ·) := by
  have seam : (⟨words, [], .gap⟩ : State) = start.after words := by
    unfold after start
    rw [List.append_nil]
  rw [seam, run_after, finish_after]
  rfl

/-- It is the same where a separator brings the splitter back between two words. -/
theorem splitChars_append_separator {front : List Char} {words : List (List Char)} {sep : Char}
    (back : (State.start.run front).step sep = ⟨words, [], .gap⟩) (rest : List Char) :
    splitChars (front ++ sep :: rest) = (splitChars rest).map (words ++ ·) := by
  unfold splitChars
  rw [State.run_append, State.run_cons, back, State.finish_run_gap]
  rfl

/-- A text that is read as one word is the first word of a line, whatever follows the blank. -/
theorem split_append_of_run {text word : String}
    (opened : State.start.run text.toList = ⟨[], word.toList, .bare⟩) (rest : String) :
    split (text ++ " " ++ rest) = (split rest).map (word :: ·) := by
  have back : (State.start.run text.toList).step ' ' = ⟨[word.toList], [], .gap⟩ := by
    rw [opened]
    rfl
  have line : (text ++ " " ++ rest).toList = text.toList ++ ' ' :: rest.toList := by
    rw [String.toList_append, String.toList_append, List.append_assoc]
    rfl
  unfold split
  rw [line, splitChars_append_separator back, Option.map_map, Option.map_map]
  refine congrArg (Option.map · _) (funext fun words => ?_)
  show String.ofList word.toList :: words.map String.ofList = _
  rw [String.ofList_toList]
  rfl

/-- **A plain word at the beginning of a line is its first word**, whatever follows the blank. -/
theorem split_append_of_plain {text : String} (word : IsPlainWord text) (rest : String) :
    split (text ++ " " ++ rest) = (split rest).map (text :: ·) :=
  split_append_of_run (run_start_of_plain word) rest

end BuildVariants.Words
