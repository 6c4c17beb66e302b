import BuildVariants.ArgumentText
import BuildVariants.Proofs.Words.Grammar
import Mathlib.Data.List.Induction

/-!
# Splitting is deriving

The splitter accepts just the lines of the grammar, and gives their words.  What carries the proof
is that a line up to here belongs to just the state that it is read into (`reached_iff`): each kind
of state belongs to one kind of beginning (`Reached`), one more character leads from a beginning to
the next (`Reached.step`), and every beginning is read into its state (`Reached.run_eq`).

A line that ends here is then derived if its beginning is complete, and it is unfinished if there is
a cut piece at its end; no third kind of state is left.
-/

namespace BuildVariants.Words

variable {f t w o v body : List Char} {ws : List (List Char)} {c : Char} {mode : Mode}

/-! ## One more character of a word -/

/-- One more piece makes a word of its beginning. -/
theorem WordStart.snoc (start : WordStart t w) (piece : Piece o v)
    (noComment : t = [] → o.head? ≠ some '#') : WordText (t ++ o) (w ++ v) := by
  have nonempty : t ++ o ≠ [] := by
    obtain ⟨c, first, -⟩ := piece.exists_head
    intro none
    rw [(List.append_eq_nil_iff.1 none).2] at first
    cases first
  refine ⟨⟨.snoc start.pieces piece, ?_⟩, nonempty⟩
  cases t with
  | nil => exact noComment rfl
  | cons c t => exact start.noComment

/-- One more character of a cut piece leaves it cut, or completes it. -/
theorem CutPiece.step (cut : CutPiece mode o v) (words : List (List Char)) (word : List Char)
    (c : Char) :
    (∃ next v', State.step ⟨words, word ++ v, mode⟩ c = ⟨words, word ++ v', next⟩ ∧
      CutPiece next (o ++ [c]) v') ∨
    (∃ v', State.step ⟨words, word ++ v, mode⟩ c = ⟨words, word ++ v', .bare⟩ ∧
      Piece (o ++ [c]) v') := by
  -- The cases are the ways in which a piece can be open; the next character closes it or does not.
  cases cut with
  | escaped =>
    refine .inr ?_
    by_cases newline : c = '\n'
    · subst newline
      exact ⟨[], rfl, .continuation⟩
    · refine ⟨[c], ?_, .escape newline⟩
      simp only [State.step, if_neg newline, List.append_nil]
  | single noQuote =>
    by_cases quote : c = '\''
    · subst quote
      exact .inr ⟨_, rfl, .single noQuote⟩
    · have noQuote' : '\'' ∉ v ++ [c] := by
        rw [List.mem_append, List.mem_singleton, not_or]
        exact ⟨noQuote, Ne.symm quote⟩
      refine .inl ⟨.single, v ++ [c], ?_, .single noQuote'⟩
      simp only [State.step, if_neg quote, List.append_assoc]
  | double body =>
    by_cases quote : c = '"'
    · subst quote
      exact .inr ⟨_, rfl, .double body⟩
    · by_cases backslash : c = '\\'
      · subst backslash
        exact .inl ⟨.doubleEscaped, _, rfl, .doubleEscaped body⟩
      · refine .inl ⟨.double, _, ?_, .double (.plain body quote backslash)⟩
        simp only [State.step, if_neg quote, if_neg backslash, List.append_assoc]
  | @doubleEscaped t v body =>
    have regroup : '"' :: t ++ ['\\'] ++ [c] = '"' :: (t ++ ['\\', c]) := by
      rw [List.append_assoc]
      rfl
    rw [regroup]
    refine .inl ⟨.double, ?_⟩
    by_cases newline : c = '\n'
    · subst newline
      exact ⟨_, rfl, .double (.continuation body)⟩
    · by_cases hidden : c ∈ hiddenInDouble
      · refine ⟨_, ?_, .double (.escape body hidden)⟩
        simp only [State.step, if_neg newline, isProtectedInDouble_iff.2 hidden, if_true,
          List.append_assoc]
      · refine ⟨_, ?_, .double (.backslash body hidden newline)⟩
        simp only [State.step, if_neg newline, if_neg (mt isProtectedInDouble_iff.1 hidden),
          List.append_assoc]

/-! ## One more character in front of a word -/

theorem EndsWord.append {e : List Char} (ends : EndsWord e) (more : List Char) :
    EndsWord (e ++ more) := by
  obtain ⟨c, blank, rest, rfl⟩ := ends
  exact ⟨c, blank, rest ++ more, rfl⟩

/-- A blank behind finished words adds nothing. -/
theorem Front.blank (front : Front f ws) (blank : c ∈ blanks) : Front (f ++ [c]) ws := by
  cases front with
  | start gap => exact .start (.blank gap blank)
  | behind gap sentence gap' ends =>
    rw [List.append_assoc]
    exact .behind gap sentence (.blank gap' blank) (ends.append [c])

/-- A comment behind finished words adds nothing either, up to the end of its line. -/
theorem Front.comment (front : Front f ws) (oneLine : '\n' ∉ body) :
    Front (f ++ '#' :: body ++ ['\n']) ws := by
  cases front with
  | start gap => exact .start (.comment gap oneLine)
  | behind gap sentence gap' ends =>
    rw [List.append_assoc, List.append_assoc, ← List.append_assoc _ ('#' :: body)]
    refine .behind gap sentence (.comment gap' oneLine) ?_
    rw [List.append_assoc]
    exact ends.append _

/-- With a word behind it, what stands in front of the word is a gap and words. -/
theorem Front.exists_sentence (front : Front f ws) (text : WordText t w) :
    ∃ g s, Gap g ∧ Sentence s (ws ++ [w]) ∧ f ++ t = g ++ s := by
  cases front with
  | start gap => exact ⟨_, _, gap, .word text, rfl⟩
  | behind gap sentence gap' ends =>
    refine ⟨_, _, gap, .snoc sentence gap' ends text, ?_⟩
    simp only [List.append_assoc]

/-- A word is finished by the blank behind it. -/
theorem Front.word (front : Front f ws) (text : WordText t w) (blank : c ∈ blanks) :
    Front (f ++ t ++ [c]) (ws ++ [w]) := by
  obtain ⟨g, s, gap, sentence, split⟩ := front.exists_sentence text
  rw [split]
  exact .behind gap sentence (.blank .nil blank) ⟨c, blank, [], rfl⟩

/-! ## Where the splitter stands -/

/-- The states of the splitter, and the beginnings of lines that lead there. -/
inductive Reached : List Char → State → Prop
  | gap {f : List Char} {ws : List (List Char)} : Front f ws → Reached f ⟨ws, [], .gap⟩
  | comment {f body : List Char} {ws : List (List Char)} : Front f ws → '\n' ∉ body →
      Reached (f ++ '#' :: body) ⟨ws, [], .comment⟩
  | bare {f t w : List Char} {ws : List (List Char)} : Front f ws → WordText t w →
      Reached (f ++ t) ⟨ws, w, .bare⟩
  | cut {f t w o v : List Char} {ws : List (List Char)} {mode : Mode} : Front f ws →
      WordStart t w → CutPiece mode o v → Reached (f ++ t ++ o) ⟨ws, w ++ v, mode⟩

/-- A character that is no blank is a piece, or a piece begins with it. -/
theorem plain_or_cutPiece (notBlank : c ∉ blanks) :
    c ∉ specialChars ∨ ∃ next, CutPiece next [c] [] ∧
      ∀ s : State, s.stepBare c = { s with mode := next } := by
  by_cases special : c ∈ specialChars
  · rw [specialChars_eq, List.mem_append] at special
    have opens := special.resolve_left notBlank
    simp only [List.mem_cons, List.not_mem_nil, or_false] at opens
    obtain rfl | rfl | rfl := opens
    · exact .inr ⟨.single, .single List.not_mem_nil, fun _ => rfl⟩
    · exact .inr ⟨.double, .double .nil, fun _ => rfl⟩
    · exact .inr ⟨.escaped, .escaped, fun _ => rfl⟩
  · exact .inl special

/-- One more character outside of all quotes. -/
theorem reached_stepBare (front : Front f ws) (start : WordStart t w) (mode : Mode)
    (first : t = [] → c ∉ blanks ∧ c ≠ '#') :
    Reached (f ++ t ++ [c]) (State.stepBare ⟨ws, w, mode⟩ c) := by
  by_cases blank : c ∈ blanks
  · rw [State.stepBare_of_blank _ blank]
    exact .gap (front.word ⟨start, fun none => (first none).1 blank⟩ blank)
  · obtain plain | ⟨next, cut, step⟩ := plain_or_cutPiece blank
    · rw [State.stepBare_of_plain _ plain, List.append_assoc]
      refine .bare front (start.snoc (.plain plain) fun none => ?_)
      exact fun comment => (first none).2 (Option.some.inj comment)
    · have reached := Reached.cut front start cut
      rw [List.append_nil] at reached
      rwa [step]

/-- **One more character** leads to the next state. -/
theorem Reached.step {cs : List Char} {s : State} (reached : Reached cs s) (c : Char) :
    Reached (cs ++ [c]) (s.step c) := by
  cases reached with
  | gap front =>
    unfold State.step
    dsimp only
    split
    · next blank => exact .gap (front.blank (isSeparator_iff.1 blank))
    · next notBlank =>
      split
      · next comment =>
        subst comment
        exact .comment front List.not_mem_nil
      · next noComment =>
        -- No word has been begun, so the empty one is what the character is added to.
        have stepped := reached_stepBare front ⟨.nil, nofun⟩ .gap
          (c := c) fun _ => ⟨mt isSeparator_iff.2 notBlank, noComment⟩
        rwa [List.append_nil] at stepped
  | @comment f body ws front oneLine =>
    by_cases newline : c = '\n'
    · subst newline
      exact .gap (front.comment oneLine)
    · have oneLine' : '\n' ∉ body ++ [c] := by
        rw [List.mem_append, List.mem_singleton, not_or]
        exact ⟨oneLine, Ne.symm newline⟩
      simp only [State.step, if_neg newline]
      rw [List.append_assoc]
      exact .comment front oneLine'
  | bare front text =>
    exact reached_stepBare front text.toWordStart .bare fun none => absurd none text.nonempty
  | @cut f t w o v ws mode front start cut =>
    obtain ⟨next, v', step, cut'⟩ | ⟨v', step, piece⟩ := cut.step ws w c
    · rw [step, List.append_assoc]
      exact .cut front start cut'
    · rw [step, List.append_assoc, List.append_assoc]
      refine .bare front (start.snoc piece fun _ => ?_)
      obtain ⟨d, first, -, noComment⟩ := cut.exists_head
      rw [List.head?_append, first]
      exact fun comment => noComment (Option.some.inj comment)

/-- **A whole line** leads to the state it is read into: one character after the other. -/
theorem reached_run (cs : List Char) : Reached cs (State.start.run cs) := by
  induction cs using List.reverseRecOn with
  | nil => exact .gap (.start .nil)
  | append_singleton cs c ih =>
    rw [State.run_append]
    exact ih.step c

/-- Every beginning of a line is read into its state. -/
theorem Reached.run_eq {cs : List Char} {s : State} (reached : Reached cs s) :
    State.start.run cs = s := by
  cases reached with
  | gap front => exact front.run
  | comment front oneLine =>
    rw [State.run_append, front.run]
    exact State.run_comment _ oneLine
  | bare front text => rw [State.run_append, front.run, text.run]
  | cut front start cut =>
    rw [List.append_assoc, State.run_append, front.run,
      start.run_append _ fun _ => cut.exists_head, cut.run]

/-- The beginning of a line and the state of the splitter determine each other. -/
theorem reached_iff {cs : List Char} {s : State} : Reached cs s ↔ State.start.run cs = s :=
  ⟨Reached.run_eq, fun run => run ▸ reached_run cs⟩

/-! ## Lines that end here -/

/-- Behind a gap, words are what stands in front of the last of them, and that one. -/
theorem Sentence.exists_front {g s : List Char} (gap : Gap g) (sentence : Sentence s ws) :
    ∃ f t us w, Front f us ∧ WordText t w ∧ f ++ t = g ++ s ∧ us ++ [w] = ws := by
  cases sentence with
  | word text => exact ⟨_, _, _, _, .start gap, text, rfl, rfl⟩
  | snoc sentence gap' ends text =>
    refine ⟨_, _, _, _, .behind gap sentence gap' ends, text, ?_, rfl⟩
    simp only [List.append_assoc]

/-- The blank that ends a word is not part of a comment. -/
theorem EndsWord.of_comment {g : List Char} (ends : EndsWord (g ++ '#' :: body)) : EndsWord g := by
  obtain ⟨c, blank, rest, split⟩ := ends
  cases g with
  | nil =>
    cases split
    exact absurd blank (by decide)
  | cons d g =>
    cases split
    exact ⟨c, blank, g, rfl⟩

/-- A line is derived if it leads to a state in which it may end. -/
theorem derives_iff {cs : List Char} :
    Derives cs ws ↔ ∃ s, Reached cs s ∧ s.finish = some ws := by
  -- What a line ends with decides the state: a gap, a comment, or the word it has come to.
  constructor
  · intro derives
    cases derives with
    | empty closing =>
      cases closing with
      | gap gap => exact ⟨_, .gap (.start gap), rfl⟩
      | comment gap oneLine => exact ⟨_, .comment (.start gap) oneLine, rfl⟩
    | words gap sentence ends closing =>
      obtain rfl | ends := ends
      · obtain ⟨f, t, us, w, front, text, split, rfl⟩ := sentence.exists_front gap
        rw [List.append_nil, ← split]
        exact ⟨_, .bare front text, rfl⟩
      · cases closing with
        | gap gap' => exact ⟨_, .gap (.behind gap sentence gap' ends), rfl⟩
        | comment gap' oneLine =>
          rw [← List.append_assoc]
          exact ⟨_, .comment (.behind gap sentence gap' ends.of_comment) oneLine, rfl⟩
  · rintro ⟨s, reached, finish⟩
    cases reached with
    | gap front =>
      cases finish
      cases front with
      | start gap => exact .empty (.gap gap)
      | behind gap sentence gap' ends => exact .words gap sentence (.inr ends) (.gap gap')
    | comment front oneLine =>
      cases finish
      cases front with
      | start gap => exact .empty (.comment gap oneLine)
      | behind gap sentence gap' ends =>
        rw [List.append_assoc]
        exact .words gap sentence (.inr (ends.append _)) (.comment gap' oneLine)
    | bare front text =>
      cases finish
      obtain ⟨g, s, gap, sentence, split⟩ := front.exists_sentence text
      rw [split, ← List.append_nil (g ++ s)]
      exact .words gap sentence (.inl rfl) (.gap .nil)
    | cut _ _ cut => cases cut <;> cases finish

/-- A line is unfinished if it leads to a state in which it may not end. -/
theorem unfinished_iff {cs : List Char} :
    Unfinished cs ↔ ∃ s, Reached cs s ∧ s.finish = none := by
  constructor
  · rintro ⟨front, start, cut⟩
    refine ⟨_, .cut front start cut, ?_⟩
    cases cut <;> rfl
  · rintro ⟨s, reached, finish⟩
    cases reached with
    | gap | comment | bare => cases finish
    | cut front start cut => exact .cut front start cut

/-- The splitter finds words just where they can be derived, and finds those. -/
theorem splitChars_eq_some_iff {cs : List Char} : splitChars cs = some ws ↔ Derives cs ws := by
  simp only [derives_iff, reached_iff, exists_eq_left']
  rfl

/-- The splitter fails just where the line is unfinished. -/
theorem splitChars_eq_none_iff {cs : List Char} : splitChars cs = none ↔ Unfinished cs := by
  simp only [unfinished_iff, reached_iff, exists_eq_left']
  rfl

/-- The same for texts instead of lists of characters. -/
theorem split_eq_some_iff {line : String} {words : List String} :
    split line = some words ↔ Derives line.toList (words.map String.toList) := by
  rw [← splitChars_eq_some_iff]
  unfold split
  constructor
  · intro h
    obtain ⟨ws, found, rfl⟩ := Option.map_eq_some_iff.1 h
    rw [found, List.map_map]
    simp [Function.comp_def]
  · intro found
    rw [found, Option.map_some, List.map_map]
    simp [Function.comp_def]

theorem split_eq_none_iff {line : String} : split line = none ↔ Unfinished line.toList := by
  rw [← splitChars_eq_none_iff]
  exact Option.map_eq_none_iff

end BuildVariants.Words

namespace BuildVariants

open Words

theorem splitLine_eq_ok_iff {line : String} {words : List String} :
    splitLine line = .ok words ↔ split line = some words := by
  unfold splitLine
  split
  · next found => rw [found, Except.ok.injEq, Option.some.injEq]
  · next none =>
    rw [none]
    exact iff_of_false nofun nofun

/-- The only diagnostic is that of a malformed line, and it quotes the whole line. -/
theorem splitLine_eq_error_iff {line : String} {e : Diagnostic} :
    splitLine line = .error e ↔ e = .malformedArguments line ∧ split line = none := by
  unfold splitLine
  split
  · next found =>
    rw [found]
    exact iff_of_false nofun nofun
  · next none =>
    rw [Except.error.injEq, eq_comm]
    exact (and_iff_left none).symm

/-- **Argument lines are cut by their grammar.**  The words of a line are what the line derives.  A
line that derives nothing is refused as a whole, and these lines are those that end inside a quote
or right behind a backslash. -/
theorem splitLine_exact (line : String) :
    (∀ words : List String,
      splitLine line = .ok words ↔ Derives line.toList (words.map String.toList)) ∧
    (∀ e, splitLine line = .error e ↔ e = .malformedArguments line ∧
      ∀ words : List String, ¬ Derives line.toList (words.map String.toList)) ∧
    ((∀ words : List String, ¬ Derives line.toList (words.map String.toList)) ↔
      Unfinished line.toList) := by
  have underived : (∀ words : List String, ¬ Derives line.toList (words.map String.toList)) ↔
      split line = none := by
    simp only [← split_eq_some_iff, Option.eq_none_iff_forall_ne_some]
  refine ⟨fun words => ?_, fun e => ?_, ?_⟩
  · rw [splitLine_eq_ok_iff, split_eq_some_iff]
  · rw [splitLine_eq_error_iff, underived]
  · rw [underived, split_eq_none_iff]

/-- A line break behind a backslash vanishes, but it has begun a word; in a word `#` is plain. -/
example : splitLine "\\\n 'x'#y #z" = .ok ["", "x#y"] := by
  decide +kernel

end BuildVariants
