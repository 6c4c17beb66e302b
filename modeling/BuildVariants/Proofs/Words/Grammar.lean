import BuildVariants.Proofs.Words.PlainWords

/-!
# The grammar of an argument line

An argument line is blanks and comments, then words with at least one blank between them, then
blanks and comments (`Derives`).  A word is a run of pieces and stands for what its pieces stand
for; there are plain characters, backslash pairs and two kinds of quotes (`Piece`).

The grammar says nothing of how a line is read, and it never looks ahead: everything in it is built
by adding to the end, so a line can be cut at any character, and what stands in front of the cut is
some beginning of a line.  In front of a word that is a `Front`; the beginning of a word is a
`WordStart`; and a piece that lacks its end is a `CutPiece`.  A line with a cut piece at its end is
`Unfinished`.  Here the splitter is run over each of these, one after the other.
-/

namespace BuildVariants.Words

/-! ## Characters -/

/-- The characters that separate words. -/
def blanks : List Char := [' ', '\t', '\n']

/-- The other characters that do not stand for themselves begin a piece. -/
theorem specialChars_eq : specialChars = blanks ++ ['\'', '"', '\\'] := rfl

/-- The characters that a backslash hides inside double quotes. -/
def hiddenInDouble : List Char := ['$', '\x60', '"', '\\']

/-- The test of the splitter decides the blanks of the grammar. -/
theorem isSeparator_iff {c : Char} : isSeparator c = true ↔ c ∈ blanks := by
  simp [isSeparator, blanks, or_assoc]

theorem isProtectedInDouble_iff {c : Char} : isProtectedInDouble c = true ↔ c ∈ hiddenInDouble := by
  simp [isProtectedInDouble, hiddenInDouble, or_assoc]

/-! ## Words -/

/-- What may stand between double quotes, and what it stands for. -/
inductive DoubleBody : List Char → List Char → Prop
  | nil : DoubleBody [] []
  /-- Most characters stand for themselves. -/
  | plain {t v : List Char} {c : Char} : DoubleBody t v → c ≠ '"' → c ≠ '\\' →
      DoubleBody (t ++ [c]) (v ++ [c])
  /-- A backslash makes one of four characters stand for itself. -/
  | escape {t v : List Char} {c : Char} : DoubleBody t v → c ∈ hiddenInDouble →
      DoubleBody (t ++ ['\\', c]) (v ++ [c])
  /-- A backslash takes a line break away. -/
  | continuation {t v : List Char} : DoubleBody t v → DoubleBody (t ++ ['\\', '\n']) v
  /-- In front of any other character a backslash stands for itself. -/
  | backslash {t v : List Char} {c : Char} : DoubleBody t v → c ∉ hiddenInDouble → c ≠ '\n' →
      DoubleBody (t ++ ['\\', c]) (v ++ ['\\', c])

/-- A piece of a word, and what it stands for. -/
inductive Piece : List Char → List Char → Prop
  | plain {c : Char} : c ∉ specialChars → Piece [c] [c]
  /-- Outside of quotes a backslash makes any character stand for itself, -/
  | escape {c : Char} : c ≠ '\n' → Piece ['\\', c] [c]
  /-- but takes a line break away. -/
  | continuation : Piece ['\\', '\n'] []
  | single {body : List Char} : '\'' ∉ body → Piece ('\'' :: body ++ ['\'']) body
  | double {t v : List Char} : DoubleBody t v → Piece ('"' :: t ++ ['"']) v

/-- A run of pieces. -/
inductive Pieces : List Char → List Char → Prop
  | nil : Pieces [] []
  | snoc {t v t' v' : List Char} : Pieces t v → Piece t' v' → Pieces (t ++ t') (v ++ v')

/-- Some pieces where a word may begin; perhaps none. -/
structure WordStart (text word : List Char) : Prop where
  /-- The word is what the pieces stand for. -/
  pieces : Pieces text word
  /-- They do not begin a comment. -/
  noComment : text.head? ≠ some '#'

/-- A word: pieces, and at least one of them. -/
structure WordText (text word : List Char) : Prop extends WordStart text word where
  /-- There is a piece. -/
  nonempty : text ≠ []

/-! ## Lines -/

/-- Blanks, and comments with the line breaks that end them. -/
inductive Gap : List Char → Prop
  | nil : Gap []
  | blank {g : List Char} {c : Char} : Gap g → c ∈ blanks → Gap (g ++ [c])
  | comment {g body : List Char} : Gap g → '\n' ∉ body → Gap (g ++ '#' :: body ++ ['\n'])

/-- Blanks and comments up to the end of the input, which may end the last comment. -/
inductive Closing : List Char → Prop
  | gap {g : List Char} : Gap g → Closing g
  | comment {g body : List Char} : Gap g → '\n' ∉ body → Closing (g ++ '#' :: body)

/-- A text that ends a word in front of it. -/
def EndsWord (text : List Char) : Prop :=
  ∃ c ∈ blanks, ∃ rest, text = c :: rest

/-- Words with at least one blank between them. -/
inductive Sentence : List Char → List (List Char) → Prop
  | word {t w : List Char} : WordText t w → Sentence t [w]
  | snoc {s g t w : List Char} {ws : List (List Char)} : Sentence s ws → Gap g → EndsWord g →
      WordText t w → Sentence (s ++ g ++ t) (ws ++ [w])

/-- A line and its words. -/
inductive Derives : List Char → List (List Char) → Prop
  | empty {e : List Char} : Closing e → Derives e []
  | words {g s e : List Char} {ws : List (List Char)} : Gap g → Sentence s ws →
      e = [] ∨ EndsWord e → Closing e → Derives (g ++ s ++ e) ws

/-! ## Beginnings of lines -/

/-- What stands in front of a place where a word may begin. -/
inductive Front : List Char → List (List Char) → Prop
  | start {g : List Char} : Gap g → Front g []
  | behind {g s b : List Char} {ws : List (List Char)} : Gap g → Sentence s ws → Gap b →
      EndsWord b → Front (g ++ s ++ b) ws

/-- A piece that lacks its end: a backslash without the other character of its pair, or quotes that
are not closed.  The mode is the one that the end is awaited in. -/
inductive CutPiece : Mode → List Char → List Char → Prop
  | escaped : CutPiece .escaped ['\\'] []
  | single {body : List Char} : '\'' ∉ body → CutPiece .single ('\'' :: body) body
  | double {t v : List Char} : DoubleBody t v → CutPiece .double ('"' :: t) v
  | doubleEscaped {t v : List Char} : DoubleBody t v →
      CutPiece .doubleEscaped ('"' :: t ++ ['\\']) v

/-- A line that ends inside a quote or right behind a backslash. -/
inductive Unfinished : List Char → Prop
  | cut {f t w o v : List Char} {ws : List (List Char)} {mode : Mode} : Front f ws →
      WordStart t w → CutPiece mode o v → Unfinished (f ++ t ++ o)

/-! ## The splitter reads them -/

/-- Between double quotes a body is added to the open word. -/
theorem DoubleBody.run {t v : List Char} (body : DoubleBody t v) (words : List (List Char))
    (word : List Char) : State.run ⟨words, word, .double⟩ t = ⟨words, word ++ v, .double⟩ := by
  induction body with
  | nil => rw [State.run_nil, List.append_nil]
  | @plain t v c _ quote backslash ih =>
    rw [State.run_append, ih, State.run_cons, State.run_nil, ← List.append_assoc]
    simp only [State.step, if_neg quote, if_neg backslash]
  | @escape t v c _ hidden ih =>
    have newline : c ≠ '\n' := by rintro rfl; exact absurd hidden (by decide)
    rw [State.run_append, ih, ← List.append_assoc]
    show State.step ⟨words, word ++ v, .doubleEscaped⟩ c = _
    simp only [State.step, if_neg newline, isProtectedInDouble_iff.2 hidden, if_true]
  | @continuation t v _ ih =>
    rw [State.run_append, ih]
    rfl
  | @backslash t v c _ shown newline ih =>
    rw [State.run_append, ih, ← List.append_assoc]
    show State.step ⟨words, word ++ v, .doubleEscaped⟩ c = _
    simp only [State.step, if_neg newline, if_neg (mt isProtectedInDouble_iff.1 shown)]

/-- Between single quotes a body is added to the open word. -/
theorem State.run_single (words : List (List Char)) (word : List Char) {body : List Char}
    (noQuote : '\'' ∉ body) :
    State.run ⟨words, word, .single⟩ body = ⟨words, word ++ body, .single⟩ := by
  induction body generalizing word with
  | nil => rw [run_nil, List.append_nil]
  | cons c body ih =>
    rw [List.mem_cons, not_or] at noQuote
    rw [run_cons, ← List.singleton_append, ← List.append_assoc, ← ih _ noQuote.2]
    simp only [step, if_neg (Ne.symm noQuote.1)]

/-- What there is of a cut piece is added to the open word. -/
theorem CutPiece.run {mode : Mode} {o v : List Char} (cut : CutPiece mode o v)
    (words : List (List Char)) (word : List Char) :
    State.run ⟨words, word, .bare⟩ o = ⟨words, word ++ v, mode⟩ := by
  cases cut with
  | escaped => rw [List.append_nil]; rfl
  | single noQuote => exact State.run_single words word noQuote
  | double body => exact body.run words word
  | doubleEscaped body =>
    rw [State.run_append]
    show State.run (State.run ⟨words, word, .double⟩ _) _ = _
    rw [body.run]
    rfl

/-- A piece is added to the open word: it is a cut piece and the character that it lacks. -/
theorem Piece.run {t v : List Char} (piece : Piece t v) (words : List (List Char))
    (word : List Char) : State.run ⟨words, word, .bare⟩ t = ⟨words, word ++ v, .bare⟩ := by
  cases piece with
  | plain special => exact State.stepBare_of_plain ⟨words, word, .bare⟩ special
  | escape other =>
    show State.step ⟨words, word, .escaped⟩ _ = _
    simp only [State.step, if_neg other]
  | continuation => rw [List.append_nil]; rfl
  | single noQuote => rw [State.run_append, (CutPiece.single noQuote).run]; rfl
  | double body => rw [State.run_append, (CutPiece.double body).run]; rfl

/-- The pieces of a word add their values one after the other. -/
theorem Pieces.run {t v : List Char} (pieces : Pieces t v) (words : List (List Char))
    (word : List Char) : State.run ⟨words, word, .bare⟩ t = ⟨words, word ++ v, .bare⟩ := by
  induction pieces with
  | nil => rw [State.run_nil, List.append_nil]
  | snoc _ piece ih => rw [State.run_append, ih, piece.run, List.append_assoc]

/-- No piece begins with a blank. -/
theorem Piece.exists_head {t v : List Char} (piece : Piece t v) :
    ∃ c, t.head? = some c ∧ c ∉ blanks := by
  cases piece with
  | @plain c special =>
    rw [specialChars_eq, List.mem_append, not_or] at special
    exact ⟨c, rfl, special.1⟩
  | escape => exact ⟨'\\', rfl, by decide⟩
  | continuation => exact ⟨'\\', rfl, by decide⟩
  | single => exact ⟨'\'', rfl, by decide⟩
  | double => exact ⟨'"', rfl, by decide⟩

theorem Pieces.head_notMem {t v : List Char} (pieces : Pieces t v) :
    ∀ c ∈ t.head?, c ∉ blanks := by
  induction pieces with
  | nil => exact nofun
  | snoc _ piece ih =>
    intro c first
    rw [List.head?_append, Option.mem_def, Option.or_eq_some_iff] at first
    obtain first | ⟨-, first⟩ := first
    · exact ih c first
    · obtain ⟨d, opens, notBlank⟩ := piece.exists_head
      rw [first] at opens
      cases opens
      exact notBlank

theorem CutPiece.exists_head {mode : Mode} {o v : List Char} (cut : CutPiece mode o v) :
    ∃ c, o.head? = some c ∧ c ∉ blanks ∧ c ≠ '#' := by
  cases cut
  case escaped => exact ⟨'\\', rfl, by decide⟩
  case single => exact ⟨'\'', rfl, by decide⟩
  case double => exact ⟨'"', rfl, by decide⟩
  case doubleEscaped => exact ⟨'"', rfl, by decide⟩

/-- Where a word begins, the first character is read as inside of it. -/
theorem State.run_gap_of_head (words : List (List Char)) {cs : List Char}
    (head : ∃ c, cs.head? = some c ∧ c ∉ blanks ∧ c ≠ '#') :
    State.run ⟨words, [], .gap⟩ cs = State.run ⟨words, [], .bare⟩ cs := by
  obtain ⟨c, first, notBlank, noComment⟩ := head
  obtain ⟨rest, rfl⟩ := List.head?_eq_some_iff.1 first
  rw [run_cons, run_cons]
  simp only [step, if_neg (mt isSeparator_iff.1 notBlank), if_neg noComment, stepBare]

/-- The beginning of a word is open when all of it has been read, if anything of the word has. -/
theorem WordStart.run_append {t w : List Char} (start : WordStart t w) (words : List (List Char))
    {rest : List Char} (more : t = [] → ∃ c, rest.head? = some c ∧ c ∉ blanks ∧ c ≠ '#') :
    State.run ⟨words, [], .gap⟩ (t ++ rest) = State.run ⟨words, w, .bare⟩ rest := by
  have head : ∃ c, (t ++ rest).head? = some c ∧ c ∉ blanks ∧ c ≠ '#' := by
    cases t with
    | nil => exact more rfl
    | cons c t =>
      refine ⟨c, rfl, start.pieces.head_notMem c rfl, ?_⟩
      exact fun comment => start.noComment (congrArg some comment)
  rw [State.run_gap_of_head words head, State.run_append, start.pieces.run, List.nil_append]

/-- A word is begun in a gap, by a piece that is neither a blank nor a comment. -/
theorem WordText.run {t w : List Char} (text : WordText t w) (words : List (List Char)) :
    State.run ⟨words, [], .gap⟩ t = ⟨words, w, .bare⟩ := by
  have run : State.run ⟨words, [], .gap⟩ (t ++ []) = State.run ⟨words, w, .bare⟩ [] :=
    text.run_append words fun none => absurd none text.nonempty
  rwa [List.append_nil] at run

/-- Nothing ends a comment but the end of its line. -/
theorem State.run_comment (words : List (List Char)) {body : List Char} (oneLine : '\n' ∉ body) :
    State.run ⟨words, [], .comment⟩ body = ⟨words, [], .comment⟩ := by
  induction body with
  | nil => rfl
  | cons c body ih =>
    rw [List.mem_cons, not_or] at oneLine
    rw [run_cons]
    simp only [step, if_neg (Ne.symm oneLine.1)]
    exact ih oneLine.2

/-- Blanks and comments leave the splitter between words. -/
theorem Gap.run {g : List Char} (gap : Gap g) (words : List (List Char)) :
    State.run ⟨words, [], .gap⟩ g = ⟨words, [], .gap⟩ := by
  induction gap with
  | nil => rfl
  | blank _ blank ih =>
    rw [State.run_append, ih, State.run_cons, State.run_nil]
    simp only [State.step, isSeparator_iff.2 blank, if_true]
  | comment _ oneLine ih =>
    rw [List.append_assoc, State.run_append, ih, List.cons_append, State.run_cons, State.run_append]
    show State.run (State.run ⟨words, [], .comment⟩ _) _ = _
    rw [State.run_comment words oneLine]
    rfl

/-- A blank finishes the open word. -/
theorem State.stepBare_of_blank (s : State) {c : Char} (blank : c ∈ blanks) :
    s.stepBare c = ⟨s.words ++ [s.word], [], .gap⟩ := by
  unfold stepBare
  rw [isSeparator_iff.2 blank, if_pos rfl]

/-- At the end of a word the word is added, and the splitter is in a gap again. -/
theorem State.run_endsWord {e : List Char} (ends : EndsWord e) (words : List (List Char))
    (word : List Char) :
    State.run ⟨words, word, .bare⟩ e = State.run ⟨words ++ [word], [], .gap⟩ e := by
  obtain ⟨c, blank, rest, rfl⟩ := ends
  rw [run_cons, run_cons]
  simp only [step, stepBare_of_blank _ blank, isSeparator_iff.2 blank, if_true]

theorem Sentence.run {s : List Char} {ws : List (List Char)} (sentence : Sentence s ws) :
    ∃ us w, ws = us ++ [w] ∧ State.start.run s = ⟨us, w, .bare⟩ := by
  induction sentence with
  | word text => exact ⟨[], _, rfl, text.run []⟩
  | snoc _ gap ends text ih =>
    obtain ⟨us, w, rfl, run⟩ := ih
    refine ⟨_, _, rfl, ?_⟩
    rw [State.run_append, State.run_append, run, State.run_endsWord ends, gap.run, text.run]

/-- **In front of a word** the splitter has the words so far and nothing else. -/
theorem Front.run {f : List Char} {ws : List (List Char)} (front : Front f ws) :
    State.start.run f = ⟨ws, [], .gap⟩ := by
  cases front with
  | start gap => exact gap.run []
  | behind gap sentence gap' ends =>
    obtain ⟨us, w, rfl, run⟩ := sentence.run
    have start : State.start.run _ = State.start := gap.run []
    rw [State.run_append, State.run_append, start, run, State.run_endsWord ends, gap'.run]

end BuildVariants.Words
