/-!
# Words of an argument line

An argument line is cut into words the way a shell cuts a simple command: quotes group characters
and disappear, a backslash keeps the next character, and nothing is expanded.

The splitter is a fold of one step over the characters.  Its state holds the finished words, the
word that is open and the `Mode` the next character is read in; no character is ever refused, so
a line is malformed exactly when it *ends* inside a quote or right behind a backslash.  That is
what makes the splitter compositional: `run_append` says that a line read in two halves is the
second half read from where the first one stopped, and `run_after` that the words already
finished never influence the rest.
-/

namespace BuildVariants.Words

/-- How the next character of a line is read. -/
inductive Mode
  /-- Between two words. -/
  | gap
  /-- Behind a `#` that stood where a word could begin; lasts to the end of the line. -/
  | comment
  /-- Inside a word and outside all quotes. -/
  | bare
  /-- Right behind a backslash outside all quotes. -/
  | escaped
  /-- Inside `'…'`. -/
  | single
  /-- Inside `"…"`. -/
  | double
  /-- Right behind a backslash inside `"…"`. -/
  | doubleEscaped
  deriving DecidableEq, Repr

/-- The splitter between two characters. -/
structure State where
  /-- The finished words, first to last. -/
  words : List (List Char)
  /-- The characters of the open word; empty between words. -/
  word : List Char
  /-- How the next character is read. -/
  mode : Mode
  deriving DecidableEq, Repr

/-- The splitter before the first character. -/
def State.start : State := ⟨[], [], .gap⟩

/-- Words are separated by these three characters only. -/
def isSeparator (c : Char) : Bool :=
  c == ' ' || c == '\t' || c == '\n'

/-- The characters that a backslash protects inside double quotes. -/
def isProtectedInDouble (c : Char) : Bool :=
  c == '$' || c == '\x60' || c == '"' || c == '\\'

/-- Reads one character of a word outside all quotes. -/
def State.stepBare (s : State) (c : Char) : State :=
  if isSeparator c then ⟨s.words ++ [s.word], [], .gap⟩
  else if c = '"' then { s with mode := .double }
  else if c = '\'' then { s with mode := .single }
  else if c = '\\' then { s with mode := .escaped }
  else ⟨s.words, s.word ++ [c], .bare⟩

/-- Reads one character. -/
def State.step (s : State) (c : Char) : State :=
  match s.mode with
  | .gap =>
    if isSeparator c then s
    else if c = '#' then { s with mode := .comment }
    else s.stepBare c
  | .comment => if c = '\n' then { s with mode := .gap } else s
  | .bare => s.stepBare c
  | .escaped =>
    if c = '\n' then { s with mode := .bare } else ⟨s.words, s.word ++ [c], .bare⟩
  | .single => if c = '\'' then { s with mode := .bare } else { s with word := s.word ++ [c] }
  | .double =>
    if c = '"' then { s with mode := .bare }
    else if c = '\\' then { s with mode := .doubleEscaped }
    else { s with word := s.word ++ [c] }
  | .doubleEscaped =>
    if c = '\n' then { s with mode := .double }
    else if isProtectedInDouble c then ⟨s.words, s.word ++ [c], .double⟩
    else ⟨s.words, s.word ++ ['\\', c], .double⟩

/-- Reads a run of characters. -/
def State.run (s : State) (cs : List Char) : State :=
  cs.foldl State.step s

@[simp] theorem State.run_nil (s : State) : s.run [] = s := rfl

@[simp] theorem State.run_cons (s : State) (c : Char) (cs : List Char) :
    s.run (c :: cs) = (s.step c).run cs := rfl

/-- A line read in two halves is the second half read from where the first one stopped. -/
theorem State.run_append (s : State) (xs ys : List Char) :
    s.run (xs ++ ys) = (s.run xs).run ys := by
  simp [State.run]

/-- The words of a line that ends here: `none` inside a quote or right behind a backslash. -/
def State.finish (s : State) : Option (List (List Char)) :=
  match s.mode with
  | .gap | .comment => some s.words
  | .bare => some (s.words ++ [s.word])
  | .escaped | .single | .double | .doubleEscaped => none

/-- The same splitter with more finished words in front. -/
def State.after (front : List (List Char)) (s : State) : State :=
  { s with words := front ++ s.words }

/-- The finished words do not influence a step. -/
theorem State.step_after (front : List (List Char)) (s : State) (c : Char) :
    (s.after front).step c = (s.step c).after front := by
  rcases s with ⟨ws, w, m⟩
  cases m <;> simp only [State.step, State.stepBare, State.after] <;>
    repeat' split
  all_goals simp

/-- The finished words do not influence a run. -/
theorem State.run_after (front : List (List Char)) (s : State) (cs : List Char) :
    (s.after front).run cs = (s.run cs).after front := by
  induction cs generalizing s with
  | nil => rfl
  | cons c cs ih => rw [run_cons, run_cons, step_after, ih]

/-- Words in front of a splitter are words in front of its answer. -/
theorem State.finish_after (front : List (List Char)) (s : State) :
    (s.after front).finish = s.finish.map (front ++ ·) := by
  rcases s with ⟨ws, w, m⟩
  cases m <;> simp [State.finish, State.after]

/-- The words of a line, on characters. -/
def splitChars (cs : List Char) : Option (List (List Char)) :=
  (State.start.run cs).finish

/-- The words of a line, or `none` when a quote stays open or a backslash ends the line. -/
def split (line : String) : Option (List String) :=
  (splitChars line.toList).map (·.map String.ofList)

end BuildVariants.Words
