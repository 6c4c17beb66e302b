import BuildVariants.CommandLine.Mistake

/-!
# Reading a command line

A level of the command line is read word by word.  The state is a `Reading`: what has been taken,
and what has been met but not yet taken.  A word that stands for itself, and an option that came
without its value, wait (`pending?`) until something else is taken or the level ends; only then
are they looked at.  So of two mistakes the one that is settled first is reported, and a command
is read and checked to its end before the last word in front of it is looked at.
-/

namespace BuildVariants.CommandLine

/-! ## Words -/

/-- The forms of a word. -/
inductive Spelling
  /-- The word `--`. -/
  | divider
  /-- A long name, perhaps with a value behind `=`. -/
  | long (name : String) (value? : Option String)
  /-- Letters behind a hyphen. -/
  | letters (cs : List Char)
  /-- A text that stands for itself. -/
  | plain
  deriving DecidableEq, Repr

/-- Cuts a long name at the first `=`. -/
def cutLong (cs : List Char) : Spelling :=
  match cs.dropWhile (· ≠ '=') with
  | [] => .long (String.ofList cs) none
  | _ :: value => .long (String.ofList (cs.takeWhile (· ≠ '='))) (some (String.ofList value))

/-- The form of a word. -/
def Spelling.ofText (s : String) : Spelling :=
  match s.toList with
  | ['-', '-'] => .divider
  | '-' :: '-' :: cs => cutLong cs
  | '-' :: c :: cs => .letters (c :: cs)
  | _ => .plain

/-! ## State -/

/-- A parameter with its values. -/
abbrev Given : Type := (p : Parameter) × List p.Value

/-- The values of a parameter among those given. -/
def valuesAmong (p : Parameter) : List Given → List p.Value
  | [] => []
  | ⟨q, values⟩ :: rest => if h : q = p then h ▸ values else valuesAmong p rest

/-- How far a level has been read. -/
structure Reading where
  /-- The level. -/
  level : Level
  /-- What has been taken, in order. -/
  given : List Given
  /-- What has been met but not taken: a parameter with the words for it. -/
  pending? : Option (Parameter × List String)
  /-- Whether `--` has been met. -/
  divided : Bool
  /-- The places that have been filled. -/
  places : Nat

namespace Reading

/-- A level of which nothing has been read. -/
def start (level : Level) : Reading := ⟨level, [], none, false, 0⟩

/-- Whether a parameter has been taken. -/
def has (r : Reading) (p : Parameter) : Bool :=
  r.given.any (·.1 = p)

/-- The values of a parameter. -/
def values (r : Reading) (p : Parameter) : List p.Value :=
  valuesAmong p r.given

/-- The value of a parameter. -/
def value? (r : Reading) (p : Parameter) : Option p.Value :=
  (r.values p).head?

/-- Reports a mistake. -/
def mistake {α : Type} (r : Reading) (m : Mistake) : Except Stop α :=
  .error (.mistake r.level m)

/-! ## Taking -/

/-- Takes a parameter with the words for it. -/
def accept (r : Reading) (p : Parameter) (words : List String) : Except Stop Reading :=
  if p.takesValue ∧ words = [] then r.mistake (.valueMissing p)
  else if p = .help then .error (.help (.level r.level))
  else if p = .version then .error .version
  else if r.has p then r.mistake (.repeated p)
  else match p.readAll words with
    | .error (s, why) => r.mistake (.valueRefused p s why)
    | .ok values => .ok { r with given := r.given ++ [⟨p, values⟩] }

/-- Takes what is pending. -/
def settle (r : Reading) : Except Stop Reading :=
  match r.pending? with
  | none => .ok r
  | some (p, words) => { r with pending? := none }.accept p words

/-- Takes a parameter after what is pending. -/
def give (r : Reading) (p : Parameter) (words : List String) : Except Stop Reading :=
  match r.settle with
  | .error e => .error e
  | .ok r' => r'.accept p words

/-- Takes what is pending and lets a parameter wait. -/
def await (r : Reading) (p : Parameter) (words : List String) : Except Stop Reading :=
  match r.settle with
  | .error e => .error e
  | .ok r' => .ok { r' with pending? := some (p, words) }

/-! ## Words of each form -/

/-- Reads a long name. -/
def readLong (r : Reading) (name : String) (value? : Option String) : Except Stop Reading :=
  match r.level.long? name with
  | none => r.mistake (.unknownArgument ("--" ++ name))
  | some p =>
    match value?, p.takesValue with
    | none, false => r.give p []
    | none, true => r.await p []
    | some value, true => r.give p [value]
    | some value, false => r.mistake (.valueUnexpected p value)

/-- Reads letters.  What stands behind a letter that wants a value is its value. -/
def readLetters (r : Reading) : List Char → Except Stop Reading
  | [] => .ok r
  | c :: cs =>
    match r.level.letter? c with
    | none => r.mistake (.unknownArgument (String.ofList ['-', c]))
    | some p =>
      if p.takesValue then
        match cs with
        | [] => r.await p []
        | '=' :: value => r.give p [String.ofList value]
        | value => r.give p [String.ofList value]
      else match r.give p [] with
        | .error e => .error e
        | .ok r' => r'.readLetters cs

/-- The mistake that a word is for which there is no place. -/
def surplus (r : Reading) (s : String) : Mistake :=
  match r.level with
  | .command _ => .unknownArgument s
  | .program =>
    if r.divided ∧ (Word.ofText? s).isSome then .unknownArgument s else .unknownCommand s

/-- Puts a word at the next place.  The words behind `--` that belong together wait together. -/
def put (r : Reading) (s : String) : Except Stop Reading :=
  match r.level.place? r.places r.divided with
  | none => r.mistake (r.surplus s)
  | some p =>
    if some p = r.level.rest? then
      match r.pending? with
      | some (q, words) =>
        if q = p then .ok { r with pending? := some (q, words ++ [s]) } else r.await p [s]
      | none => r.await p [s]
    else match r.await p [s] with
      | .error e => .error e
      | .ok r' => .ok { r' with places := r'.places + 1 }

/-- Reads a word that stands for itself: the value of an option that waits for one, or a word for
the next place. -/
def readPlain (r : Reading) (s : String) : Except Stop Reading :=
  match r.pending? with
  | some (p, []) => .ok { r with pending? := some (p, [s]) }
  | _ => r.put s

/-- Reads a word. -/
def read (r : Reading) (s : String) : Except Stop Reading :=
  if r.divided then r.put s
  else match Spelling.ofText s with
    | .divider => .ok { r with divided := true }
    | .long name value? => r.readLong name value?
    | .letters cs => r.readLetters cs
    | .plain => r.readPlain s

/-- Reads all words that are left. -/
def readAll (r : Reading) : List String → Except Stop Reading
  | [] => .ok r
  | s :: ss =>
    match r.read s with
    | .error e => .error e
    | .ok r' => r'.readAll ss

/-! ## The end of a level -/

/-- The first parameter that excludes another one, with that one. -/
def clash? (r : Reading) : Option (Parameter × Parameter) :=
  let ps := r.given.map (·.1)
  ps.findSome? fun p => (ps.find? fun q => p.excludes q).map fun q => (p, q)

/-- The parameters that must be given but were not. -/
def missing (r : Reading) : List Parameter :=
  r.level.places.filter fun p => p.isRequired && !r.has p

/-- Whether the path of the plan file in the environment is a path, unless the level has one of
its own. -/
def checkEnvironment (r : Reading) (plan? : Option String) : Except Stop Unit :=
  match plan? with
  | none => .ok ()
  | some s =>
    if r.has .manifestPath then .ok ()
    else match Parameter.manifestPath.readAll [s] with
      | .error (s, why) => r.mistake (.valueRefused .manifestPath s why)
      | .ok _ => .ok ()

/-- Checks what has been given against each other. -/
def check (r : Reading) : Except Stop Reading :=
  match r.clash? with
  | some (p, q) => r.mistake (.excluded p q)
  | none => if r.missing = [] then .ok r else r.mistake (.parametersMissing r.missing)

/-- Takes what is pending at the end of a level and looks at the environment. -/
def close (r : Reading) (plan? : Option String) : Except Stop Reading :=
  match r.settle with
  | .error e => .error e
  | .ok r' =>
    match r'.checkEnvironment plan? with
    | .error e => .error e
    | .ok () => .ok r'

/-- Ends a level. -/
def finish (r : Reading) (plan? : Option String) : Except Stop Reading :=
  match r.close plan? with
  | .error e => .error e
  | .ok r' => r'.check

end Reading

/-! ## Both levels -/

/-- The help that the words behind the help command ask for. -/
def helpStop : List String → Stop
  | [] => .help (.level .program)
  | s :: ss =>
    match Word.ofText? s, ss with
    | none, _ => .mistake .program (.unknownCommand s)
    | some .help, [] => .help .help
    | some (.verb v), [] => .help (.level (.command v))
    | some .help, t :: _ => .mistake .program (.unknownCommand t)
    | some (.verb v), t :: _ => .mistake (.command v) (.unknownCommand t)

/-- The program's level in front of a command, and the command's level. -/
structure Levels where
  /-- What was given in front of the command. -/
  program : Reading
  /-- The command. -/
  verb : Verb
  /-- What was given behind the command. -/
  command : Reading

/-- Reads a command and ends both levels, the command's first. -/
def readCommand (plan? : Option String) (r : Reading) (v : Verb) (words : List String) :
    Except Stop Levels :=
  match (Reading.start (.command v)).readAll words with
  | .error e => .error e
  | .ok inner =>
    match inner.finish plan? with
    | .error e => .error e
    | .ok inner' =>
      match r.finish plan? with
      | .error e => .error e
      | .ok r' => .ok ⟨r', v, inner'⟩

/-- Ends the program's level where there is no command. -/
def stopWithoutCommand (plan? : Option String) (r : Reading) : Stop :=
  match r.close plan? with
  | .error e => e
  | .ok r' =>
    if r'.given.isEmpty ∧ plan? = none then .nothingGiven else .mistake .program .commandMissing

/-- Whether the next word may be the name of a command: not behind `--`, and not where an option
waits for its value. -/
def Reading.admitsCommand (r : Reading) : Bool :=
  !r.divided && match r.pending? with
    | some (_, []) => false
    | _ => true

/-- Reads the words of the program's level up to a command, and then the command. -/
def readLevels (plan? : Option String) (r : Reading) : List String → Except Stop Levels
  | [] => .error (stopWithoutCommand plan? r)
  | s :: ss =>
    match (if r.admitsCommand then Word.ofText? s else none) with
    | some .help => .error (helpStop ss)
    | some (.verb v) => readCommand plan? r v ss
    | none =>
      match r.read s with
      | .error e => .error e
      | .ok r' => readLevels plan? r' ss

end BuildVariants.CommandLine
