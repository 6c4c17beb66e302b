import BuildVariants.Path
import BuildVariants.Status

/-!
# Parameters

Everything that can be given on the command line.  A parameter is either named (`--jobs`, `-j`) or
found by its place, and what is given for it is read as a value of a certain kind, so that
`Parameter.Value` is the type of what a parameter holds.

A value is refused for one of three reasons: it is empty where something has to be said, it is not
one of the words that are allowed, or it is no value of its kind, and then there is more to say.
-/

namespace BuildVariants.CommandLine

/-! ## Values -/

/-- How a plan is printed. -/
inductive PlanFormat
  | json
  | toml
  deriving DecidableEq, Repr

/-- The shells that there are completions for. -/
inductive CompletionShell
  | bash
  | elvish
  | fish
  | powershell
  | zsh
  deriving DecidableEq, Repr

/-- The word for a format. -/
def PlanFormat.word : PlanFormat → String
  | json => "json"
  | toml => "toml"

/-- All formats. -/
def PlanFormat.all : List PlanFormat := [json, toml]

/-- The name of a shell. -/
def CompletionShell.word : CompletionShell → String
  | bash => "bash"
  | elvish => "elvish"
  | fish => "fish"
  | powershell => "powershell"
  | zsh => "zsh"

/-- All shells. -/
def CompletionShell.all : List CompletionShell := [bash, elvish, fish, powershell, zsh]

/-- The kinds of values. -/
inductive ValueKind
  /-- No value: the parameter is a switch. -/
  | nothing
  | text
  | path
  | color
  | count
  | format
  | shell
  deriving DecidableEq, Repr

/-- The values of a kind. -/
abbrev ValueKind.Value : ValueKind → Type
  | nothing => Unit
  | text => String
  | path => Path
  | color => ColorChoice
  | count => Nat
  | format => PlanFormat
  | shell => CompletionShell

/-- Why a value is refused. -/
inductive Refusal
  /-- It is empty. -/
  | absent
  /-- It is not one of the words that are allowed. -/
  | unlisted
  /-- It is no value of its kind. -/
  | invalid (reason : String)
  deriving DecidableEq, Repr

/-! ## Counts -/

/-- Why a text is not a count. -/
inductive CountError
  | empty
  | digit
  | large
  deriving DecidableEq, Repr

/-- What is said about a text that is not a count. -/
def CountError.message : CountError → String
  | empty => "cannot parse integer from empty string"
  | digit => "invalid digit found in string"
  | large => "number too large to fit in target type"

/-- The first number that is too large for a count. -/
def countLimit : Nat := Nat.pow 2 64

/-- The count written by some digits behind those of `n`.  Of a wrong digit and a number that has
grown too large, what is met first counts. -/
def countDigits (n : Nat) : List Char → Except CountError Nat
  | [] => .ok n
  | c :: cs =>
    if c.isDigit then
      let n' := 10 * n + (c.toNat - '0'.toNat)
      if n' < countLimit then countDigits n' cs else .error .large
    else .error .digit

/-- The count a text stands for: decimal digits, perhaps behind a plus sign. -/
def readCount (s : String) : Except CountError Nat :=
  match s.toList with
  | [] => .error .empty
  | '+' :: c :: cs => countDigits 0 (c :: cs)
  | cs => countDigits 0 cs

/-! ## Reading a value -/

/-- The one among some choices that a word stands for. -/
def choose {α : Type} (word : α → String) (choices : List α) (s : String) : Except Refusal α :=
  match choices.find? (word · = s) with
  | some x => .ok x
  | none => .error (if s = "" then .absent else .unlisted)

/-- Reads a value of a kind. -/
def ValueKind.read : (k : ValueKind) → String → Except Refusal k.Value
  | nothing, _ => .ok ()
  | text, s => .ok s
  | path, s => if s = "" then .error .absent else .ok ⟨s⟩
  | color, s =>
    match ColorChoice.parse? s with
    | some c => .ok c
    | none => .error (.invalid (ColorChoice.complaint s))
  | count, s =>
    match readCount s with
    | .ok n => .ok n
    | .error e => .error (.invalid e.message)
  | format, s => choose PlanFormat.word PlanFormat.all s
  | shell, s => choose CompletionShell.word CompletionShell.all s

/-! ## Parameters -/

/-- What can be given. -/
inductive Parameter
  | verbose
  | quiet
  | color
  | manifestPath
  | help
  | version
  | json
  | format
  | dryRun
  | target
  | jobs
  | reconfigure
  | inVariant
  | all
  /-- The variant, by its place. -/
  | variant
  /-- The run target, by its place. -/
  | runTarget
  /-- The arguments for the executable, by their place. -/
  | extraArgs
  /-- The shell, by its place. -/
  | shell
  deriving DecidableEq, Repr

namespace Parameter

/-- The kind of a parameter's values. -/
def kind : Parameter → ValueKind
  | verbose | quiet | help | version | json | dryRun | reconfigure | all => .nothing
  | color => .color
  | manifestPath => .path
  | format => .format
  | jobs => .count
  | shell => .shell
  | target | inVariant | variant | runTarget | extraArgs => .text

/-- What a parameter holds. -/
abbrev Value (p : Parameter) : Type := p.kind.Value

/-- Whether a parameter wants a value. -/
def takesValue (p : Parameter) : Bool :=
  p.kind ≠ .nothing

/-- The long name of a parameter that is named. -/
def long? : Parameter → Option String
  | verbose => some "verbose"
  | quiet => some "quiet"
  | color => some "color"
  | manifestPath => some "manifest-path"
  | help => some "help"
  | version => some "version"
  | json => some "json"
  | format => some "format"
  | dryRun => some "dry-run"
  | target => some "target"
  | jobs => some "jobs"
  | reconfigure => some "reconfigure"
  | inVariant => some "variant"
  | all => some "all"
  | variant | runTarget | extraArgs | shell => none

/-- The letter of a parameter that has one. -/
def letter? : Parameter → Option Char
  | verbose => some 'v'
  | quiet => some 'q'
  | help => some 'h'
  | version => some 'V'
  | jobs => some 'j'
  | _ => none

/-- What a parameter's value is called. -/
def valueName : Parameter → String
  | color => "COLOR"
  | manifestPath => "MANIFEST_PATH"
  | format => "FORMAT"
  | target | runTarget => "TARGET"
  | jobs => "JOBS"
  | inVariant | variant => "VARIANT"
  | extraArgs => "ARGS"
  | shell => "SHELL"
  | _ => ""

/-- Whether a parameter must be given. -/
def isRequired : Parameter → Bool
  | runTarget | shell => true
  | _ => false

/-- A parameter as it is shown to the user. -/
def display (p : Parameter) : String :=
  match p.long? with
  | some long => "--" ++ long ++ if p.takesValue then " <" ++ p.valueName ++ ">" else ""
  | none =>
    if p.isRequired then "<" ++ p.valueName ++ ">"
    else "[" ++ p.valueName ++ "]" ++ if p = extraArgs then "..." else ""

/-- What a parameter is for. -/
def about : Parameter → String
  | verbose => "Enable verbose output"
  | quiet => "Only print errors"
  | color => "Coloring: auto, always, never"
  | manifestPath => "Path to the plan file (defaults to the nearest Variants.toml)"
  | help => "Print help"
  | version => "Print version"
  | json => "Print the record of the variant as JSON"
  | format => "Output format"
  | dryRun => "Print the commands instead of running them"
  | target => "CMake target to build"
  | jobs => "Number of parallel jobs (0 lets the generator decide)"
  | reconfigure => "Configure again even if the build directory is configured"
  | inVariant => "Variant whose build directory holds the executable"
  | all => "Clean every declared variant"
  | variant => "Variant name (defaults to the first declared variant)"
  | runTarget => "Run target name"
  | extraArgs => "Extra arguments for the executable"
  | shell => "Shell to generate completions for"

/-- Reads the values that are given for a parameter; the first one that is refused is named. -/
def readAll (p : Parameter) : List String → Except (String × Refusal) (List p.Value)
  | [] => .ok []
  | s :: ss =>
    match p.kind.read s with
    | .error e => .error (s, e)
    | .ok x =>
      match p.readAll ss with
      | .error e => .error e
      | .ok xs => .ok (x :: xs)

end Parameter

end BuildVariants.CommandLine
