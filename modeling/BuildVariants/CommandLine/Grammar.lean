import BuildVariants.CommandLine.Parameter

/-!
# Levels of the command line

The command line has two levels: the program, and below it one of its commands, its `Verb`.  Each
level admits certain parameters; four of them and the help are admitted everywhere.
-/

namespace BuildVariants.CommandLine

/-- The commands of the program. -/
inductive Verb
  | list
  | args
  | plan
  | configure
  | build
  | run
  | buildRun
  | clean
  | completions
  deriving DecidableEq, Repr

namespace Verb

/-- All commands. -/
def all : List Verb :=
  [list, args, plan, configure, build, run, buildRun, clean, completions]

/-- The name of a command. -/
def name : Verb → String
  | list => "list"
  | args => "args"
  | plan => "plan"
  | configure => "configure"
  | build => "build"
  | run => "run"
  | buildRun => "build-run"
  | clean => "clean"
  | completions => "completions"

/-- What a command does. -/
def about : Verb → String
  | list => "List declared variants and run targets"
  | args => "Print the resolved CMake arguments for a variant"
  | plan => "Print the full task configuration"
  | configure => "Configure a variant's build directory"
  | build => "Build a variant"
  | run => "Run a target's executable from a variant's build directory"
  | buildRun => "Build a target, then run it"
  | clean => "Remove build directories"
  | completions => "Generate shell completions"

/-- The named parameters of a command. -/
def options : Verb → List Parameter
  | list | completions => []
  | args => [.json]
  | plan => [.format]
  | configure => [.dryRun]
  | build => [.target, .jobs, .reconfigure, .dryRun]
  | run => [.inVariant, .dryRun]
  | buildRun => [.inVariant, .dryRun, .jobs]
  | clean => [.all, .dryRun]

/-- The parameters of a command that are found by their place. -/
def places : Verb → List Parameter
  | list | plan => []
  | args | configure | build | clean => [.variant]
  | run | buildRun => [.runTarget]
  | completions => [.shell]

/-- The parameter of a command that takes everything behind `--`. -/
def rest? : Verb → Option Parameter
  | run | buildRun => some .extraArgs
  | _ => none

end Verb

/-- The name of the program. -/
def programName : String := "varia"

/-- The version of the program. -/
def programVersion : String := "0.1.0"

/-- What the program does. -/
def programAbout : String :=
  "Named CMake build variants with toolchain selection and build-then-run targets"

/-- The name of the command that prints help. -/
def helpName : String := "help"

/-- What the help command does. -/
def helpAbout : String :=
  "Print this message or the help of the given subcommand(s)"

/-- A level: the program itself or one of its commands. -/
inductive Level
  | program
  | command (verb : Verb)
  deriving DecidableEq, Repr

/-- The parameters that every level admits. -/
def globalOptions : List Parameter :=
  [.verbose, .quiet, .color, .manifestPath]

namespace Level

/-- The named parameters of a level. -/
def options : Level → List Parameter
  | program => globalOptions ++ [.help, .version]
  | command v => v.options ++ globalOptions ++ [.help]

/-- The parameters of a level that are found by their place. -/
def places : Level → List Parameter
  | program => []
  | command v => v.places

/-- The parameter of a level that takes everything behind `--`. -/
def rest? : Level → Option Parameter
  | program => none
  | command v => v.rest?

/-- The parameter with a long name. -/
def long? (l : Level) (name : String) : Option Parameter :=
  l.options.find? (·.long? = some name)

/-- The parameter with a letter. -/
def letter? (l : Level) (c : Char) : Option Parameter :=
  l.options.find? (·.letter? = some c)

/-- The parameter a text belongs to that stands for itself: `taken` are the places that are
already filled, and `divided` says whether `--` has been met. -/
def place? (l : Level) (taken : Nat) (divided : Bool) : Option Parameter :=
  match divided, l.rest? with
  | true, some p => some p
  | _, _ => l.places[taken]?

end Level

/-- Whether two parameters cannot be given at one level together. -/
def Parameter.excludes : Parameter → Parameter → Bool
  | quiet, verbose | verbose, quiet => true
  | all, variant | variant, all => true
  | _, _ => false

/-- What the first word behind the program's options stands for. -/
inductive Word
  | help
  | verb (v : Verb)
  deriving DecidableEq, Repr

/-- The command of a name. -/
def Word.ofText? (s : String) : Option Word :=
  if s = helpName then some .help
  else match Verb.all.find? (·.name = s) with
    | some v => some (.verb v)
    | none => none

end BuildVariants.CommandLine
