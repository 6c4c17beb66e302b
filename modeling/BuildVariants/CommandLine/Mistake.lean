import BuildVariants.CommandLine.Grammar
import BuildVariants.Text.Styled

/-!
# Mistakes on the command line

What ends the reading of a command line before anything is done: a mistake, or a request for help
or for the version.  The wording is in `Mistake.message` and nowhere else.
-/

namespace BuildVariants.CommandLine

open Text (Styled Span)

/-- A mistake on the command line. -/
inductive Mistake
  | unknownArgument (text : String)
  | unknownCommand (text : String)
  /-- A parameter came without its value. -/
  | valueMissing (p : Parameter)
  /-- A switch came with a value. -/
  | valueUnexpected (p : Parameter) (text : String)
  /-- A value was refused. -/
  | valueRefused (p : Parameter) (text : String) (why : Refusal)
  /-- A parameter was given twice at one level. -/
  | repeated (p : Parameter)
  /-- Two parameters were given that exclude each other. -/
  | excluded (p q : Parameter)
  /-- No command was given. -/
  | commandMissing
  /-- Parameters were left out that must be given. -/
  | parametersMissing (ps : List Parameter)
  deriving DecidableEq, Repr

/-! ## Messages -/

/-- Something that was typed or named, and is wrong. -/
def wrong (s : String) : Span := ⟨.complaint, s⟩

/-- A parameter, as one types it. -/
def Parameter.literal (p : Parameter) : Span := ⟨.literal, p.display⟩

/-- The message about a missing value. -/
def Parameter.valueMessage (p : Parameter) : Styled :=
  [.plain "a value is required for '", wrong p.display, .plain "' but none was supplied"]

/-- The message about a value that is refused, with what there is to say about it. -/
def Parameter.refusal (p : Parameter) (text : String) (reason : String) : Styled :=
  [.plain "invalid value '", wrong text, .plain "' for '", p.literal, .plain ("'" ++ reason)]

/-- The message about a parameter that does not go together with another one. -/
def Parameter.clash (p : Parameter) (how : Styled) : Styled :=
  [.plain "the argument '", wrong p.display, .plain "' cannot be used "] ++ how

/-- The message of a mistake. -/
def Mistake.message : Mistake → Styled
  | unknownArgument text => [.plain "unexpected argument '", wrong text, .plain "' found"]
  | unknownCommand text => [.plain "unrecognized subcommand '", wrong text, .plain "'"]
  | valueMissing p => p.valueMessage
  | valueUnexpected p text =>
    [.plain "unexpected value '", wrong text, .plain "' for '", p.literal,
      .plain "' found; no more were expected"]
  | valueRefused p _ .absent => p.valueMessage
  | valueRefused p text .unlisted => p.refusal text ""
  | valueRefused p text (.invalid reason) => p.refusal text (": " ++ reason)
  | repeated p => p.clash [.plain "multiple times"]
  | excluded p q => p.clash [.plain "with '", wrong q.display, .plain "'"]
  | commandMissing =>
    [.plain "'", wrong programName,
      .plain "' requires a subcommand but one was not provided"]
  | parametersMissing ps =>
    .plain "the following required arguments were not provided:"
      :: ps.flatMap fun p => [.plain "\n  ", ⟨.advice, p.display⟩]

/-- Whether it helps to show how the level is called: not where only a value is wrong. -/
def Mistake.showsUsage : Mistake → Bool
  | valueMissing _ | valueRefused .. => false
  | _ => true

/-! ## Stops -/

/-- What help can be asked about. -/
inductive Topic
  | level (l : Level)
  /-- The help command itself. -/
  | help
  deriving DecidableEq, Repr

/-- What ends the reading of a command line early. -/
inductive Stop
  | mistake (level : Level) (m : Mistake)
  | help (topic : Topic)
  | version
  /-- Nothing at all was given. -/
  | nothingGiven
  deriving DecidableEq, Repr

end BuildVariants.CommandLine
