import BuildVariants.Text.Spacing

/-!
# Status lines

What a command tells its user while it works: a word in a column of twelve, in color if the user
wants that, and a message.  A quiet shell writes none of it.
-/

namespace BuildVariants

/-- How much a shell tells. -/
inductive Verbosity
  | quiet
  | normal
  | verbose
  deriving DecidableEq, Repr

/-- Whether output is colored. -/
inductive ColorChoice
  /-- If it goes to a terminal. -/
  | auto
  | always
  | never
  deriving DecidableEq, Repr

/-- The choice a word names, in either case of the letters.  Only ASCII letters are brought to
lower case: the one other character whose lower case is an ASCII text is the Kelvin sign, and no
choice has a `k`. -/
def ColorChoice.parse? (s : String) : Option ColorChoice :=
  match String.ofList (s.toList.map Char.toLower) with
  | "auto" => some .auto
  | "always" => some .always
  | "never" => some .never
  | _ => none

/-- What is said about a word that names no choice. -/
def ColorChoice.complaint (s : String) : String :=
  "invalid color choice '" ++ s ++ "'; expected 'auto', 'always', or 'never'"

/-- What a command is doing or has done. -/
inductive Status
  | finished
  | removed
  | configuring
  | building
  | running
  | info
  | skipped
  deriving DecidableEq, Repr

namespace Status

/-- The word of a status. -/
def word : Status → String
  | finished => "Finished"
  | removed => "Removed"
  | configuring => "Configuring"
  | building => "Building"
  | running => "Running"
  | info => "Info"
  | skipped => "Skipped"

/-- The escape sequence that turns on the color of a status: green for what is done, cyan for
what is going on, blue for notes, yellow for what was left out. -/
def color : Status → String
  | finished | removed => "\x1b[1;32m"
  | configuring | building | running => "\x1b[1;36m"
  | info => "\x1b[1;34m"
  | skipped => "\x1b[1;33m"

end Status

/-- The width of the status column. -/
def statusWidth : Nat := 12

/-- How a command talks to its user. -/
structure Shell where
  /-- How much it tells. -/
  verbosity : Verbosity
  /-- Whether it uses color. -/
  useColor : Bool
  deriving DecidableEq, Repr

namespace Shell

/-- The shell some flags ask for.  Quiet wins over verbose. -/
def ofFlags (quiet verbose : Bool) (color : ColorChoice) (terminal : Bool) : Shell where
  verbosity := if quiet then .quiet else if verbose then .verbose else .normal
  useColor := match color with
    | .auto => terminal
    | .always => true
    | .never => false

/-- Whether the output of child processes is shown. -/
def isVerbose (s : Shell) : Bool :=
  s.verbosity = .verbose

/-- Whether status lines are left out. -/
def isQuiet (s : Shell) : Bool :=
  s.verbosity = .quiet

/-- The status column. -/
def column (s : Shell) (status : Status) : String :=
  let word := Text.padLeft statusWidth status.word
  if s.useColor then status.color ++ word ++ "\x1b[0m" else word

/-- The status line of a message; nothing in a quiet shell. -/
def statusLine (s : Shell) (status : Status) (message : String) : String :=
  if s.isQuiet then "" else s.column status ++ " " ++ message ++ "\n"

end Shell

/-! ## Elapsed time -/

/-- A number of hundredths, or of tenths, with a point. -/
def decimalText (places : Nat) (n : Nat) : String :=
  toString (n / Nat.pow 10 places) ++ "." ++ Text.zeroPadded places (n % Nat.pow 10 places)

/-- An elapsed time: seconds with two decimals below a minute, minutes with one decimal from
there on. -/
def elapsedText (milliseconds : Nat) : String :=
  if milliseconds < 60000 then decimalText 2 ((milliseconds + 5) / 10) ++ "s"
  else decimalText 1 ((milliseconds + 3000) / 6000) ++ "m"

end BuildVariants
