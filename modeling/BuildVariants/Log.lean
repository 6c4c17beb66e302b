import BuildVariants.Text.Spacing
import BuildVariants.Text.Terminal

/-!
# Log records

Records for those who look into what the program does.  A record is written on a line of its own,
its level flush right in a column of five.  What a record says is often somebody else's text, so
terminal commands in it are written as escapes.
-/

namespace BuildVariants

/-- How much a log record matters. -/
inductive Level
  | debug
  | warn
  deriving DecidableEq, Repr

/-- One log record. -/
structure LogRecord where
  /-- How much it matters. -/
  level : Level
  /-- What it says. -/
  message : String
  deriving DecidableEq, Repr

/-- The name of a level. -/
def Level.name : Level → String
  | debug => "DEBUG"
  | warn => "WARN"

/-- The escape sequence that turns on the color of a level. -/
def Level.color : Level → String
  | debug => "\x1b[34m"
  | warn => "\x1b[33m"

/-- The messages of the warnings among some records. -/
def warnings (records : List LogRecord) : List String :=
  (records.filter (·.level = .warn)).map LogRecord.message

/-- The line of a record. -/
def LogRecord.line (useColor : Bool) (r : LogRecord) : String :=
  let name := Text.padLeft 5 r.level.name
  (if useColor then r.level.color ++ name ++ "\x1b[0m" else name) ++ " "
    ++ Text.escapeControls r.message ++ "\n"

/-! ## What is shown -/

/-- Which log records are shown, and how. -/
structure LogView where
  /-- Whether records of a level are shown. -/
  shows : Level → Bool
  /-- Whether they are colored. -/
  useColor : Bool

/-- No log records at all. -/
def LogView.nothing : LogView := ⟨fun _ => false, false⟩

/-- The text of a log record, if it is shown. -/
def LogView.text (v : LogView) (r : LogRecord) : String :=
  if v.shows r.level then r.line v.useColor else ""

end BuildVariants
