import BuildVariants.Text.Terminal

/-!
# Styled text

A message is a list of spans, each with the emphasis it is to be read with.  It is written with
color for a terminal; without color it is what is left of that when all control sequences are
taken out, those of the message itself and those that came with somebody's text.
-/

namespace BuildVariants.Text

/-- How a span of text stands out. -/
inductive Emphasis
  | none
  /-- The word in front of a complaint. -/
  | alarm
  /-- What is complained about. -/
  | complaint
  /-- What would have been right. -/
  | advice
  /-- What is to be typed as it stands. -/
  | literal
  deriving DecidableEq, Repr

/-- The sequence that turns an emphasis on: bold red, yellow, green and bold. -/
def Emphasis.opening : Emphasis → String
  | none => ""
  | alarm => "\x1b[1m\x1b[31m"
  | complaint => "\x1b[33m"
  | advice => "\x1b[32m"
  | literal => "\x1b[1m"

/-- A piece of text with one emphasis. -/
structure Span where
  /-- How it stands out. -/
  emphasis : Emphasis
  /-- What it says. -/
  text : String
  deriving DecidableEq, Repr

/-- A text with an emphasis on each of its pieces. -/
abbrev Styled := List Span

/-- A text that does not stand out. -/
def Span.plain (s : String) : Span := ⟨.none, s⟩

/-- A span with the sequences that turn its emphasis on and off. -/
def Span.colored (s : Span) : String :=
  if s.emphasis = .none then s.text else s.emphasis.opening ++ s.text ++ "\x1b[0m"

/-- A styled text in color. -/
def Styled.colored (t : Styled) : String :=
  String.join (t.map Span.colored)

/-- A styled text for a reader or a terminal that has no color. -/
def Styled.plain (t : Styled) : String :=
  dropControls t.colored

/-- A styled text, in color or not. -/
def Styled.render (t : Styled) (useColor : Bool) : String :=
  if useColor then t.colored else t.plain

end BuildVariants.Text
