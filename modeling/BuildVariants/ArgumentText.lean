import BuildVariants.Diagnostic
import BuildVariants.Text.Spacing
import BuildVariants.Words

/-!
# Arguments in a plan

A plan gives arguments either as one line, which is cut into words when a process is started, or
as a list, which is passed on as it stands.  A variant may also give no options at all, which is
neither an empty line nor an empty list.
-/

namespace BuildVariants

/-- Arguments as a plan gives them. -/
inductive ArgumentText
  /-- One line. -/
  | line (text : String)
  /-- One text for each argument. -/
  | list (items : List String)
  deriving DecidableEq, Repr

/-- The words of an argument line. -/
def splitLine (line : String) : Except Diagnostic (List String) :=
  match Words.split line with
  | some words => .ok words
  | none => .error (.malformedArguments line)

namespace ArgumentText

instance : Inhabited ArgumentText := ⟨list []⟩

/-- The arguments one by one. -/
def expand : ArgumentText → Except Diagnostic (List String)
  | line text => splitLine text
  | list items => .ok items

/-- The arguments on one line; items are joined by single blanks and not quoted. -/
def joined : ArgumentText → String
  | line text => text
  | list items => " ".intercalate items

/-- Whether there is nothing in it: a line of blanks, or a list without items. -/
def isEmpty : ArgumentText → Bool
  | line text => Text.isBlankText text
  | list items => items.isEmpty

end ArgumentText

/-- The options of a variant on one line. -/
def optionLine : Option ArgumentText → String
  | none => ""
  | some t => t.joined

/-- The options of a variant one by one. -/
def optionWords : Option ArgumentText → Except Diagnostic (List String)
  | none => .ok []
  | some t => t.expand

end BuildVariants
