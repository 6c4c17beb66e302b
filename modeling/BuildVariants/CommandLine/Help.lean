import BuildVariants.CommandLine.Mistake
import BuildVariants.Text.Spacing

/-!
# Help texts

What the program says about itself.  A help text opens with what the level does, then shows how it
is called, and then lists its commands, its places and its options.
-/

namespace BuildVariants.CommandLine

/-- The name of a level as the user types it. -/
def Level.path : Level → String
  | program => programName
  | command v => programName ++ " " ++ v.name

/-- What a level does. -/
def Level.about : Level → String
  | program => programAbout
  | command v => v.about

/-- What may be put behind the name of a level. -/
def Level.pattern (l : Level) : String :=
  let places := l.places.map fun p => " " ++ p.display
  let rest := match l.rest? with
    | some p => [" [-- <" ++ p.valueName ++ ">...]"]
    | none => []
  let commands := match l with
    | .program => [" <COMMAND>"]
    | .command _ => []
  " [OPTIONS]" ++ String.join (places ++ commands ++ rest)

/-- How a level is called. -/
def Level.usage (l : Level) : String :=
  "Usage: " ++ l.path ++ l.pattern ++ "\n"

/-- The names of a parameter in a list of options. -/
def Parameter.names (p : Parameter) : String :=
  match p.letter? with
  | some c => String.ofList ['-', c] ++ ", " ++ p.display
  | none => "    " ++ p.display

/-- A section of two columns, if there is anything in it. -/
def columns (title : String) (rows : List (String × String)) : String :=
  if rows = [] then ""
  else
    let width := (rows.map fun r => r.1.length).foldl max 0
    "\n" ++ title ++ ":\n" ++ String.join
      (rows.map fun r => "  " ++ Text.padRight width r.1 ++ "  " ++ r.2 ++ "\n")

/-- The commands of a level. -/
def Level.commandRows : Level → List (String × String)
  | program => (Verb.all.map fun v => (v.name, v.about)) ++ [(helpName, helpAbout)]
  | command _ => []

/-- The places of a level. -/
def Level.placeRows (l : Level) : List (String × String) :=
  (l.places ++ l.rest?.toList).map fun p => (p.display, p.about)

/-- The options of a level. -/
def Level.optionRows (l : Level) : List (String × String) :=
  l.options.map fun p => (p.names, p.about)

/-- The help text of a level. -/
def Level.help (l : Level) : String :=
  l.about ++ "\n\n" ++ l.usage ++ columns "Commands" l.commandRows
    ++ columns "Arguments" l.placeRows ++ columns "Options" l.optionRows

/-- The help text of a topic. -/
def Topic.text : Topic → String
  | level l => l.help
  | help => helpAbout ++ "\n\nUsage: " ++ programName ++ " " ++ helpName ++ " [COMMAND]...\n"

/-- What is said about a mistake at a level. -/
def Mistake.report (m : Mistake) (l : Level) : Text.Styled :=
  [⟨.alarm, "error:"⟩, .plain " "] ++ m.message
    ++ (if m.showsUsage then [.plain ("\n\n" ++ l.usage)] else [.plain "\n"])
    ++ [.plain "\nFor more information, try '", ⟨.literal, "--help"⟩, .plain "'.\n"]

end BuildVariants.CommandLine
