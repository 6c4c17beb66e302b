import BuildVariants.Variables

/-!
# The environment of a process

A process is given its environment as texts `NAME=VALUE`, and nothing in them tells where a name
ends.  A variable is found by the way the texts begin: its value is what follows `NAME=` in the
first text that begins so, whatever the name was meant to be.

A program that sets variables for a child reads the texts as variables, sets its own among them and
writes them all anew; if it sets none, the child is given the texts as they are (`assign`).
-/

namespace BuildVariants

/-- The texts a process is given. -/
structure Environment where
  /-- The texts in order. -/
  texts : List String
  deriving DecidableEq, Repr

namespace Environment

/-- The text of a variable. -/
def assignment (name value : String) : String :=
  name ++ "=" ++ value

/-- What follows a beginning of a text. -/
def remainder? : (beginning text : List Char) → Option (List Char)
  | [], cs => some cs
  | _ :: _, [] => none
  | b :: bs, c :: cs => if b = c then remainder? bs cs else none

/-- The value a text gives to a name, if it begins with the name and `=`. -/
def valueIn? (name text : String) : Option String :=
  (remainder? (name.toList ++ ['=']) text.toList).map String.ofList

/-- The value of a name. -/
def value? (e : Environment) (name : String) : Option String :=
  e.texts.findSome? (valueIn? name)

/-- The environment that variables are written as. -/
def ofVariables (vars : Variables) : Environment :=
  ⟨vars.entries.map fun v => assignment v.1 v.2⟩

/-- The variable a text is read as.  Its name ends before the first `=`, but for one at the very
front, which belongs to the name; a text without such an end is no variable. -/
def entry? (text : String) : Option (String × String) :=
  match text.toList with
  | [] => none
  | c :: cs =>
    match cs.dropWhile (· ≠ '=') with
    | [] => none
    | _ :: value => some (String.ofList (c :: cs.takeWhile (· ≠ '=')), String.ofList value)

/-- The variables an environment is read as. -/
def toVariables (e : Environment) : Variables :=
  .ofList (e.texts.filterMap entry?)

/-- The environment of a child for which some variables are set. -/
def assign (e : Environment) (vars : Variables) : Environment :=
  if vars.entries = [] then e else ofVariables (e.toVariables.insertAll vars.entries)

end Environment

end BuildVariants
