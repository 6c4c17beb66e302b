import BuildVariants.Toml.Form

/-!
# Writing a TOML document

A document is written as a list of sections with one blank line between them.  A section is a
header and the pairs under it; the pairs in front of the first header are a section without one.
An array of two or more strings is written with one string to a line.
-/

namespace BuildVariants.Toml

/-- What stands behind an equals sign. -/
inductive Datum
  | string (s : String)
  | strings (items : List String)
  deriving DecidableEq, Repr

/-- The header of a section. -/
inductive Heading
  /-- No header. -/
  | top
  /-- The header of a table. -/
  | table (path : List String)
  /-- The header of an element of an array of tables. -/
  | element (path : List String)
  deriving DecidableEq, Repr

/-- A header and the pairs under it. -/
structure Section where
  heading : Heading
  pairs : List (String × Datum)
  deriving DecidableEq, Repr

/-- A string on a line of its own in an array. -/
def itemLine (s : String) : List Char :=
  [' ', ' ', ' ', ' '] ++ stringText s ++ [',', '\n']

/-- A datum as it is written. -/
def Datum.write : Datum → List Char
  | string s => stringText s
  | strings [] => ['[', ']']
  | strings [s] => '[' :: stringText s ++ [']']
  | strings items => '[' :: '\n' :: items.flatMap itemLine ++ [']']

/-- A pair on a line of its own. -/
def pairLine (p : String × Datum) : List Char :=
  keyText p.1 ++ [' ', '=', ' '] ++ p.2.write ++ ['\n']

/-- The keys of a path with dots between them. -/
def pathText : List String → List Char
  | [] => []
  | [k] => keyText k
  | k :: ks => keyText k ++ '.' :: pathText ks

/-- A header on a line of its own. -/
def Heading.write : Heading → List Char
  | top => []
  | table path => '[' :: pathText path ++ [']', '\n']
  | element path => '[' :: '[' :: pathText path ++ [']', ']', '\n']

/-- A section as it is written. -/
def Section.write (s : Section) : List Char :=
  s.heading.write ++ s.pairs.flatMap pairLine

/-- Sections with a blank line between two of them. -/
def writeSections : List Section → List Char
  | [] => []
  | [s] => s.write
  | s :: ss => s.write ++ '\n' :: writeSections ss

/-- The text of a document. -/
def documentText (sections : List Section) : String :=
  String.ofList (writeSections sections)

end BuildVariants.Toml
