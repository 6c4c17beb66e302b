import BuildVariants.Text.Scan

/-!
# Written forms of strings and keys

A string can be written in four ways, and a key in three.  Which one is taken depends on the
characters in it: the first form of a fixed order that can hold them without an escape, and a form
with escapes if there is none.

* `Form.ofString` chooses for a string: one line between double quotes, one line between single
  quotes, several lines between triple double quotes, several lines between triple single quotes,
  and otherwise double quotes with escapes, triple if there is a line break.
* `keyText` chooses for a key: bare, between double quotes, between single quotes, and otherwise
  double quotes with escapes.

Between triple quotes a double quote needs an escape only where it would be the third in a row.
-/

namespace BuildVariants.Toml

open BuildVariants.Text

/-! ## What a text holds -/

/-- Whether a character has to be escaped wherever it stands: a control character other than a
tab or a line break. -/
def isControl (c : Char) : Bool :=
  (c.toNat < 0x20 && c != '\t' && c != '\n') || c.toNat == 0x7f

/-- The longest run of a character. -/
def longestRun (q : Char) : (current longest : Nat) → List Char → Nat
  | current, longest, [] => max current longest
  | current, longest, c :: cs =>
    if c = q then longestRun q (current + 1) longest cs
    else longestRun q 0 (max current longest) cs

/-- The longest run of double quotes. -/
def doubleRun (cs : List Char) : Nat := longestRun '"' 0 0 cs

/-- The longest run of single quotes. -/
def singleRun (cs : List Char) : Nat := longestRun '\'' 0 0 cs

/-! ## Escapes -/

/-- An escape between double quotes for a character that needs one, other than a double quote. -/
def escape (c : Char) : List Char :=
  if c = '\x08' then ['\\', 'b']
  else if c = '\t' then ['\\', 't']
  else if c = '\n' then ['\\', 'n']
  else if c = '\x0c' then ['\\', 'f']
  else if c = '\r' then ['\\', 'r']
  else if c = '"' then ['\\', '"']
  else if c = '\\' then ['\\', '\\']
  else ['\\', 'u'] ++ hexText false 4 c.toNat

/-- Whether a character is escaped between double quotes, other than a quote or a line break. -/
def needsEscape (c : Char) : Bool :=
  isControl c || c == '\t' || c == '\\'

/-- The characters between double quotes on one line. -/
def basicText (cs : List Char) : List Char :=
  cs.flatMap fun c => if needsEscape c || c == '"' || c == '\n' then escape c else [c]

/-- The characters between triple double quotes; `run` double quotes stand in front of them. -/
def multilineText : (run : Nat) → List Char → List Char
  | _, [] => []
  | run, c :: cs =>
    if c = '"' then
      if run = 2 then escape c ++ multilineText 0 cs else c :: multilineText (run + 1) cs
    else if needsEscape c then escape c ++ multilineText 0 cs
    else c :: multilineText 0 cs

/-! ## Strings -/

/-- A way to write a string. -/
inductive Form
  | basic
  | literal
  | multilineBasic
  | multilineLiteral
  deriving DecidableEq, Repr

/-- The way a string is written. -/
def Form.ofString (cs : List Char) : Form :=
  let coded := cs.any isControl
  let slashed := cs.contains '\\'
  let broken := cs.contains '\n'
  if !coded && !slashed && doubleRun cs = 0 && !broken then .basic
  else if !coded && singleRun cs = 0 && !broken then .literal
  else if !coded && !slashed && doubleRun cs ≤ 2 then .multilineBasic
  else if !coded && singleRun cs ≤ 2 then .multilineLiteral
  else if broken then .multilineBasic
  else .basic

/-- The line break that follows an opening triple quote if there are line breaks in the text. -/
def openingBreak (cs : List Char) : List Char :=
  if cs.contains '\n' then ['\n'] else []

/-- A string in one of its forms. -/
def Form.write (cs : List Char) : Form → List Char
  | basic => '"' :: basicText cs ++ ['"']
  | literal => '\'' :: cs ++ ['\'']
  | multilineBasic => ['"', '"', '"'] ++ openingBreak cs ++ multilineText 0 cs ++ ['"', '"', '"']
  | multilineLiteral => ['\'', '\'', '\''] ++ openingBreak cs ++ cs ++ ['\'', '\'', '\'']

/-- A string as it is written. -/
def stringText (s : String) : List Char :=
  (Form.ofString s.toList).write s.toList

/-! ## Keys -/

/-- Whether a character may stand in a key without quotes. -/
def isBareKeyChar (c : Char) : Bool :=
  ('A' ≤ c && c ≤ 'Z') || ('a' ≤ c && c ≤ 'z') || ('0' ≤ c && c ≤ '9') || c == '_' || c == '-'

/-- A key as it is written. -/
def keyText (k : String) : List Char :=
  let cs := k.toList
  let coded := cs.any fun c => isControl c || c == '\n'
  if !cs.isEmpty && cs.all isBareKeyChar then cs
  else if !coded && !cs.contains '\\' && !cs.contains '"' then Form.basic.write cs
  else if !coded && !cs.contains '\'' then Form.literal.write cs
  else Form.basic.write cs

end BuildVariants.Toml
