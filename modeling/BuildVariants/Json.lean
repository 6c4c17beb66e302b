import BuildVariants.Text.Scan

/-!
# JSON

Values, and the one printer behind both printed forms.  An object keeps its fields in the order
in which they were given, and a number is kept as it is written.

The compact and the indented form differ only in what stands between two tokens, which a `Spacing`
says: a line break with the indentation of a depth, and what follows a colon.  Everything else of
the format (quotes, escapes, commas, brackets, the one-line forms of an empty array and an empty
object) is shared.
-/

namespace BuildVariants

/-- A JSON value. -/
inductive Json
  | null
  | boolean (b : Bool)
  /-- A number, as written. -/
  | number (digits : String)
  | string (s : String)
  | array (items : List Json)
  | object (fields : List (String × Json))

namespace Json

instance : Inhabited Json := ⟨null⟩

/-! ## Strings -/

/-- One character inside a string.  The quote, the backslash and the characters below the blank
are escaped, with the short form where there is one; all others stand for themselves. -/
def escape (c : Char) : List Char :=
  if c = '"' then ['\\', '"']
  else if c = '\\' then ['\\', '\\']
  else if c = '\x08' then ['\\', 'b']
  else if c = '\x0c' then ['\\', 'f']
  else if c = '\n' then ['\\', 'n']
  else if c = '\r' then ['\\', 'r']
  else if c = '\t' then ['\\', 't']
  else if c.toNat < 0x20 then ['\\', 'u'] ++ Text.hexText true 4 c.toNat
  else [c]

/-- A string with its quotes. -/
def quoted (s : String) : List Char :=
  '"' :: s.toList.flatMap escape ++ ['"']

/-! ## Printing -/

/-- What stands between the tokens of a printed value. -/
structure Spacing where
  /-- What stands before an item, a field or a closing bracket at a depth. -/
  lineBreak : Nat → List Char
  /-- What stands between a colon and the value behind it. -/
  gap : List Char

/-- Nothing between the tokens. -/
def Spacing.compact : Spacing := ⟨fun _ => [], []⟩

/-- One item or field to a line, two blanks more for each depth. -/
def Spacing.indented : Spacing := ⟨fun n => '\n' :: List.replicate (2 * n) ' ', [' ']⟩

mutual

/-- A value at a depth. -/
def print (sp : Spacing) (depth : Nat) : Json → List Char
  | null => "null".toList
  | boolean true => "true".toList
  | boolean false => "false".toList
  | number digits => digits.toList
  | string s => quoted s
  | array [] => ['[', ']']
  | array (x :: xs) =>
    '[' :: sp.lineBreak (depth + 1) ++ print sp (depth + 1) x ++ printItems sp (depth + 1) xs
      ++ sp.lineBreak depth ++ [']']
  | object [] => ['{', '}']
  | object ((k, x) :: fs) =>
    '{' :: sp.lineBreak (depth + 1) ++ quoted k ++ ':' :: sp.gap ++ print sp (depth + 1) x
      ++ printFields sp (depth + 1) fs ++ sp.lineBreak depth ++ ['}']

/-- The items behind the first one of an array. -/
def printItems (sp : Spacing) (depth : Nat) : List Json → List Char
  | [] => []
  | x :: xs => ',' :: sp.lineBreak depth ++ print sp depth x ++ printItems sp depth xs

/-- The fields behind the first one of an object. -/
def printFields (sp : Spacing) (depth : Nat) : List (String × Json) → List Char
  | [] => []
  | (k, x) :: fs =>
    ',' :: sp.lineBreak depth ++ quoted k ++ ':' :: sp.gap ++ print sp depth x
      ++ printFields sp depth fs

end

/-- A value on one line, without blanks between the tokens. -/
def compact (j : Json) : String :=
  String.ofList (print .compact 0 j)

/-- A value with one item or field to a line. -/
def pretty (j : Json) : String :=
  String.ofList (print .indented 0 j)

/-! ## Looking into a value -/

/-- The value of a field of an object; the first one if a name is repeated. -/
def field? (j : Json) (name : String) : Option Json :=
  match j with
  | object fields => fields.lookup name
  | _ => none

end Json

end BuildVariants
