import BuildVariants.Toml.Number
import BuildVariants.Toml.Tree

/-!
# Reading a TOML document

`parse?` reads a whole document: first the statements of all its lines, then the table they
define.  Values nest by recursion on the number of brackets that may still be opened, which the
format bounds by `maxDepth`; items and pairs are read by `many`.
-/

namespace BuildVariants.Toml

open BuildVariants.Text

/-! ## Values -/

/-- Passes over a given text. -/
def passText : List Char → Pass
  | [], cs => some cs
  | _ :: _, [] => none
  | x :: xs, c :: cs => if c = x then passText xs cs else none

/-- An item of an array with the blanks, line breaks and comments around it. -/
def readItem (value : Scan Value) (cs : List Char) : Option (Value × List Char) :=
  match value (skipLines false cs) with
  | none => none
  | some (v, rest) => some (v, skipLines false rest)

/-- A further item of an array. -/
def readFurtherItem (value : Scan Value) : Scan Value
  | ',' :: cs => readItem value cs
  | _ => none

/-- The items of an array behind its opening bracket, up to the closing one.  A comma may stand
behind the last item. -/
def readItems (value : Scan Value) (cs : List Char) : Option (List Value × List Char) :=
  match readItem value cs with
  | none => (passChar ']' (skipLines false cs)).map fun rest => ([], rest)
  | some (v, r) =>
    match many (readFurtherItem value) r with
    | (vs, r') =>
      (passChar ']' (skipLines false (passOptional (passChar ',') r'))).map fun rest =>
        (v :: vs, rest)

/-- A key, an equals sign and a value on one line. -/
def readPair (value : Scan Value) (cs : List Char) :
    Option (((List String × String) × Value) × List Char) :=
  match readKey cs with
  | none => none
  | some (k, r) =>
    match passChar '=' r with
    | none => none
    | some r' =>
      match value (skipBlanks r') with
      | none => none
      | some (v, rest) => some ((k, v), skipBlanks rest)

/-- A further pair of an inline table. -/
def readFurtherPair (value : Scan Value) : Scan ((List String × String) × Value)
  | ',' :: cs => readPair value cs
  | _ => none

/-- An inline table behind its opening brace. -/
def readInline (value : Scan Value) (cs : List Char) : Option (Value × List Char) :=
  match readPair value cs with
  | none => (passChar '\x7d' (skipBlanks cs)).map fun rest => (.table [], rest)
  | some (p, r) =>
    match many (readFurtherPair value) r with
    | (ps, r') =>
      match passChar '\x7d' (skipBlanks r'), inlineTable (p :: ps) with
      | some rest, some v => some (v, rest)
      | _, _ => none

/-- A value in which at most `depth` brackets may be open at one place. -/
def readValue : (depth : Nat) → Scan Value
  | _, [] => none
  | depth, c :: cs =>
    if c = '"' ∨ c = '\'' then
      (readString (c :: cs)).map fun x => (.string (String.ofList x.1), x.2)
    else if c = '[' ∨ c = '\x7b' then
      match depth with
      | 0 => none
      | n + 1 =>
        if c = '[' then (readItems (readValue n) cs).map fun x => (.array x.1, x.2)
        else readInline (readValue n) cs
    else if c = 't' then (passText "true".toList (c :: cs)).map fun r => (.boolean true, r)
    else if c = 'f' then (passText "false".toList (c :: cs)).map fun r => (.boolean false, r)
    else readNumber (c :: cs)

/-! ## Lines -/

/-- A header behind its first bracket. -/
def readHeader : Scan Statement
  | '[' :: cs =>
    match readKey cs with
    | some (k, r) => (passText [']', ']'] r).map fun rest => (.element k.1 k.2, rest)
    | none => none
  | cs =>
    match readKey cs with
    | some (k, r) => (passChar ']' r).map fun rest => (.header k.1 k.2, rest)
    | none => none

/-- The statement at the beginning of a line, if there is one; blanks have been passed over. -/
def readStatement (cs : List Char) : Option (List Statement × List Char) :=
  match cs with
  | [] => some ([], [])
  | c :: r =>
    if c = '[' then (readHeader r).map fun x => ([x.1], x.2)
    else if c = '#' ∨ c = '\n' ∨ c = '\r' then some ([], cs)
    else (readPair (readValue maxDepth) cs).map fun x => ([.pair x.1.1.1 x.1.1.2 x.1.2], x.2)

/-- One line with its end. -/
def readLine (cs : List Char) : Option (List Statement × List Char) :=
  match readStatement (skipBlanks cs) with
  | none => none
  | some (s, r) => (endLine? r).map fun rest => (s, rest)

/-- The statements of all lines. -/
def readLines (cs : List Char) : Option (List Statement) :=
  if cs = [] then some []
  else match readLine cs with
    | none => none
    | some (s, rest) =>
      if rest.length < cs.length then (readLines rest).map (s ++ ·) else none
termination_by cs.length

/-- The byte order mark that may stand in front of a document. -/
def byteOrderMark : Char := '\ufeff'

/-- The statements of a document. -/
def statements? (cs : List Char) : Option (List Statement) :=
  readLines (match cs with
    | c :: r => if c = byteOrderMark then r else c :: r
    | [] => [])

/-- The table of a document. -/
def parse? (s : String) : Option Entries :=
  match statements? s.toList with
  | none => none
  | some ss => tableOf ss

end BuildVariants.Toml
