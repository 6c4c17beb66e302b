import BuildVariants.Toml.Value

/-!
# Building a table from statements

A document is a list of statements: headers, each of which opens a table, and pairs, which put a
value into the table that is open.  The order of the statements is free, but no table may be
defined twice, so while the tree grows every table remembers its `Origin`.

* A header may open a table that exists only because a deeper header needed it (`implied`), once.
* A dotted key may pass through tables that are there only because of other headers or dotted
  keys, and it may put its value only into the open table or into a table that dotted keys made.
* The path of a header goes through the last element of an array of tables.

An inline table is built by the same rules from its own pairs and is a finished value afterwards,
so that nothing can be added to it.
-/

namespace BuildVariants.Toml

/-- Why a table is there. -/
inductive Origin
  /-- A header of its own, or an element of an array of tables. -/
  | header
  /-- The header of a table inside. -/
  | implied
  /-- A dotted key. -/
  | dotted
  deriving DecidableEq, Repr

/-- What stands under a key while a document is read. -/
inductive Node
  /-- A finished value. -/
  | leaf (v : Value)
  /-- A table that may still grow. -/
  | table (origin : Origin) (entries : List (String × Node))
  /-- An array of tables, each with its entries. -/
  | elements (tables : List (List (String × Node)))

/-- The entries of a table that may still grow. -/
abbrev Branch := List (String × Node)

/-- One statement of a document. -/
inductive Statement
  /-- A value under a key, possibly inside tables named by a dotted key. -/
  | pair (tables : List String) (key : String) (value : Value)
  /-- The header of a table. -/
  | header (tables : List String) (key : String)
  /-- The header of an element of an array of tables. -/
  | element (tables : List String) (key : String)

/-! ## Growing -/

/-- Changes what stands under a key; a new key goes to the end. -/
def Branch.alter (key : String) (f : Option Node → Option Node) : Branch → Option Branch
  | [] => (f none).map fun n => [(key, n)]
  | (k, n) :: rest =>
    if k = key then (f (some n)).map fun n' => (k, n') :: rest
    else (Branch.alter key f rest).map fun rest' => (k, n) :: rest'

/-- Changes the last element of a list. -/
def alterLast {α : Type} (f : α → Option α) : List α → Option (List α)
  | [] => none
  | [x] => (f x).map fun y => [y]
  | x :: y :: ys => (alterLast f (y :: ys)).map fun zs => x :: zs

/-- Changes the table that a header's path leads to.  Tables that are missing on the way are
implied. -/
def Branch.atPath (f : Branch → Option Branch) : List String → Branch → Option Branch
  | [], b => f b
  | k :: ks, b =>
    b.alter k fun
      | none => (Branch.atPath f ks []).map (.table .implied)
      | some (.table o b') => (Branch.atPath f ks b').map (.table o)
      | some (.elements ts) => (alterLast (Branch.atPath f ks) ts).map .elements
      | some (.leaf _) => none

/-- Puts a value under a key that is not there yet. -/
def Branch.addNew (key : String) (n : Node) (b : Branch) : Option Branch :=
  b.alter key fun
    | none => some n
    | some _ => none

/-- Puts a value under a dotted key.  The last table on the way has to be one that dotted keys
made; those before it may also be implied by a header, or be the last of an array of tables. -/
def Branch.addPair (key : String) (v : Value) : List String → Branch → Option Branch
  | [], b => b.addNew key (.leaf v)
  | k :: ks, b =>
    b.alter k fun
      | none => (Branch.addPair key v ks []).map (.table .dotted)
      | some (.table .header _) => none
      | some (.table o b') =>
        if ks = [] ∧ o ≠ .dotted then none else (Branch.addPair key v ks b').map (.table o)
      | some (.elements ts) =>
        if ks = [] then none else (alterLast (Branch.addPair key v ks) ts).map .elements
      | some (.leaf _) => none

/-- Opens the table under a key: a new one, or one that was only implied. -/
def Branch.openTable (key : String) (b : Branch) : Option Branch :=
  b.alter key fun
    | none => some (.table .header [])
    | some (.table .implied b') => some (.table .header b')
    | some _ => none

/-- Opens a new element of the array of tables under a key. -/
def Branch.openElement (key : String) (b : Branch) : Option Branch :=
  b.alter key fun
    | none => some (.elements [[]])
    | some (.elements ts) => some (.elements (ts ++ [[]]))
    | some _ => none

/-- A document that is being read: the tree, and the path of the open table. -/
structure Draft where
  /-- What has been read. -/
  root : Branch
  /-- Where pairs go. -/
  openPath : List String

/-- A document of which nothing has been read. -/
def Draft.start : Draft := ⟨[], []⟩

/-- Takes one statement in. -/
def Draft.add (d : Draft) : Statement → Option Draft
  | .pair tables key value =>
    (d.root.atPath (Branch.addPair key value tables) d.openPath).map fun r => ⟨r, d.openPath⟩
  | .header tables key =>
    (d.root.atPath (Branch.openTable key) tables).map fun r => ⟨r, tables ++ [key]⟩
  | .element tables key =>
    (d.root.atPath (Branch.openElement key) tables).map fun r => ⟨r, tables ++ [key]⟩

/-- Takes statements in, one after the other. -/
def Draft.addAll (d : Draft) : List Statement → Option Draft
  | [] => some d
  | s :: ss =>
    match d.add s with
    | none => none
    | some d' => d'.addAll ss

/-! ## The finished tree -/

mutual

/-- The value of a node that will not grow any more. -/
def Node.toValue : Node → Value
  | .leaf v => v
  | .table _ b => .table (branchEntries b)
  | .elements ts => .array (elementValues ts)

/-- The entries of a table that will not grow any more. -/
def branchEntries : List (String × Node) → List (String × Value)
  | [] => []
  | (k, n) :: rest => (k, n.toValue) :: branchEntries rest

/-- The tables of an array that will not grow any more. -/
def elementValues : List (List (String × Node)) → List Value
  | [] => []
  | b :: rest => .table (branchEntries b) :: elementValues rest

end

/-- The table a list of statements defines, if it defines one. -/
def tableOf (statements : List Statement) : Option Entries :=
  (Draft.start.addAll statements).map fun d => branchEntries d.root

/-- The inline table a list of pairs defines, if it defines one. -/
def inlineTable (pairs : List ((List String × String) × Value)) : Option Value :=
  (tableOf (pairs.map fun p => .pair p.1.1 p.1.2 p.2)).map .table

end BuildVariants.Toml
