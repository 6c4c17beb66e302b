import BuildVariants.Plan
import BuildVariants.Toml.Document
import BuildVariants.Toml.Value

/-!
# Writing a plan

A plan as a TOML tree (`toEntries`) and as the text of a document (`text`).  What a plan leaves
out is not written.  The tree always has all three tables of a plan; the document has a header
for the options unless they consist of nothing but an environment, which has a header of its own.
-/

namespace BuildVariants

open Toml (Value Entries Section Datum)

/-! ## The tree -/

/-- Arguments as a value. -/
def ArgumentText.toValue : ArgumentText → Value
  | line text => .string text
  | list items => .array (items.map .string)

/-- Variables as a value. -/
def Variables.toValue (vars : Variables) : Value :=
  .table (vars.entries.map fun e => (e.1, .string e.2))

/-- An entry that is there if its value is. -/
def optionalEntry {α β : Type} (key : String) (f : α → β) : Option α → List (String × β)
  | none => []
  | some x => [(key, f x)]

/-- The options of a plan as a value. -/
def PlanOptions.toValue (o : PlanOptions) : Value :=
  .table <| optionalEntry "src_dir" (fun p : Path => .string p.text) o.sourceDir?
    ++ optionalEntry "build_root" (fun p : Path => .string p.text) o.buildRoot?
    ++ optionalEntry "env" Variables.toValue o.env?

/-- A variant as a value. -/
def VariantDecl.toValue (d : VariantDecl) : Value :=
  .table <| optionalEntry "name" .string d.name?
    ++ [("toolchain", .string d.toolchain), ("config", .string d.config)]
    ++ optionalEntry "opts" ArgumentText.toValue d.options

/-- A run target as a value. -/
def TargetDecl.toValue (d : TargetDecl) : Value :=
  .table <| optionalEntry "build" .string d.build?
    ++ optionalEntry "run" (fun p : Path => .string p.text) d.run?
    ++ [("args", d.args.toValue)]
    ++ optionalEntry "cwd" (fun p : Path => .string p.text) d.cwd?

/-- A plan as a table. -/
def Plan.toEntries (p : Plan) : Entries :=
  [("options", p.options.toValue),
   ("variant", .array (p.variants.map VariantDecl.toValue)),
   ("target", .table (p.targets.entries.map fun e => (e.1, e.2.toValue)))]

/-! ## The document -/

/-- Arguments as they are written. -/
def ArgumentText.datum : ArgumentText → Datum
  | line text => .string text
  | list items => .strings items

/-- A path as it is written. -/
def Path.datum (p : Path) : Datum :=
  .string p.text

/-- The options other than the environment. -/
def PlanOptions.pairs (o : PlanOptions) : List (String × Datum) :=
  optionalEntry "src_dir" Path.datum o.sourceDir?
    ++ optionalEntry "build_root" Path.datum o.buildRoot?

/-- The sections of the options. -/
def PlanOptions.sections (o : PlanOptions) : List Section :=
  (if o.pairs = [] ∧ o.env?.isSome then [] else [⟨.table ["options"], o.pairs⟩])
    ++ match o.env? with
      | none => []
      | some env =>
        [⟨.table ["options", "env"], env.entries.map fun e => (e.1, .string e.2)⟩]

/-- The section of a variant. -/
def VariantDecl.toSection (d : VariantDecl) : Section :=
  ⟨.element ["variant"],
   optionalEntry "name" .string d.name?
    ++ [("toolchain", .string d.toolchain), ("config", .string d.config)]
    ++ optionalEntry "opts" ArgumentText.datum d.options⟩

/-- The section of a run target. -/
def TargetDecl.toSection (d : TargetDecl) (name : String) : Section :=
  ⟨.table ["target", name],
   optionalEntry "build" .string d.build?
    ++ optionalEntry "run" Path.datum d.run?
    ++ [("args", d.args.datum)]
    ++ optionalEntry "cwd" Path.datum d.cwd?⟩

namespace Plan

/-- The section in front of all headers: a plan without variants says so. -/
def topSections (p : Plan) : List Section :=
  if p.variants = [] then [⟨.top, [("variant", .strings [])]⟩] else []

/-- The sections of the run targets; without any, the table is there all the same. -/
def targetSections (p : Plan) : List Section :=
  if p.targets.entries = [] then [⟨.table ["target"], []⟩]
  else p.targets.entries.map fun e => e.2.toSection e.1

/-- The sections of a plan. -/
def sections (p : Plan) : List Section :=
  p.topSections ++ p.options.sections ++ p.variants.map VariantDecl.toSection ++ p.targetSections

/-- The text of a plan. -/
def text (p : Plan) : String :=
  Toml.documentText p.sections

end Plan

end BuildVariants
