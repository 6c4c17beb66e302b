import BuildVariants.Plan
import BuildVariants.Toml.Reader

/-!
# Reading a plan

A plan file is a TOML document whose table has the shape of a plan.  Reading is strict: a key that
a table does not know, a value of the wrong kind and a missing toolchain or configuration are all
refused, so that nothing in a file is silently left out.  There is one freedom: variables may be
given as a date or a time, which is taken for a table with one entry that holds its text.

Wherever a table with fixed keys is expected, its values may also be given as an array in the
order of the keys; what is missing at the end counts as left out, and what is too much is not
looked at.
-/

namespace BuildVariants

open Toml (Value Entries)

namespace Plan

/-! ## Kinds of values -/

/-- A text. -/
def decodeString : Value → Option String
  | .string s => some s
  | _ => none

/-- A path. -/
def decodePath (v : Value) : Option Path :=
  (decodeString v).map Path.mk

/-- Arguments: a text or an array of texts. -/
def decodeArguments : Value → Option ArgumentText
  | .string s => some (.line s)
  | .array items => (items.mapM decodeString).map .list
  | _ => none

/-- The name of the one entry of a date or a time that stands where a table of texts may stand. -/
def momentKey : String := "$__toml_private_datetime"

/-- Variables: a table of texts.  A date or a time counts as a table with its text. -/
def decodeVariables : Value → Option Variables
  | .table entries =>
    (entries.mapM fun e => (decodeString e.2).map fun s => (e.1, s)).map Variables.ofList
  | .moment m => some (.ofList [(momentKey, m.text)])
  | _ => none

/-- An array with items of one kind. -/
def decodeArray {α : Type} (item : Value → Option α) : Value → Option (List α)
  | .array items => items.mapM item
  | _ => none

/-- A table whose keys are free, with values of one kind. -/
def decodeKeyed {α : Type} (item : Value → Option α) : Value → Option (Keyed α)
  | .table entries =>
    (entries.mapM fun e => (item e.2).map fun x => (e.1, x)).map Keyed.ofList
  | _ => none

/-! ## Tables with fixed keys -/

/-- The entries of a table that may have the given keys only; an array gives them in order. -/
def fields (keys : List String) : Value → Option Entries
  | .table entries => if entries.all fun e => keys.contains e.1 then some entries else none
  | .array items => some (keys.zip items)
  | _ => none

/-- A value that may be left out. -/
def optional {α : Type} (item : Value → Option α) (entries : Entries) (key : String) :
    Option (Option α) :=
  match entries.lookup key with
  | none => some none
  | some v => (item v).map some

/-- A value that has to be there. -/
def required {α : Type} (item : Value → Option α) (entries : Entries) (key : String) : Option α :=
  (entries.lookup key).bind item

/-- The keys of the options. -/
def optionKeys : List String := ["src_dir", "build_root", "env"]

/-- The keys of a variant. -/
def variantKeys : List String := ["name", "toolchain", "config", "opts"]

/-- The keys of a run target. -/
def targetKeys : List String := ["build", "run", "args", "cwd"]

/-- The keys of a plan. -/
def planKeys : List String := ["options", "variant", "target"]

/-- The options of a plan. -/
def decodeOptions (v : Value) : Option PlanOptions := do
  let es ← fields optionKeys v
  let sourceDir ← optional decodePath es "src_dir"
  let buildRoot ← optional decodePath es "build_root"
  let env ← optional decodeVariables es "env"
  return ⟨sourceDir, buildRoot, env⟩

/-- A variant. -/
def decodeVariant (v : Value) : Option VariantDecl := do
  let es ← fields variantKeys v
  let name ← optional decodeString es "name"
  let toolchain ← required decodeString es "toolchain"
  let config ← required decodeString es "config"
  let options ← optional decodeArguments es "opts"
  return ⟨name, toolchain, config, options⟩

/-- A run target. -/
def decodeTarget (v : Value) : Option TargetDecl := do
  let es ← fields targetKeys v
  let build ← optional decodeString es "build"
  let run ← optional decodePath es "run"
  let args ← optional decodeArguments es "args"
  let cwd ← optional decodePath es "cwd"
  return ⟨build, run, args.getD (.list []), cwd⟩

/-- A plan. -/
def decode (table : Entries) : Option Plan := do
  let es ← fields planKeys (.table table)
  let options ← optional decodeOptions es "options"
  let variants ← optional (decodeArray decodeVariant) es "variant"
  let targets ← optional (decodeKeyed decodeTarget) es "target"
  return ⟨options.getD ⟨none, none, none⟩, variants.getD [], targets.getD .empty⟩

/-- The plan that a text declares, valid or not. -/
def read? (text : String) : Option Plan :=
  (Toml.parse? text).bind decode

/-- The valid plan that a text declares; the path is that of the file it came from. -/
def parse (text : String) (path : Path) : Except Diagnostic Plan :=
  match read? text with
  | none => .error (.malformedPlan path)
  | some p =>
    match p.validate with
    | .error e => .error e
    | .ok () => .ok p

/-- A plan that was parsed is valid. -/
theorem validate_of_parse {text : String} {path : Path} {p : Plan}
    (h : parse text path = .ok p) : p.validate = .ok () := by
  unfold parse at h
  split at h
  · cases h
  · split at h
    · cases h
    · next valid =>
      cases h
      exact valid

end Plan

end BuildVariants
