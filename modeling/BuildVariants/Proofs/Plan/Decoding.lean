import BuildVariants.Plan.Decode
import BuildVariants.Plan.Render

/-!
# Written trees are decoded

Every part of a plan is decoded from the value it is written as.  Decoding looks entries up by
their keys, so for a whole plan only that matters which a table says under the three keys of a
plan, and not the order in which it says it (`Plan.decode_of_lookup`).
-/

namespace BuildVariants

open Toml (Value Entries)

/-- Items that are decoded one by one are decoded together. -/
theorem mapM_map_eq_some {α β : Type} (write : α → β) (read : β → Option α) (xs : List α)
    (h : ∀ x ∈ xs, read (write x) = some x) : (xs.map write).mapM read = some xs := by
  induction xs with
  | nil => rfl
  | cons x xs ih =>
    rw [List.map_cons, List.mapM_cons, h x List.mem_cons_self,
      ih fun y hy => h y (List.mem_cons_of_mem _ hy)]
    rfl

namespace Plan

/-- Both forms of arguments are told apart by their value. -/
theorem decodeArguments_toValue (a : ArgumentText) : decodeArguments a.toValue = some a := by
  match a with
  | .line text => rfl
  | .list items =>
    rw [ArgumentText.toValue, decodeArguments,
      mapM_map_eq_some Value.string decodeString items fun _ _ => rfl, Option.map_some]

/-- Variables are stored by name, in the order in which they are written. -/
theorem decodeVariables_toValue (vars : Variables) :
    decodeVariables vars.toValue = some vars := by
  rw [Variables.toValue, decodeVariables,
    mapM_map_eq_some (fun e : String × String => (e.1, Value.string e.2)) _ vars.entries
      fun _ _ => rfl, Option.map_some, Variables.ofList_entries]

/-- An option that is missing is not written, and is missing again. -/
theorem decodeOptions_toValue (o : PlanOptions) : decodeOptions o.toValue = some o := by
  obtain ⟨sourceDir?, buildRoot?, env?⟩ := o
  cases sourceDir? <;> cases buildRoot? <;> cases env? <;>
    simp [PlanOptions.toValue, optionalEntry, decodeOptions, fields, optionKeys, optional,
      List.lookup_cons, List.lookup_nil, decodePath, decodeString, decodeVariables_toValue]

/-- A variant comes back with its name, if it was given one. -/
theorem decodeVariant_toValue (d : VariantDecl) : decodeVariant d.toValue = some d := by
  obtain ⟨name?, toolchain, config, options⟩ := d
  cases name? <;> cases options <;>
    simp [VariantDecl.toValue, optionalEntry, decodeVariant, fields, variantKeys, optional,
      required, List.lookup_cons, List.lookup_nil, decodeString, decodeArguments_toValue]

theorem decodeTarget_toValue (d : TargetDecl) : decodeTarget d.toValue = some d := by
  obtain ⟨build?, run?, args, cwd?⟩ := d
  cases build? <;> cases run? <;> cases cwd? <;>
    simp [TargetDecl.toValue, optionalEntry, decodeTarget, fields, targetKeys, optional,
      List.lookup_cons, List.lookup_nil, decodePath, decodeString, decodeArguments_toValue]

/-- The variants come back in their order. -/
theorem decodeArray_toValue (ds : List VariantDecl) :
    decodeArray decodeVariant (.array (ds.map VariantDecl.toValue)) = some ds := by
  rw [decodeArray]
  exact mapM_map_eq_some _ _ _ fun d _ => decodeVariant_toValue d

theorem decodeKeyed_toValue (targets : Keyed TargetDecl) :
    decodeKeyed decodeTarget (.table (targets.entries.map fun e => (e.1, e.2.toValue)))
      = some targets := by
  rw [decodeKeyed,
    mapM_map_eq_some (fun e : String × TargetDecl => (e.1, e.2.toValue)) _ targets.entries
      fun e _ => by rw [decodeTarget_toValue, Option.map_some],
    Option.map_some, Keyed.ofList_entries]

/-- A table that says of a plan what is written of it is decoded as the plan. -/
theorem decode_of_lookup {p : Plan} {entries : Entries}
    (known : ∀ e ∈ entries, e.1 ∈ planKeys)
    (same : ∀ key ∈ planKeys, entries.lookup key = p.toEntries.lookup key) :
    decode entries = some p := by
  have all : fields planKeys (.table entries) = some entries := by
    rw [fields, if_pos (List.all_eq_true.2 fun e he => by simpa using known e he)]
  have options := same "options" (by decide)
  have variants := same "variant" (by decide)
  have targets := same "target" (by decide)
  simp only [toEntries, List.lookup_cons, List.lookup_nil] at options variants targets
  simp [decode, all, optional, options, variants, targets, decodeOptions_toValue,
    decodeArray_toValue, decodeKeyed_toValue]

end Plan

end BuildVariants
