import BuildVariants.Proofs.Plan.Schema

/-!
# Which trees are plans

A tree is decoded just when it fits the schema of a plan, and writing the plan back gives the tree
itself, with what it leaves out spelled out (`Plan.decode_exact`).

Only variables may change, for they are sorted, and a date or a time among the options comes back as
the table it was taken for.
-/

namespace BuildVariants

open Toml (Value Entries)
open Toml.Value (Alike Proper)

namespace Plan

/-! ## Variants -/

/-- A table is a variant if it has no other keys, and if each of its fields is one. -/
theorem decodeVariant_table {es : Entries} {d : VariantDecl} :
    decodeVariant (.table es) = some d ↔
      (∀ e ∈ es, e.1 ∈ variantKeys) ∧
      optional decodeString es "name" = some d.name? ∧
      required decodeString es "toolchain" = some d.toolchain ∧
      required decodeString es "config" = some d.config ∧
      optional decodeArguments es "opts" = some d.options := by
  obtain ⟨name?, toolchain, config, options⟩ := d
  simp [decodeVariant, fields, Option.bind_eq_some_iff]

/-- The schema of a variant describes just the tables that are taken. -/
theorem isSome_decodeVariant_iff {es : Entries} (distinct : (es.map Prod.fst).Nodup) :
    (decodeVariant (.table es)).isSome ↔ Fits variantFields es := by
  rw [fits_iff distinct (by simp [variantFields]), Option.isSome_iff_exists]
  simp only [decodeVariant_table, variantFields, List.forall_mem_cons,
    holds_optional decodeString fun v _ => isText_iff v,
    holds_required decodeString fun v _ => isText_iff v,
    holds_optional decodeArguments fun v _ => isTextOrTexts_iff v]
  constructor
  · rintro ⟨d, known, name, toolchain, config, options⟩
    exact ⟨known, ⟨_, name⟩, ⟨_, toolchain⟩, ⟨_, config⟩, ⟨_, options⟩, nofun⟩
  · rintro ⟨known, ⟨name, hname⟩, ⟨toolchain, htoolchain⟩, ⟨config, hconfig⟩,
      ⟨options, hoptions⟩, -⟩
    exact ⟨⟨name, toolchain, config, options⟩, known, hname, htoolchain, hconfig, hoptions⟩

/-- A field that is not given is not found. -/
theorem lookup_optionalEntry {α : Type} (key : String) (f : α → Value) (o : Option α)
    (k : String) :
    (optionalEntry key f o).lookup k = if k = key then o.map f else none := by
  cases o with
  | none => simp [optionalEntry]
  | some x =>
    by_cases same : k = key
    · simp [optionalEntry, same]
    · simp [optionalEntry, List.lookup_cons, same, beq_false_of_ne same]

/-- A variant that was read is written as it was given. -/
theorem alike_variant {es : Entries} (proper : (Value.table es).Proper) {d : VariantDecl}
    (h : decodeVariant (.table es) = some d) : Alike (.table es) d.toValue := by
  obtain ⟨known, name, toolchain, config, options⟩ := decodeVariant_table.1 h
  rw [optional_eq_some_iff_of_exact fun _ _ => decodeString_eq_some_iff] at name
  rw [required_eq_some_iff_of_exact fun _ _ => decodeString_eq_some_iff] at toolchain config
  rw [optional_eq_some_iff_of_exact fun _ _ => decodeArguments_eq_some_iff] at options
  unfold VariantDecl.toValue
  refine .of_lookup_eq proper.nodup_keys ?_ known ?_ ?_
  · cases d.name? <;> cases d.options <;> simp [optionalEntry]
  · cases d.name? <;> cases d.options <;> simp [optionalEntry, variantKeys]
  · simp [variantKeys, List.lookup_append, lookup_optionalEntry, List.lookup_cons, name, toolchain,
      config, options]

/-! ## Run targets -/

/-- A run target as it is written: without arguments it has an empty list of them. -/
def spelledTarget : Value → Value
  | .table es => .table (Entries.completed es "args" (.array []))
  | v => v

/-- A table is a target if it has no other keys, and if each of its fields is one; arguments that
are not given are the empty list. -/
theorem decodeTarget_table {es : Entries} {d : TargetDecl} :
    decodeTarget (.table es) = some d ↔
      (∀ e ∈ es, e.1 ∈ targetKeys) ∧
      optional decodeString es "build" = some d.build? ∧
      optional decodePath es "run" = some d.run? ∧
      ∃ args?, optional decodeArguments es "args" = some args? ∧
        optional decodePath es "cwd" = some d.cwd? ∧ args?.getD (.list []) = d.args := by
  obtain ⟨build?, run?, args, cwd?⟩ := d
  simp [decodeTarget, fields, Option.bind_eq_some_iff]

theorem isSome_decodeTarget_iff {es : Entries} (distinct : (es.map Prod.fst).Nodup) :
    (decodeTarget (.table es)).isSome ↔ Fits targetFields es := by
  have text (key : String) : (Field.mk key IsText false).Holds es ↔
      ∃ o, optional decodeString es key = some o :=
    holds_optional decodeString fun v _ => isText_iff v
  have path (key : String) : (Field.mk key IsText false).Holds es ↔
      ∃ o, optional decodePath es key = some o :=
    holds_optional decodePath fun v _ => isText_iff_path v
  have args : (Field.mk "args" IsTextOrTexts false).Holds es ↔
      ∃ o, optional decodeArguments es "args" = some o :=
    holds_optional decodeArguments fun v _ => isTextOrTexts_iff v
  rw [fits_iff distinct (by simp [targetFields]), Option.isSome_iff_exists]
  simp only [decodeTarget_table, targetFields, List.forall_mem_cons, text "build", path "run", args,
    path "cwd"]
  constructor
  · rintro ⟨d, known, build, run, args?, args, cwd, -⟩
    exact ⟨known, ⟨_, build⟩, ⟨_, run⟩, ⟨_, args⟩, ⟨_, cwd⟩, nofun⟩
  · rintro ⟨known, ⟨build, hbuild⟩, ⟨run, hrun⟩, ⟨args?, hargs⟩, ⟨cwd, hcwd⟩, -⟩
    exact ⟨⟨build, run, args?.getD (.list []), cwd⟩, known, hbuild, hrun, args?, hargs, hcwd, rfl⟩

/-- A run target that was read is written as it was given, and with its arguments. -/
theorem alike_target {es : Entries} (proper : (Value.table es).Proper) {d : TargetDecl}
    (h : decodeTarget (.table es) = some d) : Alike (spelledTarget (.table es)) d.toValue := by
  obtain ⟨known, build, run, args?, args, cwd, is⟩ := decodeTarget_table.1 h
  rw [optional_eq_some_iff_of_exact fun _ _ => decodeString_eq_some_iff] at build
  rw [optional_eq_some_iff_of_exact fun _ _ => decodePath_eq_some_iff] at run cwd
  rw [optional_eq_some_iff_of_exact fun _ _ => decodeArguments_eq_some_iff] at args
  have distinct := proper.nodup_keys
  have written : (es.lookup "args").getD (.array []) = d.args.toValue := by
    rw [args, ← is]
    cases args? <;> rfl
  unfold spelledTarget TargetDecl.toValue
  refine .of_lookup_eq (Toml.nodup_keys_completed distinct _ _) ?_
    (Toml.mem_keys_completed known (by simp [targetKeys])) ?_ ?_
  · cases d.build? <;> cases d.run? <;> cases d.cwd? <;> simp [optionalEntry]
  · cases d.build? <;> cases d.run? <;> cases d.cwd? <;> simp [optionalEntry, targetKeys]
  · simp [targetKeys, Toml.lookup_completed distinct, List.lookup_append, lookup_optionalEntry,
      List.lookup_cons, build, run, written, cwd]

/-! ## Options -/

/-- Variables as they are written: a date or a time is spelled out as a table. -/
def spelledVariables : Value → Value
  | .moment m => .table [(momentKey, .string m.text)]
  | v => v

/-- Options as they are written. -/
def spelledOptions : Value → Value
  | .table es => .table (Entries.changed es "env" spelledVariables)
  | v => v

/-- Texts that were read under their names are the entries of the table. -/
theorem mapM_decodeVariable_eq_some_iff {es : Entries} {vars : List (String × String)} :
    (es.mapM fun e => (decodeString e.2).map fun s => (e.1, s)) = some vars ↔
      es = vars.map fun x => (x.1, .string x.2) := by
  refine mapM_eq_some_iff_of_exact fun e x => ?_
  obtain ⟨key, v⟩ := e
  rw [Option.map_eq_some_iff]
  constructor
  · rintro ⟨s, hs, rfl⟩
    have is : v = .string s := decodeString_eq_some_iff.1 hs
    rw [is]
  · rintro ⟨⟩
    exact ⟨x.2, rfl, rfl⟩

/-- Variables are a table of texts, or else a date: its value is a table with a text, too. -/
theorem isVariables_iff (v : Value) : IsVariables v ↔ (decodeVariables v).isSome := by
  unfold IsVariables IsTextTable IsMoment
  cases v with
  | table es => simp [decodeVariables, isSome_mapM_iff, isText_iff]
  | moment m => simp [decodeVariables]
  | _ => simp [decodeVariables]

/-- Variables that were read are sorted, and none is lost. -/
theorem alike_variables {v : Value} (proper : v.Proper) {vars : Variables}
    (h : decodeVariables v = some vars) : Alike (spelledVariables v) vars.toValue := by
  unfold decodeVariables at h
  split at h
  · next es =>
    obtain ⟨read, all, rfl⟩ := Option.map_eq_some_iff.1 h
    have given := mapM_decodeVariable_eq_some_iff.1 all
    have distinct := proper.nodup_keys
    have names : (read.map Prod.fst).Nodup := by
      rw [given, List.map_map] at distinct
      exact distinct
    show Alike (.table es) (.table _)
    -- Sorting the variables is a permutation, because no name is there twice.
    refine .of_perm distinct ?_
    rw [given]
    exact (Variables.perm_entries_ofList names).symm.map _
  · cases h
    exact .refl _
  · cases h

/-- A table is an options table if it has no other keys, and if each of its fields is one. -/
theorem decodeOptions_table {es : Entries} {o : PlanOptions} :
    decodeOptions (.table es) = some o ↔
      (∀ e ∈ es, e.1 ∈ optionKeys) ∧
      optional decodePath es "src_dir" = some o.sourceDir? ∧
      optional decodePath es "build_root" = some o.buildRoot? ∧
      optional decodeVariables es "env" = some o.env? := by
  obtain ⟨sourceDir?, buildRoot?, env?⟩ := o
  simp [decodeOptions, fields, Option.bind_eq_some_iff]

theorem isSome_decodeOptions_iff {es : Entries} (distinct : (es.map Prod.fst).Nodup) :
    (decodeOptions (.table es)).isSome ↔ Fits (optionFields IsVariables) es := by
  rw [fits_iff distinct (by simp [optionFields]), Option.isSome_iff_exists]
  simp only [decodeOptions_table, optionFields, List.forall_mem_cons,
    holds_optional decodePath fun v _ => isText_iff_path v,
    holds_optional decodeVariables fun v _ => isVariables_iff v]
  constructor
  · rintro ⟨o, known, sourceDir, buildRoot, env⟩
    exact ⟨known, ⟨_, sourceDir⟩, ⟨_, buildRoot⟩, ⟨_, env⟩, nofun⟩
  · rintro ⟨known, ⟨sourceDir, hsource⟩, ⟨buildRoot, hroot⟩, ⟨env, henv⟩, -⟩
    exact ⟨⟨sourceDir, buildRoot, env⟩, known, hsource, hroot, henv⟩

/-- Options that were read are written as they were given, but for a date or a time. -/
theorem alike_options {es : Entries} (proper : (Value.table es).Proper) {o : PlanOptions}
    (h : decodeOptions (.table es) = some o) : Alike (spelledOptions (.table es)) o.toValue := by
  obtain ⟨known, sourceDir, buildRoot, env⟩ := decodeOptions_table.1 h
  rw [optional_eq_some_iff_of_exact fun _ _ => decodePath_eq_some_iff] at sourceDir buildRoot
  rw [optional_eq_some_iff] at env
  have distinct := proper.nodup_keys
  have written : Option.Rel Alike ((es.lookup "env").map spelledVariables)
      (o.env?.map Variables.toValue) := by
    generalize found : es.lookup "env" = given at env
    generalize o.env? = env? at env
    cases env with
    | none => exact .none
    | some read =>
      exact .some (alike_variables (proper.of_mem_table (Toml.mem_of_lookup found)) read)
  unfold spelledOptions PlanOptions.toValue
  refine .of_lookup ?_ ?_ (Toml.mem_keys_changed _ _ known) ?_ ?_
  · rw [Toml.keys_changed]
    exact distinct
  · cases o.sourceDir? <;> cases o.buildRoot? <;> cases o.env? <;> simp [optionalEntry]
  · cases o.sourceDir? <;> cases o.buildRoot? <;> cases o.env? <;> simp [optionalEntry, optionKeys]
  · simp [optionKeys, Toml.lookup_changed, List.lookup_append, lookup_optionalEntry, sourceDir,
      buildRoot, written, Alike.option_refl]

/-! ## Plans -/

/-- A table. -/
def IsTable (v : Value) : Prop := ∃ es, v = .table es

/-- Where a plan has tables with known keys, the tree has tables. -/
structure Tabular (doc : Entries) : Prop where
  /-- The options are a table. -/
  options : ∀ v, ("options", v) ∈ doc → IsTable v
  /-- The elements of an array of variants are tables. -/
  variants : ∀ items, ("variant", .array items) ∈ doc → ∀ x ∈ items, IsTable x
  /-- The entries of a table of run targets are tables. -/
  targets : ∀ es, ("target", .table es) ∈ doc → ∀ e ∈ es, IsTable e.2

/-- Run targets as they are written. -/
def spelledTargets : Value → Value
  | .table es => .table (es.map fun e => (e.1, spelledTarget e.2))
  | v => v

/-- A plan as it is written: it has all three tables, and its parts are as they are written. -/
def spelledOut (doc : Entries) : Entries :=
  let parts :=
    Entries.changed (Entries.changed doc "options" spelledOptions) "target" spelledTargets
  Entries.completed (Entries.completed (Entries.completed parts "options" (.table []))
    "variant" (.array [])) "target" (.table [])

/-- The names of the run targets in order. -/
def targetNames (doc : Entries) : List String :=
  match doc.lookup "target" with
  | some (.table es) => es.map Prod.fst
  | _ => []

theorem isTableOf_options_iff {v : Value} (proper : v.Proper) (table : IsTable v) :
    IsTableOf (optionFields IsVariables) v ↔ (decodeOptions v).isSome := by
  obtain ⟨es, rfl⟩ := table
  rw [isSome_decodeOptions_iff proper.nodup_keys, isTableOf_table]

theorem areVariants_iff {v : Value} (proper : v.Proper)
    (tables : ∀ items, v = .array items → ∀ x ∈ items, IsTable x) :
    (∃ items, v = .array items ∧ ∀ x ∈ items, IsTableOf variantFields x) ↔
      (decodeArray decodeVariant v).isSome := by
  cases v with
  | array items =>
    rw [decodeArray, isSome_mapM_iff]
    have each : ∀ x ∈ items, (IsTableOf variantFields x ↔ (decodeVariant x).isSome) := by
      intro x hx
      obtain ⟨es, rfl⟩ := tables items rfl x hx
      rw [isSome_decodeVariant_iff (proper.of_mem_array hx).nodup_keys, isTableOf_table]
    constructor
    · rintro ⟨_, ⟨⟩, fit⟩ x hx
      exact (each x hx).1 (fit x hx)
    · intro some
      exact ⟨items, rfl, fun x hx => (each x hx).2 (some x hx)⟩
  | _ => simp [decodeArray]

theorem areTargets_iff {v : Value} (proper : v.Proper)
    (tables : ∀ es, v = .table es → ∀ e ∈ es, IsTable e.2) :
    (∃ es, v = .table es ∧ ∀ e ∈ es, IsTableOf targetFields e.2) ↔
      (decodeKeyed decodeTarget v).isSome := by
  cases v with
  | table es =>
    rw [decodeKeyed, Option.isSome_map, isSome_mapM_iff]
    have each : ∀ e ∈ es, (IsTableOf targetFields e.2 ↔
        ((decodeTarget e.2).map fun x => (e.1, x)).isSome) := by
      intro e he
      obtain ⟨entries, is⟩ := tables es rfl e he
      have inner : (Value.table entries).Proper := is ▸ proper.of_mem_table he
      rw [Option.isSome_map, is, isSome_decodeTarget_iff inner.nodup_keys, isTableOf_table]
    constructor
    · rintro ⟨_, ⟨⟩, fit⟩ e he
      exact (each e he).1 (fit e he)
    · intro some
      exact ⟨es, rfl, fun e he => (each e he).2 (some e he)⟩
  | _ => simp [decodeKeyed]

/-- Variants that were read are written as they were given, in their order. -/
theorem alike_variants {v : Value} (proper : v.Proper)
    (tables : ∀ items, v = .array items → ∀ x ∈ items, IsTable x) {ds : List VariantDecl}
    (h : decodeArray decodeVariant v = some ds) :
    Alike v (.array (ds.map VariantDecl.toValue)) := by
  unfold decodeArray at h
  split at h
  · next items =>
    have each : ∀ x ∈ items, x.Proper ∧ IsTable x :=
      fun x hx => ⟨proper.of_mem_array hx, tables items rfl x hx⟩
    have read := (List.forall₂_and_left _ _).2 ⟨each, mapM_eq_some_iff.1 h⟩
    refine .array ?_
    rw [List.forall₂_map_right_iff]
    refine read.imp ?_
    rintro x d ⟨⟨inner, es, rfl⟩, decoded⟩
    exact alike_variant inner decoded
  · cases h

/-- Run targets that were read keep their names, in their order. -/
theorem forall₂_of_decodeKeyed {es : Entries} {targets : Keyed TargetDecl}
    (distinct : (es.map Prod.fst).Nodup)
    (h : decodeKeyed decodeTarget (.table es) = some targets) :
    List.Forall₂ (fun e d => e.1 = d.1 ∧ decodeTarget e.2 = some d.2) es targets.entries := by
  obtain ⟨read, all, rfl⟩ := Option.map_eq_some_iff.1 h
  have each : List.Forall₂ (fun e d => e.1 = d.1 ∧ decodeTarget e.2 = some d.2) es read := by
    refine (mapM_eq_some_iff.1 all).imp ?_
    intro e d hd
    obtain ⟨x, hx, rfl⟩ := Option.map_eq_some_iff.1 hd
    exact ⟨rfl, hx⟩
  rw [Keyed.entries_ofList (Toml.keys_eq_of_forall₂ each ▸ distinct)]
  exact each

/-- Run targets that were read are written as they were given, and with their arguments. -/
theorem alike_targets {v : Value} (proper : v.Proper)
    (tables : ∀ es, v = .table es → ∀ e ∈ es, IsTable e.2) {targets : Keyed TargetDecl}
    (h : decodeKeyed decodeTarget v = some targets) :
    Alike (spelledTargets v) (.table (targets.entries.map fun e => (e.1, e.2.toValue))) := by
  cases v with
  | table es =>
    have distinct := proper.nodup_keys
    have each : ∀ e ∈ es, e.2.Proper ∧ IsTable e.2 :=
      fun e he => ⟨proper.of_mem_table he, tables es rfl e he⟩
    unfold spelledTargets
    refine .of_forall₂ ?_ ?_
    · rw [List.map_map]
      exact distinct
    · have read := (List.forall₂_and_left _ _).2 ⟨each, forall₂_of_decodeKeyed distinct h⟩
      rw [List.forall₂_map_left_iff, List.forall₂_map_right_iff]
      refine read.imp ?_
      rintro e d ⟨⟨inner, entries, is⟩, name, decoded⟩
      refine ⟨name, ?_⟩
      rw [is] at inner decoded ⊢
      exact alike_target inner decoded
  | _ => simp [decodeKeyed] at h

/-- A document is a plan if it has no other keys, and if each of its three parts is one; a part that
is missing is empty. -/
theorem decode_eq_some_iff {doc : Entries} {p : Plan} :
    decode doc = some p ↔
      (∀ e ∈ doc, e.1 ∈ planKeys) ∧
      ∃ options? variants? targets?,
        optional decodeOptions doc "options" = some options? ∧
        optional (decodeArray decodeVariant) doc "variant" = some variants? ∧
        optional (decodeKeyed decodeTarget) doc "target" = some targets? ∧
        (⟨options?.getD ⟨none, none, none⟩, variants?.getD [], targets?.getD .empty⟩ : Plan)
          = p := by
  simp [decode, fields, Option.bind_eq_some_iff]

/-- The schema of a plan describes just the documents that are taken. -/
theorem isSome_decode_iff {doc : Entries} (proper : (Value.table doc).Proper)
    (tabular : Tabular doc) : (decode doc).isSome ↔ Fits (planFields IsVariables) doc := by
  have options := holds_optional decodeOptions fun v found =>
    isTableOf_options_iff (proper.of_mem_table (Toml.mem_of_lookup found))
      (tabular.options v (Toml.mem_of_lookup found))
  have variants := holds_optional (decodeArray decodeVariant) fun v found =>
    areVariants_iff (proper.of_mem_table (Toml.mem_of_lookup found)) fun items is =>
      tabular.variants items (is ▸ Toml.mem_of_lookup found)
  have targets := holds_optional (decodeKeyed decodeTarget) fun v found =>
    areTargets_iff (proper.of_mem_table (Toml.mem_of_lookup found)) fun es is =>
      tabular.targets es (is ▸ Toml.mem_of_lookup found)
  rw [fits_iff proper.nodup_keys (by simp [planFields]), Option.isSome_iff_exists]
  simp only [decode_eq_some_iff, planFields, List.forall_mem_cons, options, variants, targets]
  constructor
  · rintro ⟨p, known, options?, variants?, targets?, options, variants, targets, -⟩
    exact ⟨known, ⟨_, options⟩, ⟨_, variants⟩, ⟨_, targets⟩, nofun⟩
  · rintro ⟨known, ⟨options?, options⟩, ⟨variants?, variants⟩, ⟨targets?, targets⟩, -⟩
    exact ⟨_, known, options?, variants?, targets?, options, variants, targets, rfl⟩

/-- What may be left out is written as it was given, or as the value that stands for nothing. -/
theorem alike_getD {α : Type} (write : α → Value) (blank : α) {item : Value → Option α}
    {given : Option Value} {o : Option α}
    (read : Option.Rel (fun v x => item v = some x) given o) {spell : Value → Value}
    {empty : Value} (base : write blank = empty)
    (alike : ∀ v x, given = some v → item v = some x → Alike (spell v) (write x)) :
    Alike ((given.map spell).getD empty) (write (o.getD blank)) := by
  cases read with
  | none =>
    rw [← base]
    exact .refl _
  | some is => exact alike _ _ rfl is

theorem nodup_keys_spelledOut {doc : Entries} (distinct : (doc.map Prod.fst).Nodup) :
    ((spelledOut doc).map Prod.fst).Nodup := by
  unfold spelledOut
  iterate 3 apply Toml.nodup_keys_completed
  rw [Toml.keys_changed, Toml.keys_changed]
  exact distinct

theorem mem_planKeys_of_mem_spelledOut {doc : Entries} (known : ∀ e ∈ doc, e.1 ∈ planKeys) :
    ∀ e ∈ spelledOut doc, e.1 ∈ planKeys := by
  unfold spelledOut
  have parts := Toml.mem_keys_changed "target" spelledTargets
    (Toml.mem_keys_changed "options" spelledOptions known)
  refine Toml.mem_keys_completed (Toml.mem_keys_completed (Toml.mem_keys_completed parts ?_) ?_) ?_
  all_goals simp [planKeys]

theorem lookup_spelledOut {doc : Entries} (distinct : (doc.map Prod.fst).Nodup) :
    (spelledOut doc).lookup "options"
      = some (((doc.lookup "options").map spelledOptions).getD (.table [])) ∧
    (spelledOut doc).lookup "variant" = some (((doc.lookup "variant").map id).getD (.array [])) ∧
    (spelledOut doc).lookup "target"
      = some (((doc.lookup "target").map spelledTargets).getD (.table [])) := by
  have parts : ((Entries.changed (Entries.changed doc "options" spelledOptions) "target"
      spelledTargets).map Prod.fst).Nodup := by
    rw [Toml.keys_changed, Toml.keys_changed]
    exact distinct
  have withOptions := Toml.nodup_keys_completed parts "options" (.table [])
  have withVariants := Toml.nodup_keys_completed withOptions "variant" (.array [])
  simp [spelledOut, Toml.lookup_completed withVariants, Toml.lookup_completed withOptions,
    Toml.lookup_completed parts, Toml.lookup_changed]

/-- A plan that was read is written as it was given, and with its three tables. -/
theorem alike_spelledOut {doc : Entries} (proper : (Value.table doc).Proper)
    (tabular : Tabular doc) {p : Plan} (h : decode doc = some p) :
    Alike (.table (spelledOut doc)) (.table p.toEntries) := by
  obtain ⟨known, options?, variants?, targets?, options, variants, targets, rfl⟩ :=
    decode_eq_some_iff.1 h
  rw [optional_eq_some_iff] at options variants targets
  obtain ⟨givenOptions, givenVariants, givenTargets⟩ := lookup_spelledOut proper.nodup_keys
  -- Both have the same three keys, so their values are compared one by one.
  refine .of_lookup (nodup_keys_spelledOut proper.nodup_keys) (by simp [toEntries])
    (mem_planKeys_of_mem_spelledOut known) (by simp [toEntries, planKeys]) ?_
  simp only [planKeys, List.forall_mem_cons, givenOptions, givenVariants, givenTargets, toEntries]
  refine ⟨.some ?_, .some ?_, .some ?_, List.forall_mem_nil _⟩
  · refine alike_getD PlanOptions.toValue ⟨none, none, none⟩ options rfl ?_
    intro v o found read
    have mem := Toml.mem_of_lookup found
    obtain ⟨es, rfl⟩ := tabular.options v mem
    exact alike_options (proper.of_mem_table mem) read
  · refine alike_getD (fun ds => .array (ds.map VariantDecl.toValue)) [] variants rfl ?_
    intro v ds found read
    have mem := Toml.mem_of_lookup found
    exact alike_variants (proper.of_mem_table mem)
      (fun items is => tabular.variants items (is ▸ mem)) read
  · refine alike_getD (fun ts : Keyed TargetDecl =>
      .table (ts.entries.map fun e => (e.1, e.2.toValue))) .empty targets rfl ?_
    intro v ts found read
    have mem := Toml.mem_of_lookup found
    exact alike_targets (proper.of_mem_table mem) (fun es is => tabular.targets es (is ▸ mem)) read

/-- The names of the targets are the keys of the document, in the same order. -/
theorem keys_targets_of_decode {doc : Entries} (proper : (Value.table doc).Proper) {p : Plan}
    (h : decode doc = some p) : p.targets.keys = targetNames doc := by
  obtain ⟨-, -, -, targets?, -, -, targets, rfl⟩ := decode_eq_some_iff.1 h
  rw [optional_eq_some_iff] at targets
  unfold targetNames
  generalize found : doc.lookup "target" = given at targets
  cases targets with
  | none => rfl
  | @some v ts read =>
    cases v with
    | table es =>
      have distinct := (proper.of_mem_table (Toml.mem_of_lookup found)).nodup_keys
      exact (Toml.keys_eq_of_forall₂ (forall₂_of_decodeKeyed distinct read)).symm
    | _ => simp [decodeKeyed] at read

/-- **Decoding is exact and drops nothing.**  A tree whose tables are written as tables is decoded
just when it fits the schema of a plan.  The plan says the same as the tree: written as a tree
again, it has the value of every key, with all arrays in their order and the run targets under their
names in their order; it has no other keys than those of the three tables of a plan and the
arguments of a run target, with nothing in them. -/
theorem decode_exact {doc : Entries} (proper : (Value.table doc).Proper)
    (tabular : Tabular doc) :
    ((decode doc).isSome ↔ Fits (planFields IsVariables) doc) ∧
    ∀ p, decode doc = some p →
      Alike (.table (spelledOut doc)) (.table p.toEntries) ∧ p.targets.keys = targetNames doc := by
  refine ⟨isSome_decode_iff proper tabular, ?_⟩
  intro p h
  exact ⟨alike_spelledOut proper tabular h, keys_targets_of_decode proper h⟩

end Plan

/-! ## A plan that leaves out what it can -/

namespace SpareDocument

/-- Options with unsorted variables, one variant, and run targets without arguments. -/
def doc : Entries :=
  [("target", .table [("tool", .table [("run", .string "./t")]), ("all", .table [])]),
    ("options", .table [("env", .table [("CXX", .string "clang++"), ("CC", .string "clang")])]),
    ("variant", .array [.table [("config", .string "Debug"), ("toolchain", .string "clang")]])]

end SpareDocument

open SpareDocument in
/-- The theorem for that document: the plan says the same, with its run targets in their order. -/
theorem spare_document_decoded :
    (Value.table doc).Proper ∧ Plan.Tabular doc ∧ Fits (planFields IsVariables) doc ∧
    ∃ p, Plan.decode doc = some p ∧ Alike (.table (Plan.spelledOut doc)) (.table p.toEntries) ∧
      p.targets.keys = ["tool", "all"] := by
  have proper : (Value.table doc).Proper := by
    simp [doc, Proper.table_iff, Proper.array_iff, Proper.string]
  have tabular : Plan.Tabular doc := by
    constructor <;> simp [doc, Plan.IsTable]
    rintro - v (⟨-, rfl⟩ | ⟨-, rfl⟩) <;> exact ⟨_, rfl⟩
  obtain ⟨exact, same⟩ := Plan.decode_exact proper tabular
  have some : (Plan.decode doc).isSome := rfl
  obtain ⟨p, read⟩ := Option.isSome_iff_exists.1 some
  obtain ⟨alike, names⟩ := same p read
  exact ⟨proper, tabular, exact.1 some, p, read, alike, names⟩

namespace DatedEnvironment

/-- A date where the environment is expected. -/
def doc : Entries :=
  [("options", .table [("env", .moment (.date ⟨1979, 5, 27⟩))]),
    ("variant", .array [.table [("toolchain", .string "clang"), ("config", .string "Debug")]])]

end DatedEnvironment

open DatedEnvironment in
/-- **A date is taken for variables.**  The tree is decoded although its environment is not a table
of texts. -/
theorem dated_environment_decoded :
    (Value.table doc).Proper ∧ Plan.Tabular doc ∧
    ¬ ((Plan.decode doc).isSome ↔ Fits (planFields IsTextTable) doc) := by
  have proper : (Value.table doc).Proper := by
    simp [doc, Proper.table_iff, Proper.array_iff, Proper.string, Proper.moment]
  have tabular : Plan.Tabular doc := by
    constructor <;> simp [doc, Plan.IsTable]
  refine ⟨proper, tabular, ?_⟩
  intro exact
  have read : (Plan.decode doc).isSome := rfl
  have plan := ((fits_iff proper.nodup_keys (by simp [planFields])).1 (exact.1 read)).2
  have options := isTableOf_table.1 ((plan _ List.mem_cons_self).1 _ rfl)
  have option := ((fits_iff (by simp) (by simp [optionFields])).1 options).2
  have env : IsTextTable (.moment (.date ⟨1979, 5, 27⟩)) :=
    (option ⟨"env", IsTextTable, false⟩ (by simp [optionFields])).1 _ rfl
  obtain ⟨es, ⟨⟩, -⟩ := env

end BuildVariants
