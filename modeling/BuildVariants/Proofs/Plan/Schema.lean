import BuildVariants.Proofs.Plan.Decoding
import BuildVariants.Proofs.Plan.RoundTrip
import BuildVariants.Proofs.Toml.Likeness
import Mathlib.Data.List.Nodup

/-!
# Schemas

A schema says which keys a table may have, which values may stand under each of them, and which
keys have to be there (`Field`, `Fits`).  Here are the schemas of a plan and its parts, and what the
decoders of single values and of single entries have to do with them.

Texts, paths and arguments are read exactly: the value is the one that is written for what was read.
-/

namespace BuildVariants

open Toml (Value Entries)
open Toml.Value (Alike Proper)

/-! ## Schemas -/

/-- A text. -/
def IsText (v : Value) : Prop := ∃ s, v = .string s

/-- A text, or an array of texts. -/
def IsTextOrTexts (v : Value) : Prop :=
  IsText v ∨ ∃ items, v = .array items ∧ ∀ x ∈ items, IsText x

/-- A table of texts. -/
def IsTextTable (v : Value) : Prop :=
  ∃ entries, v = .table entries ∧ ∀ e ∈ entries, IsText e.2

/-- A date or a time. -/
def IsMoment (v : Value) : Prop := ∃ m, v = .moment m

/-- How variables may be given. -/
def IsVariables (v : Value) : Prop := IsTextTable v ∨ IsMoment v

/-- A key of a table, with the values that may stand under it. -/
structure Field where
  /-- The key. -/
  key : String
  /-- Which values may stand there. -/
  accepts : Value → Prop
  /-- Whether the key has to be there. -/
  needed : Bool

/-- A table has known keys only, each with a value that may stand there, and all that it needs. -/
structure Fits (fields : List Field) (entries : Entries) : Prop where
  /-- No entry is of an unknown key, and none holds a value of another kind. -/
  known : ∀ e ∈ entries, ∃ f ∈ fields, f.key = e.1 ∧ f.accepts e.2
  /-- What is needed is there. -/
  complete : ∀ f ∈ fields, f.needed = true → f.key ∈ entries.map Prod.fst

/-- A table that fits some fields. -/
def IsTableOf (fields : List Field) (v : Value) : Prop :=
  ∃ entries, v = .table entries ∧ Fits fields entries

theorem isTableOf_table {fields : List Field} {entries : Entries} :
    IsTableOf fields (.table entries) ↔ Fits fields entries :=
  ⟨fun ⟨_, is, fits⟩ => Value.table.inj is ▸ fits, fun fits => ⟨entries, rfl, fits⟩⟩

/-- The options, where the environment may be given in a certain way. -/
def optionFields (environment : Value → Prop) : List Field :=
  [⟨"src_dir", IsText, false⟩, ⟨"build_root", IsText, false⟩, ⟨"env", environment, false⟩]

/-- A variant. -/
def variantFields : List Field :=
  [⟨"name", IsText, false⟩, ⟨"toolchain", IsText, true⟩, ⟨"config", IsText, true⟩,
    ⟨"opts", IsTextOrTexts, false⟩]

/-- A run target. -/
def targetFields : List Field :=
  [⟨"build", IsText, false⟩, ⟨"run", IsText, false⟩, ⟨"args", IsTextOrTexts, false⟩,
    ⟨"cwd", IsText, false⟩]

/-- A plan, where the environment may be given in a certain way. -/
def planFields (environment : Value → Prop) : List Field :=
  [⟨"options", IsTableOf (optionFields environment), false⟩,
   ⟨"variant", fun v => ∃ items, v = .array items ∧ ∀ x ∈ items, IsTableOf variantFields x, false⟩,
   ⟨"target", fun v => ∃ entries, v = .table entries ∧
     ∀ e ∈ entries, IsTableOf targetFields e.2, false⟩]

/-- What a table says of one field. -/
def Field.Holds (f : Field) (entries : Entries) : Prop :=
  (∀ v, entries.lookup f.key = some v → f.accepts v) ∧
    (f.needed = true → ∃ v, entries.lookup f.key = some v)

/-- In a proper table a field can be looked up. -/
theorem fits_iff {fields : List Field} {entries : Entries}
    (distinct : (entries.map Prod.fst).Nodup) (keys : (fields.map Field.key).Nodup) :
    Fits fields entries ↔
      (∀ e ∈ entries, e.1 ∈ fields.map Field.key) ∧ ∀ f ∈ fields, f.Holds entries := by
  constructor
  · intro h
    refine ⟨?_, ?_⟩
    · intro e he
      obtain ⟨f, hf, is, -⟩ := h.known e he
      rw [← is]
      exact List.mem_map_of_mem hf
    · intro f hf
      refine ⟨?_, ?_⟩
      · intro v found
        -- The schema knows the key as that of some field, and no two fields have the same key.
        obtain ⟨g, hg, same, accepts⟩ := h.known _ (Toml.mem_of_lookup found)
        rw [List.inj_on_of_nodup_map keys hg hf same] at accepts
        exact accepts
      · intro needed
        exact (Toml.mem_keys_iff_exists_lookup distinct).1 (h.complete f hf needed)
  · rintro ⟨known, holds⟩
    constructor
    · intro e he
      obtain ⟨f, hf, is⟩ := List.mem_map.1 (known e he)
      refine ⟨f, hf, is, (holds f hf).1 e.2 ?_⟩
      rw [is]
      exact Keyed.lookup_of_mem distinct he
    · intro f hf needed
      exact (Toml.mem_keys_iff_exists_lookup distinct).2 ((holds f hf).2 needed)

/-! ## Items one by one -/

/-- A list is decoded if it has an item for each of its values, in the same order. -/
theorem mapM_eq_some_iff {α β : Type} {f : α → Option β} {xs : List α} {ys : List β} :
    xs.mapM f = some ys ↔ List.Forall₂ (fun x y => f x = some y) xs ys := by
  induction xs generalizing ys with
  | nil =>
    rw [List.mapM_nil, List.forall₂_nil_left_iff]
    show some [] = some ys ↔ _
    rw [Option.some_inj, eq_comm]
  | cons x xs ih =>
    rw [List.mapM_cons, List.forall₂_cons_left_iff]
    simp only [Option.bind_eq_bind, Option.bind_eq_some_iff, ih]
    constructor
    · rintro ⟨y, hy, ys', rest, is⟩
      exact ⟨y, ys', hy, rest, (Option.some.inj is).symm⟩
    · rintro ⟨y, ys', hy, rest, rfl⟩
      exact ⟨y, hy, ys', rest, rfl⟩

/-- If an item is what is written for its result, the items are what is written for the results. -/
theorem mapM_eq_some_iff_of_exact {α β : Type} {f : α → Option β} {write : β → α}
    (exact : ∀ x y, f x = some y ↔ x = write y) {xs : List α} {ys : List β} :
    xs.mapM f = some ys ↔ xs = ys.map write := by
  rw [mapM_eq_some_iff]
  simp only [exact]
  rw [← List.forall₂_map_right_iff (R := Eq), List.forall₂_eq_eq_eq]

/-- It is enough that each item can be decoded on its own. -/
theorem isSome_mapM_iff {α β : Type} {f : α → Option β} {xs : List α} :
    (xs.mapM f).isSome ↔ ∀ x ∈ xs, (f x).isSome := by
  induction xs with
  | nil => simp
  | cons x xs ih =>
    rw [List.mapM_cons, List.forall_mem_cons, ← ih]
    cases f x <;> cases xs.mapM f <;> simp

/-! ## Values -/

namespace Plan

/-- A text is the value of a string, and of nothing else. -/
theorem decodeString_eq_some_iff {v : Value} {s : String} :
    decodeString v = some s ↔ v = .string s := by
  unfold decodeString
  split
  · next s' => rw [Option.some_inj, Value.string.injEq]
  · next other => exact ⟨nofun, fun is => absurd is (other s)⟩

/-- A path is read off a text as it stands. -/
theorem decodePath_eq_some_iff {v : Value} {p : Path} :
    decodePath v = some p ↔ v = .string p.text := by
  unfold decodePath
  rw [Option.map_eq_some_iff]
  constructor
  · rintro ⟨s, hs, rfl⟩
    exact decodeString_eq_some_iff.1 hs
  · intro is
    exact ⟨p.text, decodeString_eq_some_iff.2 is, rfl⟩

/-- Arguments are read off just the value that is written for them. -/
theorem decodeArguments_eq_some_iff {v : Value} {a : ArgumentText} :
    decodeArguments v = some a ↔ v = a.toValue := by
  constructor
  · intro h
    unfold decodeArguments at h
    split at h
    · cases h
      rfl
    · obtain ⟨texts, all, rfl⟩ := Option.map_eq_some_iff.1 h
      rw [(mapM_eq_some_iff_of_exact fun _ _ => decodeString_eq_some_iff).1 all]
      rfl
    · cases h
  · rintro rfl
    exact decodeArguments_toValue a

/-! ## Entries -/

/-- An entry that may be left out is left out, or is read. -/
theorem optional_eq_some_iff {α : Type} {item : Value → Option α} {es : Entries} {key : String}
    {o : Option α} :
    optional item es key = some o ↔
      Option.Rel (fun v x => item v = some x) (es.lookup key) o := by
  unfold optional
  cases es.lookup key with
  | none =>
    constructor
    · rintro ⟨⟩
      exact .none
    · rintro ⟨⟩
      rfl
  | some v =>
    show (item v).map some = some o ↔ _
    rw [Option.map_eq_some_iff]
    constructor
    · rintro ⟨x, hx, rfl⟩
      exact .some hx
    · rintro ⟨hx⟩
      exact ⟨_, hx, rfl⟩

/-- A required field is there and has a value of its kind. -/
theorem required_eq_some_iff {α : Type} {item : Value → Option α} {es : Entries} {key : String}
    {x : α} :
    required item es key = some x ↔ ∃ v, es.lookup key = some v ∧ item v = some x :=
  Option.bind_eq_some_iff

/-- An exact decoder reads what is written for the result. -/
theorem optional_eq_some_iff_of_exact {α : Type} {item : Value → Option α} {write : α → Value}
    (exact : ∀ v x, item v = some x ↔ v = write x) {es : Entries} {key : String} {o : Option α} :
    optional item es key = some o ↔ es.lookup key = o.map write := by
  rw [optional_eq_some_iff]
  simp only [exact]
  generalize es.lookup key = found
  constructor
  · intro h
    cases h with
    | none => rfl
    | some is => rw [is, Option.map_some]
  · intro h
    rw [h]
    cases o with
    | none => exact .none
    | some x => exact .some rfl

/-- If a kind has just one value for each item, so has a required field. -/
theorem required_eq_some_iff_of_exact {α : Type} {item : Value → Option α} {write : α → Value}
    (exact : ∀ v x, item v = some x ↔ v = write x) {es : Entries} {key : String} {x : α} :
    required item es key = some x ↔ es.lookup key = some (write x) := by
  rw [required_eq_some_iff]
  simp only [exact]
  exact ⟨fun ⟨_, found, is⟩ => is ▸ found, fun found => ⟨_, found, rfl⟩⟩

/-- A field that may be left out holds if its entry can be read. -/
theorem holds_optional {α : Type} (item : Value → Option α) {es : Entries} {key : String}
    {accepts : Value → Prop}
    (reads : ∀ v, es.lookup key = some v → (accepts v ↔ (item v).isSome)) :
    (Field.mk key accepts false).Holds es ↔ ∃ o, optional item es key = some o := by
  unfold Field.Holds optional
  cases found : es.lookup key with
  | none => simp
  | some v => simp [reads v found, Option.isSome_iff_exists]

/-- A field that is needed holds if its entry is there and can be read. -/
theorem holds_required {α : Type} (item : Value → Option α) {es : Entries} {key : String}
    {accepts : Value → Prop}
    (reads : ∀ v, es.lookup key = some v → (accepts v ↔ (item v).isSome)) :
    (Field.mk key accepts true).Holds es ↔ ∃ x, required item es key = some x := by
  unfold Field.Holds required
  cases found : es.lookup key with
  | none => simp
  | some v => simp [reads v found, Option.isSome_iff_exists]

theorem isText_iff (v : Value) : IsText v ↔ (decodeString v).isSome := by
  rw [Option.isSome_iff_exists]
  simp only [decodeString_eq_some_iff]
  rfl

theorem isText_iff_path (v : Value) : IsText v ↔ (decodePath v).isSome := by
  rw [isText_iff]
  unfold decodePath
  rw [Option.isSome_map]

theorem isTextOrTexts_iff (v : Value) : IsTextOrTexts v ↔ (decodeArguments v).isSome := by
  unfold IsTextOrTexts
  cases v with
  | array items =>
    simp [IsText, decodeArguments, isSome_mapM_iff, ← isText_iff]
  | string s => simp [IsText, decodeArguments]
  | _ => simp [IsText, decodeArguments]

end Plan

end BuildVariants
