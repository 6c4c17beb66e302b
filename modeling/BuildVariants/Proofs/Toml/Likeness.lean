import BuildVariants.Keyed
import BuildVariants.Toml.Value
import Mathlib.Data.List.Forall2
import Mathlib.Data.List.Perm.Basic

/-!
# Trees that say the same

The order of keys in a table has no meaning, so two trees say the same if they differ in nothing
else (`Value.Alike`).  In a proper tree no table has a key twice.  Such tables say the same as soon
as looking up a key gives the same in both, or nothing in both, for every key that they may have
(`Alike.of_lookup`).
-/

namespace BuildVariants.Toml

/-- No table in the tree has a key twice. -/
inductive Value.Proper : Value → Prop
  | string (s : String) : Proper (.string s)
  | integer (n : Int) : Proper (.integer n)
  | float (digits : String) : Proper (.float digits)
  | boolean (b : Bool) : Proper (.boolean b)
  | moment (m : Moment) : Proper (.moment m)
  | array {items : List Value} (each : ∀ x ∈ items, Proper x) : Proper (.array items)
  | table {entries : Entries} (distinct : (entries.map Prod.fst).Nodup)
      (each : ∀ e ∈ entries, Proper e.2) : Proper (.table entries)

/-- The trees are the same, but for the order of keys in tables. -/
inductive Value.Alike : Value → Value → Prop
  | refl (v : Value) : Alike v v
  | array {xs ys : List Value} (items : List.Forall₂ Alike xs ys) : Alike (.array xs) (.array ys)
  | table {a b : Entries} (keys : (a.map Prod.fst).Perm (b.map Prod.fst))
      (values : ∀ key v w, (key, v) ∈ a → (key, w) ∈ b → Alike v w) : Alike (.table a) (.table b)

namespace Value.Proper

/-- A table is proper if its keys are distinct and its values proper. -/
theorem table_iff {entries : Entries} :
    Proper (.table entries) ↔ (entries.map Prod.fst).Nodup ∧ ∀ e ∈ entries, e.2.Proper :=
  ⟨fun | .table distinct each => ⟨distinct, each⟩, fun ⟨distinct, each⟩ => .table distinct each⟩

theorem array_iff {items : List Value} : Proper (.array items) ↔ ∀ x ∈ items, x.Proper :=
  ⟨fun | .array each => each, .array⟩

theorem nodup_keys {entries : Entries} (h : Proper (.table entries)) :
    (entries.map Prod.fst).Nodup :=
  (table_iff.1 h).1

/-- What stands in a proper table is proper. -/
theorem of_mem_table {entries : Entries} (h : Proper (.table entries)) {key : String} {v : Value}
    (mem : (key, v) ∈ entries) : v.Proper :=
  (table_iff.1 h).2 _ mem

theorem of_mem_array {items : List Value} (h : Proper (.array items)) {v : Value}
    (mem : v ∈ items) : v.Proper :=
  array_iff.1 h v mem

end Value.Proper

/-! ## Looking up in a table -/

theorem mem_of_lookup {a : Entries} {key : String} {v : Value} (h : a.lookup key = some v) :
    (key, v) ∈ a := by
  obtain ⟨before, after, split, -⟩ := List.lookup_eq_some_iff.1 h
  rw [split]
  exact List.mem_append_right _ List.mem_cons_self

/-- In a table with distinct keys a key stands where it is found. -/
theorem mem_keys_iff_exists_lookup {a : Entries} (distinct : (a.map Prod.fst).Nodup)
    {key : String} : key ∈ a.map Prod.fst ↔ ∃ v, a.lookup key = some v := by
  constructor
  · intro mem
    obtain ⟨e, he, rfl⟩ := List.mem_map.1 mem
    exact ⟨e.2, Keyed.lookup_of_mem distinct he⟩
  · rintro ⟨v, found⟩
    exact List.mem_map_of_mem (mem_of_lookup found)

/-- A key that is not known is not found. -/
theorem lookup_eq_none_of_known {a : Entries} {keys : List String} (known : ∀ e ∈ a, e.1 ∈ keys)
    {key : String} (unknown : key ∉ keys) : a.lookup key = none := by
  rw [Option.eq_none_iff_forall_ne_some]
  intro v found
  exact unknown (known _ (mem_of_lookup found))

/-- **Tables that give the same for every key say the same.** -/
theorem Value.Alike.of_lookup {a b : Entries} {keys : List String}
    (distinctA : (a.map Prod.fst).Nodup) (distinctB : (b.map Prod.fst).Nodup)
    (knownA : ∀ e ∈ a, e.1 ∈ keys) (knownB : ∀ e ∈ b, e.1 ∈ keys)
    (same : ∀ key ∈ keys, Option.Rel Alike (a.lookup key) (b.lookup key)) :
    Alike (.table a) (.table b) := by
  have everywhere (key : String) : Option.Rel Alike (a.lookup key) (b.lookup key) := by
    by_cases known : key ∈ keys
    · exact same key known
    · rw [lookup_eq_none_of_known knownA known, lookup_eq_none_of_known knownB known]
      exact .none
  apply Alike.table
  · rw [List.perm_ext_iff_of_nodup distinctA distinctB]
    intro key
    rw [mem_keys_iff_exists_lookup distinctA, mem_keys_iff_exists_lookup distinctB]
    have related := everywhere key
    generalize a.lookup key = x at related
    generalize b.lookup key = y at related
    cases related <;> simp
  · intro key v w hv hw
    have related := everywhere key
    rw [Keyed.lookup_of_mem distinctA hv, Keyed.lookup_of_mem distinctB hw] at related
    cases related with
    | some alike => exact alike

theorem Value.Alike.option_refl (o : Option Value) : Option.Rel Alike o o := by
  cases o with
  | none => exact .none
  | some v => exact .some (.refl v)

/-- If looking up gives the very same, the tables say the same. -/
theorem Value.Alike.of_lookup_eq {a b : Entries} {keys : List String}
    (distinctA : (a.map Prod.fst).Nodup) (distinctB : (b.map Prod.fst).Nodup)
    (knownA : ∀ e ∈ a, e.1 ∈ keys) (knownB : ∀ e ∈ b, e.1 ∈ keys)
    (same : ∀ key ∈ keys, a.lookup key = b.lookup key) : Alike (.table a) (.table b) := by
  refine of_lookup distinctA distinctB knownA knownB fun key known => ?_
  rw [same key known]
  exact option_refl _

/-- A table in another order says the same. -/
theorem Value.Alike.of_perm {a b : Entries} (distinct : (a.map Prod.fst).Nodup)
    (perm : a.Perm b) : Alike (.table a) (.table b) := by
  refine .table (perm.map Prod.fst) ?_
  intro key v w hv hw
  have found := Keyed.lookup_of_mem distinct hv
  rw [Keyed.lookup_of_mem distinct (perm.mem_iff.2 hw)] at found
  cases found
  exact .refl v

/-- Entries that are related one by one have the same keys in the same order. -/
theorem keys_eq_of_forall₂ {α β : Type} {R : String × α → String × β → Prop}
    {a : List (String × α)} {b : List (String × β)}
    (each : List.Forall₂ (fun x y => x.1 = y.1 ∧ R x y) a b) :
    a.map Prod.fst = b.map Prod.fst := by
  induction each with
  | nil => rfl
  | cons head _ ih => rw [List.map_cons, List.map_cons, head.1, ih]

/-- A table with the same keys in the same order and values that say the same says the same. -/
theorem Value.Alike.of_forall₂ {a b : Entries} (distinct : (a.map Prod.fst).Nodup)
    (each : List.Forall₂ (fun x y => x.1 = y.1 ∧ Alike x.2 y.2) a b) :
    Alike (.table a) (.table b) := by
  apply Alike.table
  · rw [keys_eq_of_forall₂ each]
  · intro key v w hv hw
    have partner : ∃ v', (key, v') ∈ a ∧ Alike v' w := by
      clear distinct hv
      induction each with
      | nil => cases hw
      | @cons x y a b head _ ih =>
        rcases List.mem_cons.1 hw with rfl | hw
        · have same : x.1 = key := head.1
          refine ⟨x.2, ?_, head.2⟩
          rw [← same]
          exact List.mem_cons_self
        · obtain ⟨v', hv', alike⟩ := ih hw
          exact ⟨v', List.mem_cons_of_mem _ hv', alike⟩
    obtain ⟨v', hv', alike⟩ := partner
    have found := Keyed.lookup_of_mem distinct hv
    rw [Keyed.lookup_of_mem distinct hv'] at found
    cases found
    exact alike

/-! ## Changing a table at one key -/

/-- A table with an entry that it may leave out. -/
def Entries.completed (es : Entries) (key : String) (v : Value) : Entries :=
  if key ∈ es.map Prod.fst then es else es ++ [(key, v)]

/-- A table with another value under a key, if there is one. -/
def Entries.changed (es : Entries) (key : String) (f : Value → Value) : Entries :=
  es.map fun e => if e.1 = key then (e.1, f e.2) else e

theorem keys_changed (es : Entries) (key : String) (f : Value → Value) :
    (Entries.changed es key f).map Prod.fst = es.map Prod.fst := by
  unfold Entries.changed
  rw [List.map_map]
  refine List.map_congr_left fun e _ => ?_
  show (if e.1 = key then (e.1, f e.2) else e).1 = e.1
  split <;> rfl

/-- A change of one value is seen under its key only. -/
theorem lookup_changed (es : Entries) (key : String) (f : Value → Value) (k : String) :
    (Entries.changed es key f).lookup k
      = if k = key then (es.lookup k).map f else es.lookup k := by
  unfold Entries.changed
  induction es with
  | nil => split <;> rfl
  | cons e es ih =>
    obtain ⟨name, v⟩ := e
    rw [List.map_cons]
    by_cases here : k = name
    · subst here
      by_cases same : k = key <;> simp [same]
    · have other : (k == name) = false := beq_false_of_ne here
      split <;> simp only [List.lookup_cons, other, ih]

/-- An entry is added only where its key is missing, so the keys stay distinct. -/
theorem nodup_keys_completed {es : Entries} (distinct : (es.map Prod.fst).Nodup) (key : String)
    (v : Value) : ((Entries.completed es key v).map Prod.fst).Nodup := by
  unfold Entries.completed
  split
  · exact distinct
  · next absent =>
    rw [List.map_append, List.nodup_append]
    refine ⟨distinct, List.pairwise_singleton _ key, ?_⟩
    intro k hk k' hk' same
    rw [same, List.mem_singleton.1 hk'] at hk
    exact absent hk

/-- A table that has been completed has its own value under the key, or else the one that was
added. -/
theorem lookup_completed {es : Entries} (distinct : (es.map Prod.fst).Nodup) (key : String)
    (v : Value) (k : String) :
    (Entries.completed es key v).lookup k
      = if k = key then (es.lookup k).or (some v) else es.lookup k := by
  unfold Entries.completed
  split
  · next there =>
    obtain ⟨w, found⟩ := (mem_keys_iff_exists_lookup distinct).1 there
    split
    · next is => rw [is, found, Option.some_or]
    · rfl
  · rw [List.lookup_append]
    by_cases is : k = key
    · rw [if_pos is, is, List.lookup_cons_self]
    · rw [if_neg is, List.lookup_cons, beq_false_of_ne is, List.lookup_nil]
      exact Option.or_none

/-- A known key may be added. -/
theorem mem_keys_completed {es : Entries} {key : String} {v : Value} {keys : List String}
    (known : ∀ e ∈ es, e.1 ∈ keys) (mem : key ∈ keys) :
    ∀ e ∈ Entries.completed es key v, e.1 ∈ keys := by
  unfold Entries.completed
  split
  · exact known
  · intro e he
    rcases List.mem_append.1 he with old | new
    · exact known e old
    · rw [List.mem_singleton.1 new]
      exact mem

theorem mem_keys_changed {es : Entries} (key : String) (f : Value → Value) {keys : List String}
    (known : ∀ e ∈ es, e.1 ∈ keys) : ∀ e ∈ Entries.changed es key f, e.1 ∈ keys := by
  intro e he
  obtain ⟨e', he', rfl⟩ := List.mem_map.1 he
  have mem := known e' he'
  split <;> exact mem

end BuildVariants.Toml
