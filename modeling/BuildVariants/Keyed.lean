/-!
# Keyed lists

A table that remembers the order of its keys: the entries stand in the order in which their keys
first came, and no key stands twice.  Putting a value under a key that is already there replaces
the value and keeps the place; this is `keys_insert`, and `lookup?_insert` says which value is
found afterwards.
-/

namespace BuildVariants

/-- Entries with distinct keys, in order. -/
structure Keyed (α : Type) where
  /-- The entries in order. -/
  entries : List (String × α)
  /-- No key stands twice. -/
  nodup : (entries.map Prod.fst).Nodup

namespace Keyed

variable {α β : Type}

/-- No entries. -/
def empty : Keyed α := ⟨[], .nil⟩

instance : Inhabited (Keyed α) := ⟨empty⟩

theorem ext {s t : Keyed α} (h : s.entries = t.entries) : s = t := by
  cases s; cases t; cases h; rfl

instance [DecidableEq α] : DecidableEq (Keyed α) := fun s t =>
  decidable_of_iff (s.entries = t.entries) ⟨ext, fun h => h ▸ rfl⟩

/-- The keys in order. -/
def keys (t : Keyed α) : List String :=
  t.entries.map Prod.fst

/-- Replaces the value under a key where it stands, or appends the entry. -/
def insertEntry (key : String) (value : α) : List (String × α) → List (String × α)
  | [] => [(key, value)]
  | (k, v) :: rest =>
    if k = key then (key, value) :: rest else (k, v) :: insertEntry key value rest

/-- A new key goes to the end; an old one keeps its place. -/
theorem map_fst_insertEntry (key : String) (value : α) (entries : List (String × α)) :
    (insertEntry key value entries).map Prod.fst =
      if key ∈ entries.map Prod.fst then entries.map Prod.fst
      else entries.map Prod.fst ++ [key] := by
  induction entries with
  | nil => simp [insertEntry]
  | cons x rest ih =>
    obtain ⟨k, v⟩ := x
    rw [insertEntry]
    split
    · next h => simp [h]
    · next h =>
      have h' : key ≠ k := fun e => h e.symm
      simp only [List.map_cons, ih, List.mem_cons, h', false_or]
      split <;> simp

theorem nodup_insertEntry (key : String) (value : α) {entries : List (String × α)}
    (h : (entries.map Prod.fst).Nodup) :
    ((insertEntry key value entries).map Prod.fst).Nodup := by
  rw [map_fst_insertEntry]
  split
  · exact h
  · next fresh => grind

/-- Puts a value under a key. -/
def insert (t : Keyed α) (key : String) (value : α) : Keyed α :=
  ⟨insertEntry key value t.entries, nodup_insertEntry key value t.nodup⟩

/-- A key that is stored again keeps its place; a new one comes last. -/
theorem keys_insert (t : Keyed α) (key : String) (value : α) :
    (t.insert key value).keys = if key ∈ t.keys then t.keys else t.keys ++ [key] :=
  map_fst_insertEntry key value t.entries

/-- The entries of a list, put in one after the other. -/
def ofList (entries : List (String × α)) : Keyed α :=
  entries.foldl (fun t e => t.insert e.1 e.2) empty

/-- One more entry is put in behind the others. -/
theorem ofList_concat (entries : List (String × α)) (e : String × α) :
    ofList (entries ++ [e]) = (ofList entries).insert e.1 e.2 := by
  unfold ofList
  rw [List.foldl_append]
  rfl

/-- A new key goes to the end with its value. -/
theorem insertEntry_of_notMem {key : String} (value : α) {entries : List (String × α)}
    (fresh : key ∉ entries.map Prod.fst) :
    insertEntry key value entries = entries ++ [(key, value)] := by
  induction entries with
  | nil => rfl
  | cons x rest ih =>
    obtain ⟨k, v⟩ := x
    rw [List.map_cons, List.mem_cons, not_or] at fresh
    rw [insertEntry, if_neg (Ne.symm fresh.1), ih fresh.2, List.cons_append]

/-- Entries with distinct keys are stored in the order in which they come. -/
theorem entries_foldl_insert (entries : List (String × α)) :
    ∀ t : Keyed α, ((t.entries ++ entries).map Prod.fst).Nodup →
      (entries.foldl (fun t e => t.insert e.1 e.2) t).entries = t.entries ++ entries := by
  induction entries with
  | nil =>
    intro t _
    rw [List.foldl_nil, List.append_nil]
  | cons e entries ih =>
    intro t distinct
    have fresh : e.1 ∉ t.entries.map Prod.fst := by
      intro mem
      rw [List.map_append, List.nodup_append] at distinct
      exact distinct.2.2 _ mem _ List.mem_cons_self rfl
    have inserted : (t.insert e.1 e.2).entries = t.entries ++ [e] :=
      insertEntry_of_notMem e.2 fresh
    have step := ih (t.insert e.1 e.2) (by rw [inserted]; simpa using distinct)
    rw [inserted, List.append_assoc, List.singleton_append] at step
    exact step

/-- Entries with distinct keys are kept as they are. -/
theorem entries_ofList {entries : List (String × α)} (distinct : (entries.map Prod.fst).Nodup) :
    (ofList entries).entries = entries :=
  entries_foldl_insert entries empty distinct

/-- A keyed list is made of its own entries. -/
theorem ofList_entries (t : Keyed α) : ofList t.entries = t :=
  ext (entries_ofList t.nodup)

/-- The value under a key. -/
def lookup? (t : Keyed α) (key : String) : Option α :=
  t.entries.lookup key

/-- What is found is an entry. -/
theorem mem_of_lookup? {t : Keyed α} {key : String} {value : α} (h : t.lookup? key = some value) :
    (key, value) ∈ t.entries := by
  obtain ⟨before, after, split, -⟩ := List.lookup_eq_some_iff.1 h
  rw [split]
  exact List.mem_append_right _ List.mem_cons_self

/-- An entry of a list with distinct keys is found under its key. -/
theorem lookup_of_mem {entries : List (String × α)} (distinct : (entries.map Prod.fst).Nodup)
    {key : String} {value : α} (mem : (key, value) ∈ entries) :
    entries.lookup key = some value := by
  obtain ⟨before, after, split⟩ := List.append_of_mem mem
  rw [List.lookup_eq_some_iff]
  refine ⟨before, after, split, ?_⟩
  intro e he
  rw [split, List.map_append, List.nodup_append] at distinct
  have ne : e.1 ≠ key := distinct.2.2 _ (List.mem_map_of_mem he) _ List.mem_cons_self
  exact bne_iff_ne.2 ne.symm

/-- Every entry is found under its key. -/
theorem lookup?_of_mem {t : Keyed α} {key : String} {value : α} (h : (key, value) ∈ t.entries) :
    t.lookup? key = some value :=
  lookup_of_mem t.nodup h

theorem lookup_insertEntry (key : String) (value : α) (entries : List (String × α)) (k : String) :
    (insertEntry key value entries).lookup k =
      if k = key then some value else entries.lookup k := by
  induction entries with
  | nil => simp only [insertEntry, List.lookup_cons, List.lookup_nil]; grind
  | cons x rest ih =>
    obtain ⟨m, v⟩ := x
    rw [insertEntry]
    split
    · simp only [List.lookup_cons]; grind
    · simp only [List.lookup_cons, ih]; grind

/-- The last value put under a key is the one that is found. -/
theorem lookup?_insert (t : Keyed α) (key : String) (value : α) (k : String) :
    (t.insert key value).lookup? k = if k = key then some value else t.lookup? k :=
  lookup_insertEntry key value t.entries k

end Keyed

end BuildVariants
