/-!
# Environment variables

A set of variables is kept as a list sorted by name, without repetitions, and the type says so.
Two sets with the same variables are therefore equal, and printing one is printing its list.
`lookup?_insert` is the law of an assignment: the last one made to a name wins.

Names are compared by code point, which for Unicode text is the order of their UTF-8 bytes.
-/

namespace BuildVariants

/-- Variables with their values, sorted by name. -/
structure Variables where
  /-- The variables in order. -/
  entries : List (String × String)
  /-- The names increase. -/
  sorted : entries.Pairwise fun a b => a.1 < b.1

namespace Variables

/-- No variables. -/
def empty : Variables := ⟨[], .nil⟩

instance : Inhabited Variables := ⟨empty⟩

theorem ext {v w : Variables} (h : v.entries = w.entries) : v = w := by
  cases v; cases w; cases h; rfl

instance : DecidableEq Variables := fun v w =>
  decidable_of_iff (v.entries = w.entries) ⟨ext, fun h => h ▸ rfl⟩

/-- Puts an assignment at its place in a sorted list, over an earlier one to the same name. -/
def insertEntry (name value : String) : List (String × String) → List (String × String)
  | [] => [(name, value)]
  | (n, v) :: rest =>
    if name < n then (name, value) :: (n, v) :: rest
    else if name = n then (name, value) :: rest
    else (n, v) :: insertEntry name value rest

/-- The names of a list after an assignment are those before it and the one assigned. -/
theorem mem_insertEntry {name value : String} {entries : List (String × String)}
    {e : String × String} (h : e ∈ insertEntry name value entries) :
    e = (name, value) ∨ e ∈ entries := by
  induction entries with
  | nil => simpa [insertEntry] using h
  | cons x rest ih =>
    obtain ⟨n, v⟩ := x
    rw [insertEntry] at h
    split at h
    · simpa using h
    · split at h
      · rcases List.mem_cons.1 h with h | h
        · exact .inl h
        · exact .inr (List.mem_cons_of_mem _ h)
      · rcases List.mem_cons.1 h with h | h
        · exact .inr (h ▸ List.mem_cons_self ..)
        · exact (ih h).imp_right (List.mem_cons_of_mem _)

theorem lt_of_not_lt_of_ne {a b : String} (h : ¬ a < b) (h' : a ≠ b) : b < a := by
  rcases Classical.em (b < a) with hb | hb
  · exact hb
  · exact absurd (String.le_antisymm (String.not_lt.1 hb) (String.not_lt.1 h)) h'

/-- Names stay sorted, whether the new one is added or takes the place of an old one. -/
theorem sorted_insertEntry (name value : String) {entries : List (String × String)}
    (h : entries.Pairwise fun a b => a.1 < b.1) :
    (insertEntry name value entries).Pairwise fun a b => a.1 < b.1 := by
  induction entries with
  | nil => simp [insertEntry]
  | cons x rest ih =>
    obtain ⟨n, v⟩ := x
    rw [List.pairwise_cons] at h
    rw [insertEntry]
    split
    · next lt =>
      refine List.pairwise_cons.2 ⟨fun e he => ?_, List.pairwise_cons.2 h⟩
      rcases List.mem_cons.1 he with rfl | he
      · exact lt
      · exact String.lt_trans lt (h.1 e he)
    · split
      · next eq =>
        subst eq
        exact List.pairwise_cons.2 h
      · next not_lt ne =>
        refine List.pairwise_cons.2 ⟨fun e he => ?_, ih h.2⟩
        rcases mem_insertEntry he with rfl | he
        · exact lt_of_not_lt_of_ne not_lt ne
        · exact h.1 e he

/-- Assigns a value to a name. -/
def insert (vars : Variables) (name value : String) : Variables :=
  ⟨insertEntry name value vars.entries, sorted_insertEntry name value vars.sorted⟩

/-- The assignments of a list, made one after the other. -/
def insertAll (vars : Variables) (entries : List (String × String)) : Variables :=
  entries.foldl (fun vs e => vs.insert e.1 e.2) vars

/-- The variables of a list of assignments. -/
def ofList (entries : List (String × String)) : Variables :=
  empty.insertAll entries

/-- An assignment to a name behind all others goes to the end. -/
theorem insertEntry_of_forall_lt {name : String} (value : String)
    {entries : List (String × String)} (behind : ∀ e ∈ entries, e.1 < name) :
    insertEntry name value entries = entries ++ [(name, value)] := by
  induction entries with
  | nil => rfl
  | cons x rest ih =>
    obtain ⟨n, v⟩ := x
    have lt : n < name := behind (n, v) List.mem_cons_self
    have ne : name ≠ n := fun eq => String.lt_irrefl n (eq ▸ lt)
    rw [insertEntry, if_neg (String.lt_asymm lt), if_neg ne,
      ih fun e he => behind e (List.mem_cons_of_mem _ he), List.cons_append]

/-- Names that come in order are stored in this order. -/
theorem entries_insertAll_of_sorted (entries : List (String × String)) :
    ∀ vars : Variables, (vars.entries ++ entries).Pairwise (fun a b => a.1 < b.1) →
      (vars.insertAll entries).entries = vars.entries ++ entries := by
  induction entries with
  | nil =>
    intro vars _
    rw [insertAll, List.foldl_nil, List.append_nil]
  | cons e entries ih =>
    intro vars sorted
    have behind : ∀ x ∈ vars.entries, x.1 < e.1 := fun x hx =>
      (List.pairwise_append.1 sorted).2.2 x hx e List.mem_cons_self
    have inserted : (vars.insert e.1 e.2).entries = vars.entries ++ [e] :=
      insertEntry_of_forall_lt e.2 behind
    have step := ih (vars.insert e.1 e.2) (by rw [inserted]; simpa using sorted)
    rw [inserted, List.append_assoc, List.singleton_append] at step
    exact step

/-- A set of variables is made of its own entries. -/
theorem ofList_entries (vars : Variables) : ofList vars.entries = vars :=
  ext (entries_insertAll_of_sorted vars.entries empty vars.sorted)

theorem perm_insertEntry {name : String} (value : String) {entries : List (String × String)}
    (fresh : name ∉ entries.map Prod.fst) :
    (insertEntry name value entries).Perm ((name, value) :: entries) := by
  induction entries with
  | nil => exact .refl _
  | cons x rest ih =>
    obtain ⟨n, v⟩ := x
    rw [List.map_cons, List.mem_cons, not_or] at fresh
    rw [insertEntry]
    split
    · exact .refl _
    · rw [if_neg fresh.1]
      exact ((ih fresh.2).cons (n, v)).trans (.swap _ _ rest)

theorem perm_entries_insertAll (entries : List (String × String)) :
    ∀ vars : Variables, ((vars.entries ++ entries).map Prod.fst).Nodup →
      (vars.insertAll entries).entries.Perm (vars.entries ++ entries) := by
  induction entries with
  | nil =>
    intro vars _
    rw [insertAll, List.foldl_nil, List.append_nil]
  | cons e entries ih =>
    intro vars distinct
    have fresh : e.1 ∉ vars.entries.map Prod.fst := by
      intro mem
      rw [List.map_append, List.nodup_append] at distinct
      exact distinct.2.2 _ mem _ List.mem_cons_self rfl
    have inserted :
        ((vars.insert e.1 e.2).entries ++ entries).Perm (vars.entries ++ e :: entries) :=
      ((perm_insertEntry e.2 fresh).append_right entries).trans List.perm_middle.symm
    exact (ih (vars.insert e.1 e.2) ((inserted.map Prod.fst).nodup_iff.2 distinct)).trans inserted

/-- Assignments to distinct names are sorted, and none is lost. -/
theorem perm_entries_ofList {entries : List (String × String)}
    (distinct : (entries.map Prod.fst).Nodup) : (ofList entries).entries.Perm entries :=
  perm_entries_insertAll entries empty distinct

/-- The value of a name. -/
def lookup? (vars : Variables) (name : String) : Option String :=
  vars.entries.lookup name

theorem lookup_insertEntry (name value : String) (entries : List (String × String)) (n : String) :
    (insertEntry name value entries).lookup n =
      if n = name then some value else entries.lookup n := by
  induction entries with
  | nil => simp only [insertEntry, List.lookup_cons, List.lookup_nil]; grind
  | cons x rest ih =>
    obtain ⟨m, v⟩ := x
    rw [insertEntry]
    split
    · simp only [List.lookup_cons]; grind
    · split
      · simp only [List.lookup_cons]; grind
      · simp only [List.lookup_cons, ih]; grind

/-- The last assignment to a name is the one that counts. -/
theorem lookup?_insert (vars : Variables) (name value n : String) :
    (vars.insert name value).lookup? n = if n = name then some value else vars.lookup? n :=
  lookup_insertEntry name value vars.entries n

end Variables

end BuildVariants
