import BuildVariants.Proofs.Toml.WrittenDocument

/-!
# How a table grows section by section

A section opens a table and fills it with pairs.  To say what that does to a tree that is already
there, a place in a tree is described by the function that puts a table there: `Leads path plug`
says that a header's path arrives at the table that `plug` puts into the tree, whatever that table
holds.  Such places are built from the root downwards (`Leads.table`, `Leads.elements`), and
`addAll_section` is all that is needed of a section.
-/

namespace BuildVariants.Toml

/-- The keys of a table that still grows. -/
def Branch.keys (b : Branch) : List String :=
  b.map Prod.fst

/-! ## Changing one entry -/

/-- What stands under the key of the last entry is changed there. -/
theorem Branch.alter_append_singleton {front : Branch} {key : String}
    (fresh : key ∉ Branch.keys front) (f : Option Node → Option Node) (n : Node) :
    Branch.alter key f (front ++ [(key, n)]) = (f (some n)).map fun n' => front ++ [(key, n')] := by
  induction front with
  | nil => simp [Branch.alter]
  | cons e front ih =>
    obtain ⟨k, m⟩ := e
    rw [Branch.keys, List.map_cons, List.mem_cons, not_or] at fresh
    rw [List.cons_append, Branch.alter, if_neg (Ne.symm fresh.1), ih fresh.2, Option.map_map]
    rfl

/-- A new key goes to the end. -/
theorem Branch.alter_of_notMem {b : Branch} {key : String} (fresh : key ∉ Branch.keys b)
    (f : Option Node → Option Node) :
    Branch.alter key f b = (f none).map fun n => b ++ [(key, n)] := by
  induction b with
  | nil => rfl
  | cons e b ih =>
    obtain ⟨k, m⟩ := e
    rw [Branch.keys, List.map_cons, List.mem_cons, not_or] at fresh
    rw [Branch.alter, if_neg (Ne.symm fresh.1), ih fresh.2, Option.map_map]
    rfl

/-- A change of the last item leaves the others alone. -/
theorem alterLast_append_singleton {α : Type} (f : α → Option α) (xs : List α) (x : α) :
    alterLast f (xs ++ [x]) = (f x).map fun y => xs ++ [y] := by
  induction xs with
  | nil => rfl
  | cons y ys ih =>
    match ys with
    | [] => rw [List.singleton_append, alterLast, alterLast, Option.map_map]; rfl
    | z :: zs =>
      rw [List.cons_append, List.cons_append, alterLast, ← List.cons_append, ih, Option.map_map]
      rfl

/-! ## Places in a tree -/

/-- A path leads to the table that `plug` puts into a tree. -/
def Leads (path : List String) (plug : Branch → Branch) : Prop :=
  ∀ (f : Branch → Option Branch) (b : Branch), Branch.atPath f path (plug b) = (f b).map plug

namespace Leads

/-- The empty path leads to the branch itself. -/
theorem root : Leads [] id := fun f b => by rw [Branch.atPath, id, Option.map_id, id]

/-- Through a table that is the last entry of another one. -/
theorem table {front : Branch} {key : String} (fresh : key ∉ front.keys) (o : Origin)
    {path : List String} {plug : Branch → Branch} (h : Leads path plug) :
    Leads (key :: path) fun b => front ++ [(key, .table o (plug b))] := by
  intro f b
  rw [Branch.atPath, Branch.alter_append_singleton fresh]
  simp only [h f b, Option.map_map]
  rfl

/-- Through the last element of an array of tables that is the last entry of a table. -/
theorem elements {front : Branch} {key : String} (fresh : key ∉ front.keys)
    (tables : List Branch) {path : List String} {plug : Branch → Branch} (h : Leads path plug) :
    Leads (key :: path) fun b => front ++ [(key, .elements (tables ++ [plug b]))] := by
  intro f b
  rw [Branch.atPath, Branch.alter_append_singleton fresh]
  simp only [alterLast_append_singleton, h f b, Option.map_map]
  rfl

end Leads

/-! ## Taking statements in -/

/-- Statements are taken in one after the other. -/
theorem Draft.addAll_append (d : Draft) (ss ts : List Statement) :
    d.addAll (ss ++ ts) = (d.addAll ss).bind (·.addAll ts) := by
  induction ss generalizing d with
  | nil => rfl
  | cons s ss ih =>
    rw [List.cons_append, Draft.addAll, Draft.addAll]
    cases d.add s with
    | none => rfl
    | some d' => exact ih d'

/-- The entries that pairs make. -/
def pairEntries (ps : List (String × Datum)) : Branch :=
  ps.map fun p => (p.1, .leaf p.2.value)

@[simp] theorem keys_pairEntries (ps : List (String × Datum)) :
    (pairEntries ps).keys = ps.map Prod.fst := by
  simp [pairEntries, Branch.keys]

/-- Pairs with distinct new keys go to the end of the open table. -/
theorem Draft.addAll_pairs {path : List String} {plug : Branch → Branch} (h : Leads path plug)
    (ps : List (String × Datum)) :
    ∀ b : Branch, (b.keys ++ ps.map Prod.fst).Nodup →
      Draft.addAll ⟨plug b, path⟩ (ps.map pairStatement)
        = some ⟨plug (b ++ pairEntries ps), path⟩ := by
  induction ps with
  | nil =>
    intro b _
    rw [pairEntries, List.map_nil, List.map_nil, List.append_nil, Draft.addAll]
  | cons p ps ih =>
    intro b distinct
    have fresh : p.1 ∉ b.keys := by
      intro mem
      exact (List.nodup_append.1 distinct).2.2 _ mem _ List.mem_cons_self rfl
    -- The open table is where the header left it, so the pair goes behind what it holds already.
    have added : Draft.add ⟨plug b, path⟩ (pairStatement p)
        = some ⟨plug (b ++ [(p.1, .leaf p.2.value)]), path⟩ := by
      have entry : Branch.addPair p.1 p.2.value [] b = some (b ++ [(p.1, .leaf p.2.value)]) := by
        rw [Branch.addPair, Branch.addNew, Branch.alter_of_notMem fresh, Option.map_some]
      rw [pairStatement, Draft.add, h, entry, Option.map_some, Option.map_some]
    have distinct' : (Branch.keys (b ++ [(p.1, .leaf p.2.value)]) ++ ps.map Prod.fst).Nodup := by
      simpa [Branch.keys] using distinct
    rw [List.map_cons, Draft.addAll, added]
    refine (ih _ distinct').trans ?_
    simp [pairEntries]

/-- **A section opens a table and fills it.** -/
theorem Draft.addAll_section {s : Section} {heading : Statement} {d : Draft}
    (headed : s.heading.statements = [heading]) {path : List String} {plug : Branch → Branch}
    (leads : Leads path plug) (opened : d.add heading = some ⟨plug [], path⟩)
    (distinct : (s.pairs.map Prod.fst).Nodup) :
    d.addAll s.statements = some ⟨plug (pairEntries s.pairs), path⟩ := by
  rw [Section.statements, headed, List.singleton_append, Draft.addAll, opened]
  exact Draft.addAll_pairs leads s.pairs [] distinct

/-- The header of a new table at the root. -/
theorem Draft.addAll_table {front : Branch} {key : String} (fresh : key ∉ front.keys)
    (path : List String) {pairs : List (String × Datum)}
    (distinct : (pairs.map Prod.fst).Nodup) :
    Draft.addAll ⟨front, path⟩ (Section.mk (.table [key]) pairs).statements
      = some ⟨front ++ [(key, .table .header (pairEntries pairs))], [key]⟩ := by
  refine Draft.addAll_section rfl (Leads.root.table fresh .header) ?_ distinct
  simp [Draft.add, Branch.atPath, Branch.openTable, Branch.alter_of_notMem fresh]

/-- The header of a new table in a table that is not there yet. -/
theorem Draft.addAll_table_implied {front : Branch} {outer : String}
    (fresh : outer ∉ front.keys) (key : String) (path : List String)
    {pairs : List (String × Datum)} (distinct : (pairs.map Prod.fst).Nodup) :
    Draft.addAll ⟨front, path⟩ (Section.mk (.table [outer, key]) pairs).statements
      = some ⟨front ++ [(outer, .table .implied [(key, .table .header (pairEntries pairs))])],
          [outer, key]⟩ := by
  have nothing : key ∉ Branch.keys [] := List.not_mem_nil
  refine Draft.addAll_section rfl
    ((Leads.root.table nothing .header).table fresh .implied) ?_ distinct
  simp [Draft.add, Branch.atPath, Branch.openTable, Branch.alter_of_notMem fresh, Branch.alter]

/-- The header of a new table in the table that came last. -/
theorem Draft.addAll_table_inside {front inner : Branch} {outer key : String}
    (fresh : outer ∉ front.keys) (o : Origin) (new : key ∉ inner.keys) (path : List String)
    {pairs : List (String × Datum)} (distinct : (pairs.map Prod.fst).Nodup) :
    Draft.addAll ⟨front ++ [(outer, .table o inner)], path⟩
        (Section.mk (.table [outer, key]) pairs).statements
      = some ⟨front ++ [(outer, .table o (inner ++ [(key, .table .header (pairEntries pairs))]))],
          [outer, key]⟩ := by
  refine Draft.addAll_section rfl ((Leads.root.table new .header).table fresh o) ?_ distinct
  simp [Draft.add, Branch.atPath, Branch.openTable, Branch.alter_append_singleton fresh,
    Branch.alter_of_notMem new]

/-- The header of the first element of an array of tables. -/
theorem Draft.addAll_element {front : Branch} {key : String} (fresh : key ∉ front.keys)
    (path : List String) {pairs : List (String × Datum)}
    (distinct : (pairs.map Prod.fst).Nodup) :
    Draft.addAll ⟨front, path⟩ (Section.mk (.element [key]) pairs).statements
      = some ⟨front ++ [(key, .elements [pairEntries pairs])], [key]⟩ := by
  refine Draft.addAll_section rfl (Leads.root.elements fresh []) ?_ distinct
  simp [Draft.add, Branch.atPath, Branch.openElement, Branch.alter_of_notMem fresh]

/-- The header of a further element of an array of tables. -/
theorem Draft.addAll_element_further {front : Branch} {key : String} (fresh : key ∉ front.keys)
    (tables : List Branch) (path : List String) {pairs : List (String × Datum)}
    (distinct : (pairs.map Prod.fst).Nodup) :
    Draft.addAll ⟨front ++ [(key, .elements tables)], path⟩
        (Section.mk (.element [key]) pairs).statements
      = some ⟨front ++ [(key, .elements (tables ++ [pairEntries pairs]))], [key]⟩ := by
  refine Draft.addAll_section rfl (Leads.root.elements fresh tables) ?_ distinct
  simp [Draft.add, Branch.atPath, Branch.openElement, Branch.alter_append_singleton fresh]

/-! ## The finished tree -/

/-- Entries are given in the order in which they were made. -/
theorem branchEntries_append (a b : Branch) :
    branchEntries (a ++ b) = branchEntries a ++ branchEntries b := by
  induction a with
  | nil => rfl
  | cons e a ih =>
    obtain ⟨k, n⟩ := e
    rw [List.cons_append, branchEntries, branchEntries, ih, List.cons_append]

theorem branchEntries_map {α : Type} (f : α → String × Node) (xs : List α) :
    branchEntries (xs.map f) = xs.map fun x => ((f x).1, (f x).2.toValue) := by
  induction xs with
  | nil => rfl
  | cons x xs ih => rw [List.map_cons, branchEntries, ih, List.map_cons]

theorem elementValues_map {α : Type} (f : α → Branch) (xs : List α) :
    elementValues (xs.map f) = xs.map fun x => .table (branchEntries (f x)) := by
  induction xs with
  | nil => rfl
  | cons x xs ih => rw [List.map_cons, elementValues, ih, List.map_cons]

/-- Pairs leave their values behind. -/
theorem branchEntries_pairEntries (ps : List (String × Datum)) :
    branchEntries (pairEntries ps) = ps.map fun p => (p.1, p.2.value) := by
  rw [pairEntries, branchEntries_map]
  rfl

end BuildVariants.Toml
