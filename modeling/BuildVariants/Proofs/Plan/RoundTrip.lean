import BuildVariants.Proofs.Plan.Decoding
import BuildVariants.Proofs.Toml.Growth

/-!
# A written plan is read back

The text of a plan is read as the plan, whatever the plan holds and whether or not it is valid
(`Plan.read?_text`); so parsing it gives what validation says of the plan, and nothing else.

The sections of a plan are taken in group by group.  The options may be implied by the header of
the environment, the first variant opens an array that the others go on with, and the first run
target implies the table that holds them all.
-/

namespace BuildVariants

open Toml (Value Entries Section Draft Branch pairEntries branchEntries)

/-! ## Options -/

theorem nodup_keys_pairs (o : PlanOptions) : (o.pairs.map Prod.fst).Nodup := by
  obtain ⟨sourceDir?, buildRoot?, env?⟩ := o
  cases sourceDir? <;> cases buildRoot? <;> simp [PlanOptions.pairs, optionalEntry]

/-- The variables are a table of their own, not one of the pairs of the options. -/
theorem env_notMem_keys_pairs (o : PlanOptions) : "env" ∉ o.pairs.map Prod.fst := by
  obtain ⟨sourceDir?, buildRoot?, env?⟩ := o
  cases sourceDir? <;> cases buildRoot? <;> simp [PlanOptions.pairs, optionalEntry]

theorem nodup_keys_env (env : Variables) :
    ((env.entries.map fun e => (e.1, Toml.Datum.string e.2)).map Prod.fst).Nodup := by
  rw [List.map_map]
  refine List.pairwise_map.2 (env.sorted.imp fun {a b} lt => ?_)
  exact fun eq => String.lt_irrefl b.1 ((show a.1 = b.1 from eq) ▸ lt)

/-- The value of the options is that of its pairs, and then that of the variables. -/
theorem toValue_eq_of_pairs (o : PlanOptions) :
    o.toValue = .table (o.pairs.map (fun p => (p.1, p.2.value))
      ++ optionalEntry "env" Variables.toValue o.env?) := by
  obtain ⟨sourceDir?, buildRoot?, env?⟩ := o
  cases sourceDir? <;> cases buildRoot? <;>
    simp [PlanOptions.pairs, PlanOptions.toValue, optionalEntry, Path.datum, Toml.Datum.value]

/-- The sections of the options make one table at the end of the root. -/
theorem addAll_options (o : PlanOptions) (front : Branch) (fresh : "options" ∉ front.keys)
    (path : List String) :
    ∃ origin inner path',
      Draft.addAll ⟨front, path⟩ (o.sections.flatMap Section.statements)
        = some ⟨front ++ [("options", .table origin inner)], path'⟩ ∧
      Value.table (branchEntries inner) = o.toValue := by
  have distinct := nodup_keys_pairs o
  match env : o.env? with
  | none =>
    refine ⟨.header, pairEntries o.pairs, ["options"], ?_, ?_⟩
    · rw [PlanOptions.sections, env, if_neg (by simp)]
      simpa using Draft.addAll_table fresh path distinct
    · rw [toValue_eq_of_pairs, env, Toml.branchEntries_pairEntries, optionalEntry, List.append_nil]
  | some vars =>
    have distinctEnv := nodup_keys_env vars
    let header : Toml.Node :=
      .table .header (pairEntries (vars.entries.map fun e => (e.1, .string e.2)))
    have written : header.toValue = vars.toValue := by
      rw [Toml.Node.toValue, Toml.branchEntries_pairEntries, List.map_map, Variables.toValue]
      rfl
    -- Options without pairs of their own have no header: that of the environment implies them.
    by_cases bare : o.pairs = []
    · refine ⟨.implied, [("env", header)], ["options", "env"], ?_, ?_⟩
      · rw [PlanOptions.sections, env, if_pos ⟨bare, rfl⟩]
        simpa using Draft.addAll_table_implied fresh "env" path distinctEnv
      · rw [toValue_eq_of_pairs, env, bare, optionalEntry, ← written]
        rfl
    · refine ⟨.header, pairEntries o.pairs ++ [("env", header)], ["options", "env"], ?_, ?_⟩
      · rw [PlanOptions.sections, env, if_neg fun both => bare both.1]
        rw [List.singleton_append, List.flatMap_cons, List.flatMap_cons, List.flatMap_nil,
          List.append_nil, Draft.addAll_append, Draft.addAll_table fresh path distinct,
          Option.bind_some]
        exact Draft.addAll_table_inside fresh .header
          (by rw [Toml.keys_pairEntries]; exact env_notMem_keys_pairs o) _ distinctEnv
      · rw [toValue_eq_of_pairs, env, Toml.branchEntries_append, Toml.branchEntries_pairEntries,
          optionalEntry, ← written]
        rfl

/-! ## Variants -/

theorem nodup_keys_variant (d : VariantDecl) : (d.toSection.pairs.map Prod.fst).Nodup := by
  obtain ⟨name?, toolchain, config, options⟩ := d
  cases name? <;> cases options <;> simp [VariantDecl.toSection, optionalEntry]

theorem value_datum (a : ArgumentText) : a.datum.value = a.toValue := by
  cases a <;> rfl

/-- What the section of a variant leaves in the document is the value of the variant. -/
theorem branchEntries_variant (d : VariantDecl) :
    Value.table (branchEntries (pairEntries d.toSection.pairs)) = d.toValue := by
  obtain ⟨name?, toolchain, config, options⟩ := d
  rw [Toml.branchEntries_pairEntries]
  cases name? <;> cases options <;>
    simp [VariantDecl.toSection, VariantDecl.toValue, optionalEntry, Toml.Datum.value,
      ← value_datum]

/-- Further variants are further elements of the array of variants. -/
theorem addAll_variants {front : Branch} (fresh : "variant" ∉ front.keys)
    (ds : List VariantDecl) : ∀ (tables : List Branch) (path : List String), ∃ path',
      Draft.addAll ⟨front ++ [("variant", .elements tables)], path⟩
          (ds.flatMap fun d => d.toSection.statements)
        = some ⟨front ++ [("variant",
            .elements (tables ++ ds.map fun d => pairEntries d.toSection.pairs))], path'⟩ := by
  induction ds with
  | nil => exact fun tables path => ⟨path, by rw [List.map_nil, List.append_nil]; rfl⟩
  | cons d ds ih =>
    intro tables path
    obtain ⟨path', h⟩ := ih (tables ++ [pairEntries d.toSection.pairs]) ["variant"]
    refine ⟨path', ?_⟩
    have first : Draft.addAll ⟨front ++ [("variant", .elements tables)], path⟩
          d.toSection.statements
        = some ⟨front ++ [("variant", .elements (tables ++ [pairEntries d.toSection.pairs]))],
            ["variant"]⟩ :=
      Draft.addAll_element_further fresh tables path (nodup_keys_variant d)
    rw [List.flatMap_cons, Draft.addAll_append, first, Option.bind_some, h, List.map_cons,
      List.append_assoc, List.singleton_append]

/-- The sections of the variants make one array at the end of the root, if there are any. -/
theorem addAll_variants_of_ne_nil (front : Branch) (fresh : "variant" ∉ front.keys)
    {ds : List VariantDecl} (nonempty : ds ≠ []) (path : List String) : ∃ path',
      Draft.addAll ⟨front, path⟩ (ds.flatMap fun d => d.toSection.statements)
        = some ⟨front ++ [("variant", .elements (ds.map fun d => pairEntries d.toSection.pairs))],
            path'⟩ := by
  obtain ⟨d, ds, rfl⟩ := List.exists_cons_of_ne_nil nonempty
  obtain ⟨path', h⟩ := addAll_variants fresh ds [pairEntries d.toSection.pairs] ["variant"]
  refine ⟨path', ?_⟩
  have first : Draft.addAll ⟨front, path⟩ d.toSection.statements
      = some ⟨front ++ [("variant", .elements [pairEntries d.toSection.pairs])], ["variant"]⟩ :=
    Draft.addAll_element fresh path (nodup_keys_variant d)
  rw [List.flatMap_cons, Draft.addAll_append, first, Option.bind_some, h, List.singleton_append,
    List.map_cons]

/-! ## Run targets -/

/-- The table of a run target. -/
def TargetDecl.branch (d : TargetDecl) (name : String) : Branch :=
  pairEntries (d.toSection name).pairs

theorem nodup_keys_target (d : TargetDecl) (name : String) :
    ((d.toSection name).pairs.map Prod.fst).Nodup := by
  obtain ⟨build?, run?, args, cwd?⟩ := d
  cases build? <;> cases run? <;> cases cwd? <;> simp [TargetDecl.toSection, optionalEntry]

theorem branchEntries_target (d : TargetDecl) (name : String) :
    Value.table (branchEntries (d.branch name)) = d.toValue := by
  obtain ⟨build?, run?, args, cwd?⟩ := d
  rw [TargetDecl.branch, Toml.branchEntries_pairEntries]
  cases build? <;> cases run? <;> cases cwd? <;>
    simp [TargetDecl.toSection, TargetDecl.toValue, optionalEntry, Toml.Datum.value, Path.datum,
      ← value_datum]

/-- Further run targets are further entries of the table of run targets. -/
theorem addAll_targets {front : Branch} (fresh : "target" ∉ front.keys)
    (es : List (String × TargetDecl)) : ∀ (inner : Branch) (path : List String),
      (inner.keys ++ es.map Prod.fst).Nodup → ∃ path',
        Draft.addAll ⟨front ++ [("target", .table .implied inner)], path⟩
            (es.flatMap fun e => (e.2.toSection e.1).statements)
          = some ⟨front ++ [("target", .table .implied
              (inner ++ es.map fun e => (e.1, .table .header (e.2.branch e.1))))], path'⟩ := by
  induction es with
  | nil => exact fun inner path _ => ⟨path, by rw [List.map_nil, List.append_nil]; rfl⟩
  | cons e es ih =>
    intro inner path distinct
    have new : e.1 ∉ inner.keys := by
      intro mem
      exact (List.nodup_append.1 distinct).2.2 _ mem _ List.mem_cons_self rfl
    obtain ⟨path', h⟩ := ih (inner ++ [(e.1, .table .header (e.2.branch e.1))]) ["target", e.1]
      (by simpa [Branch.keys] using distinct)
    refine ⟨path', ?_⟩
    have first : Draft.addAll ⟨front ++ [("target", .table .implied inner)], path⟩
          (e.2.toSection e.1).statements
        = some ⟨front ++ [("target", .table .implied
            (inner ++ [(e.1, .table .header (e.2.branch e.1))]))], ["target", e.1]⟩ :=
      Draft.addAll_table_inside fresh .implied new path (nodup_keys_target e.2 e.1)
    rw [List.flatMap_cons, Draft.addAll_append, first, Option.bind_some, h, List.map_cons,
      List.append_assoc, List.singleton_append]

/-- The sections of the run targets make one table at the end of the root. -/
theorem addAll_targetSections (p : Plan) (front : Branch) (fresh : "target" ∉ front.keys)
    (path : List String) :
    ∃ origin inner path',
      Draft.addAll ⟨front, path⟩ (p.targetSections.flatMap Section.statements)
        = some ⟨front ++ [("target", .table origin inner)], path'⟩ ∧
      branchEntries inner = p.targets.entries.map fun e => (e.1, e.2.toValue) := by
  match targets : p.targets.entries with
  | [] =>
    -- Without targets the table itself is written, empty.
    refine ⟨.header, [], ["target"], ?_, rfl⟩
    rw [Plan.targetSections, if_pos targets]
    rw [List.flatMap_cons, List.flatMap_nil, List.append_nil]
    exact Draft.addAll_table fresh path List.nodup_nil
  | e :: es =>
    have distinct : (e.1 :: es.map Prod.fst).Nodup := by
      have := p.targets.nodup
      rwa [targets, List.map_cons] at this
    obtain ⟨path', h⟩ := addAll_targets fresh es [(e.1, .table .header (e.2.branch e.1))]
      ["target", e.1] distinct
    refine ⟨.implied, [(e.1, .table .header (e.2.branch e.1))]
      ++ es.map (fun e => (e.1, .table .header (e.2.branch e.1))), path', ?_, ?_⟩
    · -- The header of the first run target implies the table of all of them.
      have first : Draft.addAll ⟨front, path⟩ (e.2.toSection e.1).statements
          = some ⟨front ++ [("target", .table .implied
              [(e.1, .table .header (e.2.branch e.1))])], ["target", e.1]⟩ :=
        Draft.addAll_table_implied fresh e.1 path (nodup_keys_target e.2 e.1)
      rw [Plan.targetSections, if_neg (by simp [targets]), targets, List.flatMap_map,
        List.flatMap_cons, Draft.addAll_append, first, Option.bind_some]
      exact h
    · rw [Toml.branchEntries_append, Toml.branchEntries_map, List.map_cons]
      simp only [branchEntries, Toml.Node.toValue, branchEntries_target, List.singleton_append]

/-! ## The whole plan -/

namespace Plan

/-- The table that the text of a plan defines.  A plan without variants says so in front. -/
def documentEntries (p : Plan) : Entries :=
  if p.variants = [] then
    [("variant", .array []), ("options", p.options.toValue),
      ("target", .table (p.targets.entries.map fun e => (e.1, e.2.toValue)))]
  else p.toEntries

/-- The sections of a plan make up the entries of its document. -/
theorem tableOf_sections (p : Plan) :
    Toml.tableOf (p.sections.flatMap Section.statements) = some p.documentEntries := by
  rw [sections, List.flatMap_append, List.flatMap_append, List.flatMap_append, List.flatMap_map,
    Toml.tableOf, Draft.addAll_append, Draft.addAll_append, Draft.addAll_append, documentEntries]
  by_cases none : p.variants = []
  · -- An array without elements is a pair in front of the first header.
    have top : Draft.start.addAll (p.topSections.flatMap Section.statements)
        = some ⟨[("variant", .leaf (.array []))], []⟩ := by
      rw [topSections, if_pos none]
      rfl
    obtain ⟨o, options, path, readOptions, optionsValue⟩ := addAll_options p.options
      [("variant", .leaf (.array []))] (by decide) []
    obtain ⟨o', targets, path', readTargets, targetsValue⟩ := addAll_targetSections p
      [("variant", .leaf (.array [])), ("options", .table o options)]
      (by simp [Branch.keys]) path
    rw [top, Option.bind_some, readOptions, Option.bind_some, none, List.flatMap_nil,
      Draft.addAll, Option.bind_some, if_pos rfl]
    refine (congrArg (Option.map _) readTargets).trans ?_
    simp [branchEntries, Toml.Node.toValue, optionsValue, targetsValue]
  · obtain ⟨o, options, path, readOptions, optionsValue⟩ := addAll_options p.options []
      (by decide) []
    obtain ⟨path', readVariants⟩ := addAll_variants_of_ne_nil
      [("options", .table o options)] (by simp [Branch.keys]) none path
    obtain ⟨o', targets, path'', readTargets, targetsValue⟩ := addAll_targetSections p
      [("options", .table o options),
        ("variant", .elements (p.variants.map fun d => pairEntries d.toSection.pairs))]
      (by simp [Branch.keys]) path'
    rw [topSections, if_neg none, List.flatMap_nil, Draft.addAll, Option.bind_some, Draft.start,
      readOptions, Option.bind_some, List.nil_append, readVariants, Option.bind_some, if_neg none]
    refine (congrArg (Option.map _) readTargets).trans ?_
    simp [branchEntries, Toml.Node.toValue, optionsValue, targetsValue, toEntries,
      Toml.elementValues_map, branchEntries_variant]

/-- Every section of a plan has a legal heading. -/
theorem isLegal_of_mem_sections {p : Plan} {s : Section} (h : s ∈ p.sections) :
    s.heading.IsLegal := by
  have short (path : List String) (nonempty : path ≠ []) (few : path.length ≤ 2) :
      path ≠ [] ∧ path.length ≤ Toml.maxDepth :=
    ⟨nonempty, Nat.le_trans few (by decide)⟩
  simp only [sections, List.mem_append, List.mem_map] at h
  obtain ((top | option) | ⟨d, -, rfl⟩) | target := h
  · rw [topSections] at top
    split at top
    · rw [List.mem_singleton.1 top]
      trivial
    · cases top
  · rw [PlanOptions.sections, List.mem_append] at option
    rcases option with option | option
    · split at option
      · cases option
      · rw [List.mem_singleton.1 option]
        exact short ["options"] (List.cons_ne_nil _ _) (by decide)
    · split at option
      · cases option
      · rw [List.mem_singleton.1 option]
        exact short ["options", "env"] (List.cons_ne_nil _ _) (by decide)
  · exact short ["variant"] (List.cons_ne_nil _ _) (by decide)
  · rw [targetSections] at target
    split at target
    · rw [List.mem_singleton.1 target]
      exact short ["target"] (List.cons_ne_nil _ _) (by decide)
    · obtain ⟨e, -, rfl⟩ := List.mem_map.1 target
      exact short ["target", e.1] (List.cons_ne_nil _ _) (Nat.le_refl 2)

/-- A written document begins like its first section. -/
theorem head?_writeSections {s : Section} {c : Char} (h : s.write.head? = some c)
    (ss : List Section) : (Toml.writeSections (s :: ss)).head? = some c := by
  match ss with
  | [] => exact h
  | t :: ts =>
    rw [Toml.writeSections, List.head?_append, h]
    · rfl
    · exact List.cons_ne_nil t ts

/-- The text of a plan begins with a letter or with a bracket. -/
theorem head?_text (p : Plan) :
    (Toml.writeSections p.sections).head? = some 'v' ∨
      (Toml.writeSections p.sections).head? = some '[' := by
  rw [sections, topSections, PlanOptions.sections]
  by_cases none : p.variants = []
  · rw [if_pos none]
    exact Or.inl (head?_writeSections (by decide) _)
  · rw [if_neg none, List.nil_append]
    refine Or.inr ?_
    by_cases bare : p.options.pairs = [] ∧ p.options.env?.isSome
    · obtain ⟨env, some⟩ := Option.isSome_iff_exists.1 bare.2
      rw [if_pos bare, some]
      exact head?_writeSections rfl _
    · rw [if_neg bare]
      exact head?_writeSections rfl _

/-- The text of a plan is read as its document. -/
theorem parse?_text (p : Plan) : Toml.parse? p.text = some p.documentEntries := by
  have noMark : (Toml.writeSections p.sections).head? ≠ some Toml.byteOrderMark := by
    rcases head?_text p with h | h <;> rw [h] <;> decide
  rw [Toml.parse?, text, Toml.documentText, String.toList_ofList,
    Toml.statements?_writeSections (fun s hs => isLegal_of_mem_sections hs) noMark]
  exact tableOf_sections p

/-- A written document has no keys but those of a plan. -/
theorem mem_planKeys_of_mem_documentEntries {p : Plan} {e : String × Value}
    (mem : e ∈ p.documentEntries) : e.1 ∈ planKeys := by
  rw [documentEntries] at mem
  split at mem
  · simp only [List.mem_cons, List.not_mem_nil, or_false] at mem
    rcases mem with rfl | rfl | rfl <;> simp [planKeys]
  · simp only [toEntries, List.mem_cons, List.not_mem_nil, or_false] at mem
    rcases mem with rfl | rfl | rfl <;> simp [planKeys]

/-- The order of the tables in a document does not matter. -/
theorem lookup_documentEntries (p : Plan) {key : String} (known : key ∈ planKeys) :
    p.documentEntries.lookup key = p.toEntries.lookup key := by
  rw [documentEntries]
  split
  · next none =>
    simp only [planKeys, List.mem_cons, List.not_mem_nil, or_false] at known
    rcases known with rfl | rfl | rfl <;> simp [toEntries, List.lookup_cons, none]
  · rfl

/-- **The text of a plan is read as the plan**, valid or not. -/
theorem read?_text (p : Plan) : read? p.text = some p := by
  rw [read?, parse?_text, Option.bind_some]
  exact decode_of_lookup (fun _ mem => mem_planKeys_of_mem_documentEntries mem)
    fun _ known => p.lookup_documentEntries known

/-- The text of a valid plan is parsed as the plan. -/
theorem parse_text_of_valid {p : Plan} (valid : p.validate = .ok ()) (path : Path) :
    parse p.text path = .ok p := by
  simp only [parse, read?_text, valid]

/-- **Writing a plan and parsing it again** gives what validation says of the plan: its error, or
the very plan that was written. -/
theorem parse_text (p : Plan) (path : Path) :
    parse p.text path = match p.validate with
      | .error e => .error e
      | .ok () => .ok p := by
  cases valid : p.validate with
  | error e => simp only [parse, read?_text, valid]
  | ok => exact parse_text_of_valid valid path

end Plan

end BuildVariants
