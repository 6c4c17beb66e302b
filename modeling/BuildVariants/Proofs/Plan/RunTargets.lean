import BuildVariants.Proofs.Plan.Declaring

/-!
# Run targets of one name

A registry keeps the run targets as they are given, and a name may be given more than once.  A
look-up finds the first target of a name; the task configuration is a keyed list, and there the last
value that was put under a key counts (`Keyed.lookup?_ofList`).  So the two know the same names, but
they speak of the same target only where the first and the last one of a name agree, as they do if
the name is not repeated (`Registry.runs_describe_targets`).
-/

namespace BuildVariants

/-! ## Keyed lists, one entry after the other -/

namespace Keyed

variable {α : Type}

/-- Of several entries of one key the last one is found. -/
theorem lookup?_ofList (entries : List (String × α)) (key : String) :
    (ofList entries).lookup? key = entries.reverse.lookup key := by
  induction entries using List.reverseRecOn with
  | nil => rfl
  | append_singleton entries e ih =>
    rw [ofList_concat, lookup?_insert, ih, List.reverse_concat, List.lookup_cons]
    split
    · next same => rw [beq_iff_eq.2 same]
    · next other => rw [beq_eq_false_iff_ne.2 other]

/-- The keys are those that some entry has. -/
theorem mem_keys_ofList {entries : List (String × α)} {key : String} :
    key ∈ (ofList entries).keys ↔ key ∈ entries.map Prod.fst := by
  induction entries using List.reverseRecOn with
  | nil => rfl
  | append_singleton entries e ih =>
    rw [ofList_concat, keys_insert, List.map_append, List.mem_append, ← ih]
    split
    · next old =>
      refine (or_iff_left_of_imp fun new => ?_).symm
      rwa [List.mem_singleton.1 new]
    · rw [List.mem_append]
      rfl

end Keyed

/-! ## The first and the last target of a name -/

namespace Registry

/-- The run targets of a name, in the order in which they were given. -/
def targetsNamed (r : Registry) (name : String) : List Target :=
  r.targets.filter (·.name = name)

variable {r : Registry} {name : String}

theorem target_eq_ok_iff {t : Target} :
    r.target name = .ok t ↔ (r.targetsNamed name).head? = some t := by
  unfold target targetsNamed
  rw [List.head?_filter]
  cases r.targets.find? (·.name = name) with
  | none => exact iff_of_false nofun nofun
  | some u => rw [Except.ok.injEq, Option.some.injEq]

/-- The task configuration says what the last target of a name says. -/
theorem lookup?_runs (r : Registry) (name : String) :
    r.taskConfig.runs.lookup? name = ((r.targetsNamed name).getLast?).map Target.task := by
  unfold targetsNamed
  rw [List.getLast?_filter]
  show (Keyed.ofList _).lookup? name = _
  rw [Keyed.lookup?_ofList, ← List.map_reverse]
  induction r.targets.reverse with
  | nil => rfl
  | cons t ts ih =>
    rw [List.map_cons, List.lookup_cons, List.find?_cons, ih]
    by_cases same : t.name = name
    · rw [decide_eq_true same, beq_iff_eq.2 same.symm]
      rfl
    · rw [decide_eq_false same, beq_eq_false_iff_ne.2 (Ne.symm same)]

/-- It has an entry for each name that a target has. -/
theorem mem_keys_runs : name ∈ r.taskConfig.runs.keys ↔ r.targetsNamed name ≠ [] := by
  unfold targetsNamed
  show name ∈ (Keyed.ofList _).keys ↔ _
  rw [Keyed.mem_keys_ofList, List.map_map, List.mem_map, ne_eq, List.filter_eq_nil_iff]
  simp

/-- **What the look-up and the task configuration say of a run target.**  They know the same names.
Of the targets of a name the look-up gives the first one, and the task configuration describes the
last one; so it describes the target that is looked up just when these two say the same, and it does
if the name is given once. -/
theorem runs_describe_targets (override? : Option Path) (shared : Shared)
    (declared : List (String × Request)) (targets : List Target) (name : String) :
    let r := construct override? shared declared targets
    let named := targets.filter (·.name = name)
    (name ∈ r.taskConfig.runs.keys ↔ ∃ t, r.target name = .ok t) ∧
    (∀ t, r.target name = .ok t ↔ named.head? = some t) ∧
    (∀ entry, r.taskConfig.runs.lookup? name = some entry ↔ ∃ last, named.getLast? = some last ∧
      entry = ⟨last.build, last.run.text, last.args, last.cwd.text⟩) ∧
    (∀ first last, r.target name = .ok first → named.getLast? = some last →
      (r.taskConfig.runs.lookup? name = some first.task ↔ last.task = first.task)) ∧
    (named.length ≤ 1 → ∀ t, r.target name = .ok t →
      r.taskConfig.runs.lookup? name = some t.task) := by
  intro r named
  have found (t : Target) : r.target name = .ok t ↔ named.head? = some t := target_eq_ok_iff
  have entry : r.taskConfig.runs.lookup? name = named.getLast?.map Target.task :=
    r.lookup?_runs name
  refine ⟨?_, found, ?_, ?_, ?_⟩
  · simp only [found, ← Option.isSome_iff_exists, List.isSome_head?]
    exact mem_keys_runs
  · intro e
    rw [entry, Option.map_eq_some_iff]
    exact exists_congr fun last => and_congr_right fun _ => eq_comm
  · intro first last _ isLast
    rw [entry, isLast, Option.map_some, Option.some.injEq]
  · intro once t first
    -- A target that is alone is both the first one and the last one.
    obtain ⟨rest, is⟩ := List.head?_eq_some_iff.1 ((found t).1 first)
    rw [is, List.length_cons] at once
    rw [entry, is, List.eq_nil_of_length_eq_zero (by omega : rest.length = 0)]
    rfl

/-- **A repeated target is described as another one.**  The first one is looked up and the last one
is described, and they are not built from the same build target. -/
theorem repeated_target_described_otherwise :
    let first : Target := { Target.ofName "tool" with build := "tool-1" }
    let last : Target := { Target.ofName "tool" with build := "tool-2" }
    let r := construct none .default [("a", ⟨"clang", "Debug", none⟩)] [first, last]
    "tool" ∈ r.taskConfig.runs.keys ∧ r.target "tool" = .ok first ∧
      r.taskConfig.runs.lookup? "tool" = some last.task ∧
      ¬ ∀ t, r.target "tool" = .ok t → r.taskConfig.runs.lookup? "tool" = some t.task := by
  intro first last r
  have found : r.target "tool" = .ok first := by decide +kernel
  have described : r.taskConfig.runs.lookup? "tool" = some last.task := by decide +kernel
  refine ⟨by decide +kernel, found, described, fun same => ?_⟩
  have both := (same first found).symm.trans described
  exact absurd both (by decide +kernel)

end Registry

end BuildVariants
