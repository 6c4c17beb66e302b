import BuildVariants.Proofs.Plan.Declaring
import Mathlib.Data.List.Induction
import Mathlib.Data.List.Nodup

/-!
# Validation

A plan is read once from front to back, and the first declaration whose key was seen before ends the
reading.  What decides is therefore whether the keys as a whole are distinct
(`firstRepeated_eq_none_iff`), and what is reported is the key that ends the longest distinct
beginning (`firstRepeated_eq_some_iff`).

The registry is made without asking for validity, and by another rule: a declaration whose key is
there already replaces what it finds.  The two agree, because a declaration that replaces another is
just one that does not let the registry grow (`length_declaredNames_concat`).  So the registry has
as many variants as the plan declares just when the keys are distinct
(`length_declaredNames_eq_iff`).
-/

namespace BuildVariants

/-! ## The first text that is repeated -/

/-- Nothing is found in distinct texts, none of which was seen before, and in no others. -/
theorem firstRepeated_eq_none_iff {seen ks : List String} :
    firstRepeated seen ks = none ↔ ks.Nodup ∧ ∀ k ∈ ks, k ∉ seen := by
  refine ⟨nodup_of_firstRepeated_eq_none, ?_⟩
  rintro ⟨distinct, fresh⟩
  induction ks generalizing seen with
  | nil => rfl
  | cons k ks ih =>
    obtain ⟨new, distinct⟩ := List.nodup_cons.1 distinct
    rw [firstRepeated, if_neg (fresh k List.mem_cons_self)]
    refine ih distinct fun x hx => ?_
    rw [List.mem_cons, not_or]
    exact ⟨fun same => new (same ▸ hx), fresh x (List.mem_cons_of_mem k hx)⟩

/-- What is found was seen before or stands earlier in the list, and up to there nothing is
repeated. -/
theorem firstRepeated_eq_some_iff {seen ks : List String} {key : String} :
    firstRepeated seen ks = some key ↔ ∃ before after, ks = before ++ key :: after ∧
      (before.Nodup ∧ ∀ k ∈ before, k ∉ seen) ∧ (key ∈ seen ∨ key ∈ before) := by
  constructor
  · intro found
    induction ks generalizing seen with
    | nil => cases found
    | cons k ks ih =>
      rw [firstRepeated] at found
      split at found
      · next old =>
        cases found
        exact ⟨[], ks, rfl, ⟨.nil, fun _ mem => absurd mem List.not_mem_nil⟩, .inl old⟩
      · next new =>
        obtain ⟨before, after, rfl, ⟨distinct, fresh⟩, repeated⟩ := ih found
        have notBefore : k ∉ before := fun mem => fresh k mem List.mem_cons_self
        refine ⟨k :: before, after, rfl, ⟨List.nodup_cons.2 ⟨notBefore, distinct⟩, ?_⟩, ?_⟩
        · rintro x (_ | ⟨_, mem⟩)
          · exact new
          · exact fun old => fresh x mem (List.mem_cons_of_mem k old)
        · rw [List.mem_cons] at repeated ⊢
          rwa [← or_assoc, or_comm (a := key ∈ seen)]
  · rintro ⟨before, after, rfl, ⟨distinct, fresh⟩, repeated⟩
    have none : firstRepeated seen before = none := firstRepeated_eq_none_iff.2 ⟨distinct, fresh⟩
    clear distinct fresh
    -- What was read without a find is among what was seen when the key is reached.
    induction before generalizing seen with
    | nil =>
      rw [List.nil_append, firstRepeated, if_pos (repeated.resolve_right List.not_mem_nil)]
    | cons k before ih =>
      rw [firstRepeated] at none
      rw [List.cons_append, firstRepeated]
      split at none
      · cases none
      · next new =>
        rw [if_neg new]
        refine ih ?_ none
        rw [List.mem_cons] at repeated ⊢
        rwa [or_assoc, or_left_comm]

/-! ## How far a registry grows -/

/-- One more declaration adds a name, or it replaces another and adds none. -/
theorem length_declaredNames_concat (declared : List (String × Request)) (d : String × Request) :
    (declaredNames (declared ++ [d])).length =
      (declaredNames declared).length + if d.1 ∈ declaredNames declared then 0 else 1 := by
  rw [declaredNames_concat]
  split
  · rfl
  · rw [List.length_append, List.length_singleton]

theorem length_declaredNames_le (declared : List (String × Request)) :
    (declaredNames declared).length ≤ declared.length := by
  induction declared using List.reverseRecOn with
  | nil => exact Nat.le_refl 0
  | append_singleton declared d ih =>
    rw [length_declaredNames_concat, List.length_append, List.length_singleton]
    split <;> omega

/-- There are as many names as declarations if no declaration replaces another. -/
theorem length_declaredNames_eq_iff (declared : List (String × Request)) :
    (declaredNames declared).length = declared.length ↔ (declared.map Prod.fst).Nodup := by
  induction declared using List.reverseRecOn with
  | nil => exact iff_of_true rfl .nil
  | append_singleton declared d ih =>
    have bound := length_declaredNames_le declared
    rw [length_declaredNames_concat, List.length_append, List.length_singleton, List.map_append,
      List.map_singleton, List.nodup_append_comm, List.singleton_append, List.nodup_cons, ← ih,
      ← mem_declaredNames]
    split
    · next old => exact iff_of_false (by omega) fun distinct => distinct.1 old
    · next new =>
      rw [Nat.add_right_cancel_iff]
      exact ⟨fun same => ⟨new, same⟩, And.right⟩

namespace Plan

/-- A registry has one variant for each key. -/
theorem length_variants_registry (p : Plan) (probe : Probe) :
    (p.registry probe.override?).variants.length = (declaredNames p.declared).length := by
  have names := (Registry.holds_construct probe p.shared p.declared p.runTargets).names
  rw [← names, List.length_map]
  rfl

/-! ## What validation decides -/

/-- What is declared are the keys of the variants, in their order. -/
theorem keys_declared (p : Plan) : p.declared.map Prod.fst = p.variants.map VariantDecl.key := by
  unfold declared
  rw [List.map_map]
  rfl

/-- A key is **the first one repeated** if it is that of a declaration up to which the keys are
distinct, and of an earlier one. -/
def FirstRepeats (p : Plan) (key : String) : Prop :=
  ∃ before d after, p.variants = before ++ d :: after ∧ d.key = key ∧
    (∃ e ∈ before, e.key = key) ∧ (before.map VariantDecl.key).Nodup

/-- The key that is found is the first one that had been there before. -/
theorem firstRepeats_iff {p : Plan} {key : String} :
    p.FirstRepeats key ↔ firstRepeated [] (p.variants.map VariantDecl.key) = some key := by
  rw [firstRepeated_eq_some_iff]
  constructor
  · rintro ⟨before, d, after, split, rfl, ⟨e, he, same⟩, distinct⟩
    refine ⟨before.map VariantDecl.key, after.map VariantDecl.key, ?_,
      ⟨distinct, fun _ _ => List.not_mem_nil⟩, .inr ?_⟩
    · rw [split, List.map_append, List.map_cons]
    · exact List.mem_map.2 ⟨e, he, same⟩
  · rintro ⟨keys, more, split, ⟨distinct, -⟩, repeated⟩
    obtain ⟨before, rest, parts, rfl, behind⟩ := List.map_eq_append_iff.1 split
    obtain ⟨d, after, rfl, same, -⟩ := List.map_eq_cons_iff.1 behind
    have earlier := repeated.resolve_left List.not_mem_nil
    exact ⟨before, d, after, parts, same, List.mem_map.1 earlier, distinct⟩

/-- The first repeated key is told, and no other diagnostic than this one tells a key. -/
theorem validate_eq_duplicateVariant_iff {p : Plan} {key : String} :
    p.validate = .error (.duplicateVariant key) ↔ p.FirstRepeats key := by
  rw [firstRepeats_iff]
  unfold validate
  split
  · next none =>
    rw [none]
    exact iff_of_false nofun nofun
  · split
    · next found =>
      rw [found, Except.error.injEq, Diagnostic.duplicateVariant.injEq, Option.some.injEq]
    · next distinct =>
      rw [distinct]
      exact iff_of_false nofun nofun

/-- A plan is valid if it has variants, and no two of them with the same key. -/
theorem validate_eq_ok_iff {p : Plan} :
    p.validate = .ok () ↔ p.variants ≠ [] ∧ (p.variants.map VariantDecl.key).Nodup := by
  constructor
  · exact fun valid => ⟨variants_ne_nil_of_validate valid, nodup_keys_of_validate valid⟩
  · rintro ⟨some, distinct⟩
    have none : firstRepeated [] (p.variants.map VariantDecl.key) = none :=
      firstRepeated_eq_none_iff.2 ⟨distinct, fun _ _ => List.not_mem_nil⟩
    unfold validate
    rw [if_neg some, none]

/-- Nothing else is ever said of a plan. -/
theorem validate_cases (p : Plan) :
    (p.variants = [] ∧ p.validate = .error .noVariants) ∨
    (p.variants ≠ [] ∧ (p.validate = .ok () ∨
      ∃ key, p.validate = .error (.duplicateVariant key))) := by
  unfold validate
  split
  · next none => exact .inl ⟨none, rfl⟩
  · next some =>
    split
    · next key _ => exact .inr ⟨some, .inr ⟨key, rfl⟩⟩
    · exact .inr ⟨some, .inl rfl⟩

/-- **Validation is exact, and agrees with the registry.**  A plan is valid if it has variants and
their keys are distinct.  A plan without variants is refused for having none, and any other plan
that is refused is refused for its first repeated key.  Whatever is known about the user, a plan
with variants is valid just when its registry has as many variants as the plan declares. -/
theorem validate_exact (p : Plan) :
    (p.validate = .ok () ↔ p.variants ≠ [] ∧ (p.variants.map VariantDecl.key).Nodup) ∧
    (p.validate = .error .noVariants ↔ p.variants = []) ∧
    (∀ key, p.validate = .error (.duplicateVariant key) ↔ p.FirstRepeats key) ∧
    (p.variants ≠ [] ↔ p.validate = .ok () ∨
      ∃ key, p.validate = .error (.duplicateVariant key)) ∧
    ∀ probe : Probe, p.validate = .ok () ↔ p.variants ≠ [] ∧
      (p.registry probe.override?).variants.length = p.variants.length := by
  refine ⟨validate_eq_ok_iff, ?_, fun _ => validate_eq_duplicateVariant_iff, ?_, fun probe => ?_⟩
  · obtain ⟨none, told⟩ | ⟨some, told | ⟨key, told⟩⟩ := p.validate_cases
    · exact iff_of_true told none
    · exact iff_of_false (told ▸ nofun) some
    · exact iff_of_false (told ▸ nofun) some
  · obtain ⟨none, told⟩ | ⟨some, told⟩ := p.validate_cases
    · rw [told]
      exact iff_of_false (not_not_intro none) nofun
    · exact iff_of_true some told
  · have declarations : p.declared.length = p.variants.length := List.length_map _
    rw [validate_eq_ok_iff, length_variants_registry, ← declarations, length_declaredNames_eq_iff,
      keys_declared]

/-- Keys can meet without a name in play. -/
example : validate ⟨⟨none, none, none⟩, [⟨none, "arm-gcc", "Debug", none⟩,
    ⟨none, "clang", "Debug", none⟩, ⟨none, "arm", "gcc-Debug", none⟩], .empty⟩
    = .error (.duplicateVariant "arm-gcc-Debug") := by
  decide +kernel

end Plan

end BuildVariants
