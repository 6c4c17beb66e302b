import BuildVariants.Proofs.Plan.Registration
import Mathlib.Data.List.Basic
import Mathlib.Data.List.Induction

/-!
# Declaring variants

A registry is made of declarations, one after the other, and a name may be declared more than once.
One more declaration puts its request under its name, which goes to the end unless it is there
already (`Registry.resolved_construct_concat`), and writes its records into the log
(`Registry.constructionLog_concat`).  By induction, taking away the last declaration, a registry is
what the declarations say as a whole: every name where it first comes (`declaredNames`), with the
request that comes last (`lastRequest?`).
-/

namespace BuildVariants

/-! ## What is known about the user -/

/-- What a request is resolved to. -/
def Probe.resolve (p : Probe) (request : Request) : Resolved :=
  ⟨request, p.override?⟩

/-- A home directory, and paths of which it is known that something stands there. -/
def Probe.ofFiles (home : Option Path) (files : List Path) : Probe :=
  ⟨home, fun p => files.any fun f => decide (f.Same p)⟩

/-- There is no override if there is no home, or no such file in it. -/
theorem Probe.override?_eq_none_iff (p : Probe) :
    p.override? = none ↔ ∀ home, p.home = some home → p.has (overrideFile home) = false := by
  unfold override?
  cases p.home with
  | none => exact iff_of_true rfl nofun
  | some home =>
    constructor
    · rintro missing _ ⟨⟩
      by_contra there
      rw [Bool.not_eq_false] at there
      simp [there] at missing
    · intro missing
      simp [missing home rfl]

/-- There are no overrides if the home is not known, or none of the paths is their place. -/
theorem Probe.override?_ofFiles_eq_none_iff (home : Option Path) (files : List Path) :
    (ofFiles home files).override? = none ↔
      ∀ h, home = some h → ∀ f ∈ files, ¬ f.Same (overrideFile h) := by
  rw [override?_eq_none_iff]
  refine forall_congr' fun h => imp_congr_right fun _ => ?_
  show (files.any fun f => decide (f.Same (overrideFile h))) = false ↔ _
  simp

/-! ## What the declarations say -/

/-- The names that are declared, each where it first comes. -/
def declaredNames (declared : List (String × Request)) : List String :=
  (declared.map Prod.fst).eraseDups

/-- The request that is declared last under a name. -/
def lastRequest? (declared : List (String × Request)) (name : String) : Option Request :=
  declared.reverse.lookup name

/-- The variants that are declared. -/
def declaredVariants (p : Probe) (declared : List (String × Request)) : List Variant :=
  (declaredNames declared).filterMap fun name =>
    (lastRequest? declared name).map fun request => ⟨name, p.resolve request⟩

theorem mem_declaredNames {declared : List (String × Request)} {name : String} :
    name ∈ declaredNames declared ↔ name ∈ declared.map Prod.fst :=
  List.mem_eraseDups

/-- One more declaration adds its name at the end, unless it is there. -/
theorem declaredNames_concat (declared : List (String × Request)) (d : String × Request) :
    declaredNames (declared ++ [d]) =
      if d.1 ∈ declaredNames declared then declaredNames declared
      else declaredNames declared ++ [d.1] := by
  have added : declaredNames (declared ++ [d])
      = declaredNames declared ++ ([d.1].removeAll (declared.map Prod.fst)).eraseDups := by
    unfold declaredNames
    rw [List.map_append, List.eraseDups_append]
    rfl
  rw [added]
  split
  · next old => simp [List.removeAll, mem_declaredNames.1 old]
  · next new =>
    rw [mem_declaredNames] at new
    simp [List.removeAll, new, List.eraseDups_cons]

/-- One more declaration says what its name means. -/
theorem lastRequest?_concat (declared : List (String × Request)) (d : String × Request)
    (name : String) : lastRequest? (declared ++ [d]) name =
      if name = d.1 then some d.2 else lastRequest? declared name := by
  unfold lastRequest?
  rw [List.reverse_concat, List.lookup_cons]
  split
  · next same => rw [if_pos (beq_iff_eq.1 same)]
  · next other => rw [if_neg (beq_eq_false_iff_ne.1 other)]

/-- The last declaration of a name has none of that name behind it. -/
theorem lastRequest?_eq_some_iff {declared : List (String × Request)} {name : String}
    {request : Request} : lastRequest? declared name = some request ↔
      ∃ before after, declared = before ++ (name, request) :: after ∧
        name ∉ after.map Prod.fst := by
  have notMem (rest : List (String × Request)) :
      (∀ d ∈ rest, (name != d.1) = true) ↔ name ∉ rest.reverse.map Prod.fst := by
    simp only [bne_iff_ne, List.map_reverse, List.mem_reverse, List.mem_map, not_exists, not_and]
    exact forall₂_congr fun d _ => ne_comm
  unfold lastRequest?
  rw [List.lookup_eq_some_iff]
  constructor
  · rintro ⟨before, after, split, new⟩
    refine ⟨after.reverse, before.reverse, ?_, (notMem before).1 new⟩
    rw [← List.reverse_reverse declared, split, List.reverse_append, List.reverse_cons,
      List.append_assoc]
    rfl
  · rintro ⟨before, after, rfl, new⟩
    refine ⟨after.reverse, before.reverse, ?_, (notMem after.reverse).2 ?_⟩
    · rw [List.reverse_append, List.reverse_cons, List.append_assoc]
      rfl
    · rwa [List.reverse_reverse]

/-! ## What the registry holds -/

/-- A keyed list is read off its keys. -/
theorem Keyed.filterMap_keys {α : Type} (t : Keyed α) :
    (t.keys.filterMap fun k => (t.lookup? k).map fun a => (k, a)) = t.entries := by
  unfold keys
  rw [List.filterMap_map]
  have each : ∀ e ∈ t.entries,
      ((fun k => (t.lookup? k).map fun a => (k, a)) ∘ Prod.fst) e = some e := by
    intro e he
    show ((t.lookup? e.1).map fun a => (e.1, a)) = some e
    rw [lookup?_of_mem he]
    rfl
  rw [List.filterMap_congr each, List.filterMap_some]

theorem Keyed.lookup?_eq_none {α : Type} {t : Keyed α} {key : String} (new : key ∉ t.keys) :
    t.lookup? key = none := by
  cases found : t.lookup? key with
  | none => rfl
  | some value => exact absurd (List.mem_map_of_mem (mem_of_lookup? found)) new

theorem warnings_append (records more : List LogRecord) :
    warnings (records ++ more) = warnings records ++ warnings more := by
  unfold warnings
  rw [List.filter_append, List.map_append]

namespace Registry

variable (p : Probe) (shared : Shared) (targets : List Target)

/-- **One more declaration** puts what it is resolved to under its name. -/
theorem resolved_construct_concat (declared : List (String × Request)) (d : String × Request) :
    (construct p.override? shared (declared ++ [d]) targets).resolved
      = (construct p.override? shared declared targets).resolved.insert d.1 (p.resolve d.2) := by
  show Keyed.ofList _ = (Keyed.ofList _).insert _ _
  rw [List.map_append]
  exact Keyed.ofList_concat _ _

/-- One more declaration writes its records behind those that are there. -/
theorem constructionLog_concat (declared : List (String × Request)) (d : String × Request) :
    constructionLog p.override? (declared ++ [d])
      = constructionLog p.override? declared ++ declarationRecords p.override? d.1 d.2 := by
  unfold constructionLog
  rw [List.flatMap_append, List.flatMap_singleton]

/-- A declaration gives one warning if there is no override, and none otherwise. -/
theorem warnings_declarationRecords (d : String × Request) :
    warnings (declarationRecords p.override? d.1 d.2)
      = if p.override? = none then [missingOverride] else [] := by
  cases p.override? <;> rfl

/-- The names of a registry are those that were declared. -/
theorem keys_construct (declared : List (String × Request)) :
    (construct p.override? shared declared targets).resolved.keys = declaredNames declared := by
  induction declared using List.reverseRecOn with
  | nil => rfl
  | append_singleton declared d ih =>
    rw [resolved_construct_concat, Keyed.keys_insert, ih, declaredNames_concat]

/-- A name means what it was last declared to be. -/
theorem lookup?_construct (declared : List (String × Request)) (name : String) :
    (construct p.override? shared declared targets).resolved.lookup? name
      = (lastRequest? declared name).map p.resolve := by
  induction declared using List.reverseRecOn with
  | nil => rfl
  | append_singleton declared d ih =>
    rw [resolved_construct_concat, Keyed.lookup?_insert, ih, lastRequest?_concat]
    split <;> rfl

/-- Every declaration is warned of, or none. -/
theorem warnings_constructionLog (declared : List (String × Request)) :
    warnings (constructionLog p.override? declared)
      = if p.override? = none then List.replicate declared.length missingOverride else [] := by
  induction declared using List.reverseRecOn with
  | nil => split <;> rfl
  | append_singleton declared d ih =>
    rw [constructionLog_concat, warnings_append, ih, warnings_declarationRecords]
    split
    · rw [List.length_append, List.length_singleton, List.replicate_succ']
    · rfl

/-- A registry holds the declared variants. -/
theorem variants_construct (declared : List (String × Request)) :
    (construct p.override? shared declared targets).variants = declaredVariants p declared := by
  unfold variants declaredVariants
  rw [← Keyed.filterMap_keys, keys_construct, List.map_filterMap]
  refine List.filterMap_congr fun name _ => ?_
  rw [lookup?_construct, Option.map_map, Option.map_map]
  rfl

variable {p} {r : Registry} {declared : List (String × Request)}

/-- What is declared last is what a variant holds. -/
theorem exists_last_of_mem_declaredVariants {v : Variant} (mem : v ∈ declaredVariants p declared) :
    ∃ request before after, v.resolved = p.resolve request ∧
      declared = before ++ (v.name, request) :: after ∧ v.name ∉ after.map Prod.fst := by
  obtain ⟨name, -, found⟩ := List.mem_filterMap.1 mem
  obtain ⟨request, last, rfl⟩ := Option.map_eq_some_iff.1 found
  obtain ⟨before, after, split, new⟩ := lastRequest?_eq_some_iff.1 last
  exact ⟨request, before, after, rfl, split, new⟩

/-- A registry holds what was declared, and finds it. -/
structure Holds (r : Registry) (p : Probe) (declared : List (String × Request)) : Prop where
  /-- Its variants are the declared ones. -/
  variants : r.variants = declaredVariants p declared
  /-- Their names are the declared ones, each where it first comes. -/
  names : r.variants.map Variant.name = declaredNames declared
  /-- No name stands twice. -/
  distinct : (declaredNames declared).Nodup
  /-- A variant has what its name was last declared to be, resolved. -/
  last : ∀ v ∈ r.variants, ∃ request before after, v.resolved = p.resolve request ∧
    declared = before ++ (v.name, request) :: after ∧ v.name ∉ after.map Prod.fst
  /-- A name that was declared is found, and stands for its variant. -/
  found : ∀ name ∈ declared.map Prod.fst, ∃ v ∈ r.variants, v.name = name ∧ r.variant name = .ok v
  /-- Any other name is not found; the names that are there are told. -/
  missing : ∀ name ∉ declared.map Prod.fst,
    r.variant name = .error (.unknownVariant name (declaredNames declared))
  /-- The default is the variant whose name was declared first. -/
  default : r.defaultVariant = (declaredNames declared).head?.elim (.error .noVariants) r.variant

/-- What the registry holds is what was declared, name by name. -/
theorem holds_construct (p : Probe) (shared : Shared) (declared : List (String × Request))
    (targets : List Target) :
    (construct p.override? shared declared targets).Holds p declared := by
  have variants := variants_construct p shared targets declared
  have keys := keys_construct p shared targets declared
  -- The look-ups follow from what is known of the variants and the keys.
  generalize construct p.override? shared declared targets = r at variants keys
  have names : r.variants.map Variant.name = declaredNames declared := by
    rw [← keys]
    unfold Registry.variants Keyed.keys
    rw [List.map_map]
    rfl
  have found : ∀ name ∈ declared.map Prod.fst,
      ∃ v ∈ r.variants, v.name = name ∧ r.variant name = .ok v := by
    intro name mem
    rw [← mem_declaredNames, ← names] at mem
    obtain ⟨v, hv, rfl⟩ := List.mem_map.1 mem
    exact ⟨v, hv, rfl, variant_of_mem hv⟩
  refine ⟨variants, names, names ▸ r.nodup_names_variants, ?_, found, ?_, ?_⟩
  · rw [variants]
    exact fun v => exists_last_of_mem_declaredVariants
  · intro name new
    rw [← mem_declaredNames, ← keys] at new
    unfold variant
    rw [Keyed.lookup?_eq_none new, keys]
  · rw [← names]
    unfold defaultVariant
    cases is : r.variants with
    | nil => rfl
    | cons v more => exact (variant_of_mem (is ▸ List.mem_cons_self)).symm

/-- **A registry is what was declared.**  However often the names are repeated, it holds every name
once, with what was declared last.  If there are package overrides all of its variants have them and
nothing is warned of; otherwise none of its variants has them, and each declaration, replaced or
not, is warned of.  There are none if the home is not known or nothing stands at their place; where
the files are listed, a file stands there if its path is the same. -/
theorem construct_declared (p : Probe) (shared : Shared) (declared : List (String × Request))
    (targets : List Target) :
    let r := construct p.override? shared declared targets
    let warned := warnings (constructionLog p.override? declared)
    r.Holds p declared ∧ r.shared = shared ∧ r.targets = targets ∧
    (match p.override? with
      | none => warned = List.replicate declared.length missingOverride ∧
          ∀ v ∈ r.variants, v.resolved.override? = none
      | some file => warned = [] ∧ ∀ v ∈ r.variants, v.resolved.override? = some file) ∧
    (p.override? = none ↔ ∀ home, p.home = some home → p.has (overrideFile home) = false) ∧
    ∀ (home : Option Path) (files : List Path), (Probe.ofFiles home files).override? = none ↔
      ∀ h, home = some h → ∀ f ∈ files, ¬ f.Same (overrideFile h) := by
  intro r warned
  have holds : r.Holds p declared := holds_construct p shared declared targets
  have carried : ∀ v ∈ r.variants, v.resolved.override? = p.override? := by
    intro v hv
    obtain ⟨request, before, after, is, -⟩ := holds.last v hv
    rw [is]
    rfl
  have log : warned = if p.override? = none then _ else [] := warnings_constructionLog p declared
  refine ⟨holds, rfl, rfl, ?_, p.override?_eq_none_iff, Probe.override?_ofFiles_eq_none_iff⟩
  split
  · next missing =>
    rw [if_pos missing] at log
    exact ⟨log, fun v hv => (carried v hv).trans missing⟩
  · next file is =>
    have there : p.override? ≠ none := is ▸ nofun
    rw [if_neg there] at log
    exact ⟨log, fun v hv => (carried v hv).trans is⟩

/-- A name that is declared again keeps its place and takes its last meaning. -/
example : (construct none .default [("a", ⟨"clang", "Debug", none⟩),
    ("b", ⟨"clang", "Release", none⟩), ("a", ⟨"gcc", "Debug", none⟩)] []).variants
    = [⟨"a", ⟨⟨"gcc", "Debug", none⟩, none⟩⟩, ⟨"b", ⟨⟨"clang", "Release", none⟩, none⟩⟩] := by
  decide +kernel

end Registry

end BuildVariants
