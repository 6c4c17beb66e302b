import BuildVariants.Keyed
import BuildVariants.Variables
import BuildVariants.Variant

/-!
# The registry

All variants with their resolved arguments, the run targets, and what all of them share: the
source directory, the environment and the `Layout` that gives every variant its build directory.  A
run target says which build target to build, which executable to run then, with which arguments, and
in which directory below the build directory.

Variants are declared one after the other into a keyed list, so a name that is declared again
keeps its first place and takes its last meaning; run targets are kept as they were given, and the
first one of a name is the one that is found.
-/

namespace BuildVariants

/-! ## Build directories -/

/-- What the build directory of a variant may depend on. -/
structure Selection where
  /-- The name of the variant. -/
  variant : String
  /-- Its toolchain. -/
  toolchain : String
  /-- Its configuration. -/
  config : String
  deriving DecidableEq, Repr

/-- A rule for build directories. -/
abbrev Layout := Selection → Path

/-- The directory that holds the build directories unless a plan says otherwise. -/
def defaultBuildRoot : Path := ⟨"build"⟩

/-- One build directory for each configuration; variants with the same configuration share it. -/
def byConfig (root : Path) : Layout :=
  fun s => root.child s.config

/-! ## Run targets -/

/-- Something to build and then to run. -/
structure Target where
  /-- The name of the run target. -/
  name : String
  /-- The build target that makes the executable. -/
  build : String
  /-- The executable, seen from the working directory. -/
  run : Path
  /-- The arguments of the executable. -/
  args : ArgumentText
  /-- The working directory, seen from the build directory. -/
  cwd : Path
  deriving DecidableEq, Repr

/-- A target that builds and runs what its name says, without arguments, in the build directory
itself. -/
def Target.ofName (name : String) : Target :=
  { name, build := name, run := ⟨"./" ++ name⟩, args := .list [], cwd := ⟨"."⟩ }

/-! ## Shared options -/

/-- What all variants share. -/
structure Shared where
  /-- The source directory. -/
  sourceDir : Path
  /-- Where the build directories are. -/
  layout : Layout
  /-- The environment of every process. -/
  env : Variables

/-- The source directory unless a plan says otherwise. -/
def defaultSourceDir : Path := ⟨"."⟩

/-- The environment unless a plan says otherwise: suppressions for the leak sanitizer, seen from a
directory below a build directory. -/
def defaultEnv : Variables :=
  .ofList [("LSAN_OPTIONS", "suppressions=../../../lsan_suppress.txt")]

/-- The shared options unless a plan says otherwise. -/
def Shared.default : Shared :=
  ⟨defaultSourceDir, byConfig defaultBuildRoot, defaultEnv⟩

/-! ## Declaring -/

/-- A declared variant. -/
structure Variant where
  /-- Its name. -/
  name : String
  /-- Its arguments. -/
  resolved : Resolved
  deriving DecidableEq, Repr

/-- What a variant's build directory may depend on. -/
def Variant.selection (v : Variant) : Selection :=
  ⟨v.name, v.resolved.request.toolchain, v.resolved.request.config⟩

/-- Variants and run targets by name. -/
structure Registry where
  /-- What all variants share. -/
  shared : Shared
  /-- The resolved variants under their names. -/
  resolved : Keyed Resolved
  /-- The run targets. -/
  targets : List Target

/-- What the log says about a declaration. -/
def declarationRecords (override? : Option Path) (name : String) (request : Request) :
    List LogRecord :=
  [overrideRecord override?,
   ⟨.debug, "variant " ++ name ++ ": " ++ (Resolved.mk request override?).line⟩]

namespace Registry

/-- Resolves every declared variant and puts it under its name. -/
def construct (override? : Option Path) (shared : Shared) (declared : List (String × Request))
    (targets : List Target) : Registry :=
  ⟨shared, .ofList (declared.map fun d => (d.1, ⟨d.2, override?⟩)), targets⟩

/-- What the log says while a registry is constructed. -/
def constructionLog (override? : Option Path) (declared : List (String × Request)) :
    List LogRecord :=
  declared.flatMap fun d => declarationRecords override? d.1 d.2

/-! ## Looking up -/

/-- The variants in order. -/
def variants (r : Registry) : List Variant :=
  r.resolved.entries.map fun e => ⟨e.1, e.2⟩

/-- The variant of a name. -/
def variant (r : Registry) (name : String) : Except Diagnostic Variant :=
  match r.resolved.lookup? name with
  | some v => .ok ⟨name, v⟩
  | none => .error (.unknownVariant name r.resolved.keys)

/-- The variant that was declared first. -/
def defaultVariant (r : Registry) : Except Diagnostic Variant :=
  match r.variants with
  | v :: _ => .ok v
  | [] => .error .noVariants

/-- The variant of a name, or the one that was declared first if no name is given. -/
def variantOrDefault (r : Registry) : Option String → Except Diagnostic Variant
  | some name => r.variant name
  | none => r.defaultVariant

/-- The variant that is meant is one of the variants. -/
theorem mem_variants_of_variantOrDefault {r : Registry} {variant? : Option String} {v : Variant}
    (h : r.variantOrDefault variant? = .ok v) : v ∈ r.variants := by
  cases variant? with
  | none =>
    change r.defaultVariant = .ok v at h
    unfold defaultVariant at h
    split at h
    · next is =>
      cases h
      rw [is]
      exact List.mem_cons_self
    · cases h
  | some name =>
    change r.variant name = .ok v at h
    unfold variant at h
    split at h
    · next found =>
      cases h
      exact List.mem_map.2 ⟨_, Keyed.mem_of_lookup? found, rfl⟩
    · cases h

/-- The run target of a name; the first one if there are several. -/
def target (r : Registry) (name : String) : Except Diagnostic Target :=
  match r.targets.find? (·.name = name) with
  | some t => .ok t
  | none => .error (.unknownTarget name (r.targets.map Target.name))

/-- The build directory of a variant. -/
def buildDir (r : Registry) (v : Variant) : Path :=
  r.shared.layout v.selection

end Registry

/-! ## The registry without a plan -/

/-- The variants unless a plan says otherwise. -/
def defaultVariants : List (String × Request) :=
  ["Debug", "Sanitize", "Release"].map fun config =>
    let request : Request := ⟨"clang", config, none⟩
    (request.name, request)

/-- The run targets unless a plan says otherwise. -/
def defaultTargets : List Target :=
  [{ name := "c2ffi", build := "c2ffi", run := ⟨"./c2ffi"⟩,
     args := .line "/usr/include/stdio.h", cwd := ⟨"bin"⟩ }]

end BuildVariants
