import BuildVariants.Search

/-!
# Hosts that correspond

A correspondence relates the requests to one host with those to another: it respects how requests
are put together, and it relates the requests that look around.  What is written for any host and
does no more than look around is then related to itself; that is so of the whole search for `cmake`
(`Host.Correspondence.findCMake`).
-/

namespace BuildVariants

/-- A relation between the requests to two hosts. -/
structure Host.Correspondence (m n : Type → Type) [Monad m] [Host m] [Monad n] [Host n] where
  /-- The two requests are related. -/
  Related : {α : Type} → m α → n α → Prop
  /-- Two requests that only give the same result are related. -/
  pure : ∀ {α : Type} (a : α), Related (Pure.pure a) (Pure.pure a)
  /-- Related requests get the same result, and may go on with it. -/
  bind : ∀ {α β : Type} {x : m α} {y : n α} {f : α → m β} {g : α → n β},
    Related x y → (∀ a, Related (f a) (g a)) → Related (x >>= f) (y >>= g)
  /-- Both hosts have the same variables. -/
  environment : ∀ name, Related (Host.environment name) (Host.environment name)
  /-- Both programs are in the same directory. -/
  currentDirectory : Related Host.currentDirectory Host.currentDirectory
  /-- Both hosts show the same kind of entry at a path. -/
  entryKind? : ∀ p, Related (Host.entryKind? p) (Host.entryKind? p)

namespace Host.Correspondence

variable {m n : Type → Type} [Monad m] [Host m] [Monad n] [Host n] (R : Correspondence m n)

theorem pathExists (p : Path) : R.Related (Host.pathExists p) (Host.pathExists p) :=
  R.bind (R.entryKind? p) fun _ => R.pure _

theorem isFile (p : Path) : R.Related (Host.isFile p) (Host.isFile p) :=
  R.bind (R.entryKind? p) fun _ => R.pure _

theorem isExecutable (p : Path) : R.Related (Host.isExecutable p) (Host.isExecutable p) :=
  R.bind (R.entryKind? p) fun _ => R.pure _

/-- The search stops at the first hit on both sides, as both see the same. -/
theorem firstExecutable (ps : List Path) :
    R.Related (Host.firstExecutable ps) (Host.firstExecutable ps) := by
  induction ps with
  | nil => exact R.pure none
  | cons p ps ih =>
    refine R.bind (R.isExecutable p) fun found => ?_
    cases found with
    | true => exact R.pure (some p)
    | false => exact ih

/-- The home directory comes from the environment alone. -/
theorem home? : R.Related Host.home? Host.home? := by
  refine R.bind (R.environment "HOME") fun home => ?_
  cases home <;> exact R.pure _

/-- The places to search are named in the same order; only the environment is consulted. -/
theorem searchCandidates (here? : Option Path) (name : Path) :
    R.Related (Host.searchCandidates here? name) (Host.searchCandidates here? name) := by
  refine R.bind (R.environment "PATH") fun list => ?_
  cases list with
  | none => exact R.pure []
  | some list => exact R.bind R.home? fun _ => R.pure _

/-- A name with a slash is looked up where the program is, any other one on the search path. -/
theorem candidates (name : Path) : R.Related (Host.candidates name) (Host.candidates name) := by
  refine R.bind R.currentDirectory fun here => ?_
  cases here with
  | error e => exact R.searchCandidates none name
  | ok here =>
    show R.Related (if _ then _ else _) (if _ then _ else _)
    split
    · exact R.pure _
    · exact R.searchCandidates (some here) name

/-- The search for a program ends with the same program on both sides. -/
theorem findExecutable (name : String) :
    R.Related (Host.findExecutable name) (Host.findExecutable name) := by
  show R.Related (if _ then _ else _) (if _ then _ else _)
  split
  · exact R.pure none
  · exact R.bind (R.candidates _) fun paths => R.firstExecutable paths

/-- Looking for `cmake` is related to itself. -/
theorem findCMake : R.Related Host.findCMake Host.findCMake := by
  refine R.bind (R.environment "CMAKE") fun named => ?_
  cases named with
  | none => exact R.findExecutable "cmake"
  | some name =>
    refine R.bind (R.findExecutable name) fun found => ?_
    cases found with
    | none => exact R.findExecutable "cmake"
    | some path => exact R.pure (some path)

end Host.Correspondence

end BuildVariants
