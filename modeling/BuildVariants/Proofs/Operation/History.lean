import BuildVariants.Proofs.FileTree.Files
import BuildVariants.Proofs.FileTree.Following
import BuildVariants.Proofs.Operation.Call
import BuildVariants.Proofs.Simulation.Triple

/-!
# What the build directories have gone through

A build directory counts as configured when it holds a `CMakeCache.txt`, whichever variant it was
configured for.  `lastConfigure` reads off the events of a run which arguments the directory at a
location was configured with last, and `Task.History` is the invariant of a run: as long as nothing
but a successful configuring step makes a cache (`Children.CacheByConfigure`), a cache that is there
comes from a step of the run, and every build that was started came after such a step.

The invariant is about locations and not about paths, because two variants may name one directory
in different words.  All locations are seen from the directory where the program was started.
-/

namespace BuildVariants

/-- The file that shows that a build directory has been configured. -/
def cacheName : String := "CMakeCache.txt"

/-! ## Commands that configure and commands that build -/

namespace Command

/-- The build directory that a command configures, and the arguments of the variant. -/
def configured? (c : Command) : Option (Path × List String) :=
  match c.cwd?, c.args with
  | none, "-S" :: _ :: "-B" :: directory :: words => some (⟨directory⟩, words)
  | _, _ => none

/-- The build directory that a command builds. -/
def built? (c : Command) : Option Path :=
  match c.cwd?, c.args with
  | none, "--build" :: directory :: _ => some ⟨directory⟩
  | _, _ => none

end Command

/-- The build directory that a process has configured with success, and the arguments. -/
def Event.configured? : Event → Option (Path × List String)
  | ran c _ (.ok exit) => if exit.ending.isSuccess then c.configured? else none
  | _ => none

theorem Event.configured?_ran_ok (c : Command) (wiring : Wiring) (exit : Exit) :
    (Event.ran c wiring (.ok exit)).configured?
      = if exit.ending.isSuccess then c.configured? else none := rfl

/-- The arguments a directory was configured with, after one more event. -/
def configureStep (here l : Location) (last : Option (List String)) (e : Event) :
    Option (List String) :=
  match e.configured? with
  | some (directory, words) => if directory.locationFrom here = l then some words else last
  | none => last

/-- The arguments that the directory at a location was configured with by the last process that
did so with success. -/
def lastConfigure (here l : Location) (events : List Event) : Option (List String) :=
  events.foldl (configureStep here l) none

/-- One more event decides about the last configuration of a location, or leaves it as it was. -/
theorem lastConfigure_snoc (here l : Location) (events : List Event) (e : Event) :
    lastConfigure here l (events ++ [e])
      = configureStep here l (lastConfigure here l events) e := by
  unfold lastConfigure
  rw [List.foldl_append]
  rfl

/-! ## Caches -/

/-- The directory at a location holds a cache. -/
def FileTree.HasCache (t : FileTree) (l : Location) : Prop :=
  ∃ contents executable, t.get? (l ++ [cacheName]) = some (.file contents executable)

theorem FileTree.NoNewFile.hasCache {t t' : FileTree} (h : t.NoNewFile t') {l : Location}
    (cache : t'.HasCache l) : t.HasCache l := by
  obtain ⟨contents, executable, there⟩ := cache
  exact ⟨contents, executable, h _ _ _ there⟩

/-- The cache of a directory stands in it. -/
theorem locationFrom_cache (d : Path) (here : Location) :
    (d.child cacheName).locationFrom here = d.locationFrom here ++ [cacheName] := by
  unfold Path.child
  rw [Path.locationFrom_join]
  rfl

/-- At these locations a cache is made by configuring steps only: a process that leaves one where
there was none has been told to configure the directory, and has succeeded. -/
def Children.CacheByConfigure (children : Children) (locations : List Location) : Prop :=
  ∀ n c cwd t exit t', children n c cwd t = .ok (exit, t') → ∀ l ∈ locations, t'.HasCache l →
    t.HasCache l ∨ exit.ending.isSuccess ∧ ∃ d words contents executable,
      c.configured? = some (d, words) ∧
      t'.resolve cwd (d.child cacheName) = .ok (⟨l ++ [cacheName], 0⟩, .file contents executable)

/-! ## The invariant -/

namespace Task

variable (t : Task)

/-- Where the build directory of a variant is. -/
def buildLocation (here : Location) (v : Variant) : Location :=
  (t.buildDir v).locationFrom here

/-- Where the build directories of the variants are. -/
def buildLocations (here : Location) : List Location :=
  t.registry.variants.map (t.buildLocation here)

/-- The directory at a location was last configured for a variant whose build directory it is. -/
def ConfiguredAt (here : Location) (events : List Event) (l : Location) : Prop :=
  ∃ u ∈ t.registry.variants, t.buildLocation here u = l ∧
    ∃ words, u.resolved.words = .ok words ∧ lastConfigure here l events = some words

/-- Whatever a command configures, it does so for a variant. -/
def Issues (c : Command) : Prop :=
  ∀ d words, c.configured? = some (d, words) →
    ∃ u ∈ t.registry.variants, t.buildDir u = d ∧ u.resolved.words = .ok words

/-- What is true of a run of the program that was started in the directory `here`. -/
structure History (here : Location) (w : World) : Prop where
  /-- The program is where it was started. -/
  cwd : w.cwd.StoodAt here
  /-- The caches of build directories come from the run. -/
  cached : ∀ l ∈ t.buildLocations here, w.tree.HasCache l → t.ConfiguredAt here w.events l
  /-- What was built had been configured. -/
  built : ∀ before c wiring result, before ++ [.ran c wiring result] <+: w.events →
    ∀ v ∈ t.registry.variants, c.built? = some (t.buildDir v) →
      t.ConfiguredAt here before (t.buildLocation here v)

variable {t} {here : Location} {w w' : World}

/-- What a variant was configured for stays so, or another variant is configured there. -/
theorem ConfiguredAt.snoc {events : List Event} {l : Location} (h : t.ConfiguredAt here events l)
    {e : Event} (he : ∀ d words, e.configured? = some (d, words) →
      ∃ u ∈ t.registry.variants, t.buildDir u = d ∧ u.resolved.words = .ok words) :
    t.ConfiguredAt here (events ++ [e]) l := by
  obtain ⟨u, hu, place, words, resolved, last⟩ := h
  unfold ConfiguredAt
  rw [lastConfigure_snoc, last]
  unfold configureStep
  split
  · next d words' is =>
    split
    · next same =>
      obtain ⟨u', hu', rfl, resolved'⟩ := he d words' is
      exact ⟨u', hu', same, words', resolved', rfl⟩
    · exact ⟨u, hu, place, words, resolved, rfl⟩
  · exact ⟨u, hu, place, words, resolved, rfl⟩

/-- Messages do not make a configuration another one. -/
theorem ConfiguredAt.of_tells {l : Location} (h : t.ConfiguredAt here w.events l)
    (tells : World.Tells w w') : t.ConfiguredAt here w'.events l :=
  tells.events_induction (t.ConfiguredAt here · l) h fun _ _ kept => kept.snoc nofun

/-- A process that was tried is not the last event once something has been written. -/
theorem ran_prefix_of_emitted {before events : List Event} {c : Command} {wiring : Wiring}
    {result : Except OsError Exit} {e : Emission}
    (h : before ++ [.ran c wiring result] <+: events ++ [.emitted e]) :
    before ++ [.ran c wiring result] <+: events := by
  rcases List.prefix_concat_iff.1 h with ends | inside
  · have := List.append_inj_right' ends rfl
    cases this
  · exact inside

/-- The invariant does not mind messages. -/
theorem lasting_history : World.Lasting (t.History here) := by
  intro w w' tells h
  refine ⟨?_, ?_, ?_⟩
  · rw [tells.cwd]
    exact h.cwd
  · intro l hl cache
    rw [tells.tree] at cache
    exact (h.cached l hl cache).of_tells tells
  · intro before c wiring result
    have started := tells.events_induction
      (fun events => before ++ [.ran c wiring result] <+: events →
        before ++ [.ran c wiring result] <+: w.events) id
      fun _ _ earlier pre => earlier (ran_prefix_of_emitted pre)
    exact fun pre => h.built before c wiring result (started pre)

/-- Making and removing directories keeps the invariant. -/
theorem History.withTree {tree : FileTree} (h : t.History here w)
    (same : w.tree.NoNewFile tree) : t.History here (w.withTree tree) := by
  refine ⟨h.cwd.settle tree, ?_, h.built⟩
  intro l hl cache
  exact h.cached l hl (same.hasCache cache)

/-- A directory that the host finds configured has been configured in the run. -/
theorem History.configuredAt_of_isConfigured {s : Setting} {v : Variant} (h : t.History here w)
    (hv : v ∈ t.registry.variants)
    (found : ((Host.isConfigured (t.buildDir v) : Simulation _) s w).1 = true) :
    t.ConfiguredAt here w.events (t.buildLocation here v) := by
  refine h.cached _ (List.mem_map_of_mem hv) ?_
  obtain ⟨executable, kind⟩ :=
    (Simulation.isFile_iff s w ((t.buildDir v).child cacheName)).1 found
  unfold FileTree.kind? at kind
  split at kind
  · next q entry resolved =>
    cases entry with
    | directory => cases kind
    | file contents executable' =>
      have there := (FileTree.location_of_resolve_file h.cwd resolved).2
      rw [locationFrom_cache] at there
      exact ⟨contents, executable', there⟩
  · cases kind

/-- **One process keeps the invariant**: a command that configures does so for a variant, and one
that builds does so in a directory that has been configured. -/
theorem History.run {s : Setting} {c : Command} (wiring : Wiring)
    (only : s.children.CacheByConfigure (t.buildLocations here)) (h : t.History here w)
    (issued : t.Issues c)
    (ready : ∀ v ∈ t.registry.variants, c.built? = some (t.buildDir v) →
      t.ConfiguredAt here w.events (t.buildLocation here v)) :
    t.History here (Simulation.run c wiring s w).2 := by
  -- What was built is the same for either outcome.
  have built (result : Except OsError Exit) : ∀ before c' wiring' result',
      before ++ [.ran c' wiring' result'] <+: w.events ++ [.ran c wiring result] →
      ∀ v ∈ t.registry.variants, c'.built? = some (t.buildDir v) →
        t.ConfiguredAt here before (t.buildLocation here v) := by
    intro before c' wiring' result' pre v hv builds
    rcases List.prefix_concat_iff.1 pre with ends | inside
    · obtain ⟨rfl, last⟩ := List.append_inj' ends rfl
      cases last
      exact ready v hv builds
    · exact h.built before c' wiring' result' inside v hv builds
  unfold Simulation.run
  split
  · next e failed =>
    refine ⟨h.cwd, ?_, built _⟩
    intro l hl cache
    exact (h.cached l hl cache).snoc nofun
  · next exit tree ran =>
    have issuedByRan : ∀ d words, (Event.ran c wiring (.ok exit)).configured? = some (d, words) →
        ∃ u ∈ t.registry.variants, t.buildDir u = d ∧ u.resolved.words = .ok words := by
      intro d words is
      rw [Event.configured?_ran_ok] at is
      split at is
      · exact issued d words is
      · cases is
    refine ⟨h.cwd.settle tree, ?_, built _⟩
    intro l hl cache
    rcases only _ c w.cwd w.tree exit tree ran l hl cache with
      old | ⟨success, d, words, contents, executable, configures, resolved⟩
    · exact (h.cached l hl old).snoc issuedByRan
    · -- The cache is new, so the directory has just been configured.
      obtain ⟨u, hu, rfl, uWords⟩ := issued d words configures
      have led := (FileTree.location_of_resolve_file h.cwd resolved).1
      rw [locationFrom_cache] at led
      have place : (t.buildDir u).locationFrom here = l := (List.append_inj_left' led rfl).symm
      refine ⟨u, hu, place, words, uWords, ?_⟩
      show lastConfigure here l (w.events ++ [.ran c wiring (.ok exit)]) = some words
      rw [lastConfigure_snoc]
      unfold configureStep
      rw [Event.configured?_ran_ok, if_pos success, configures]
      exact if_pos place

end Task

end BuildVariants
