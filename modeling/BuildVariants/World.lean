import BuildVariants.Launch

/-!
# A simulated host

A `World` is a file tree with the place of the program in it, together with the list of what has
happened: what the program wrote, and which processes it tried to run and how that went, in one
order.  `Simulation` runs the operations against a world.

What the processes do is a parameter, `Setting.children`: it may depend on how many processes were
tried before, on the command, on the place and on the file tree, and it may change the tree.
`childrenOf` gives the children of a system where a command starts the program it names
(`FileTree.launch`) and the program does the rest.  The clock of a simulation stands still.
-/

namespace BuildVariants

/-- Something that happened. -/
inductive Event
  /-- The program wrote something. -/
  | emitted (e : Emission)
  /-- The program tried to run a process. -/
  | ran (c : Command) (w : Wiring) (result : Except OsError Exit)

/-- What the processes do: how the next one goes, and what the file tree is like afterwards. -/
abbrev Children := Nat → Command → Place → FileTree → Except OsError (Exit × FileTree)

/-- What does not change during a simulation. -/
structure Setting where
  /-- The environment of the program. -/
  environment : Environment
  /-- What its child processes do. -/
  children : Children

/-- What changes during a simulation. -/
structure World where
  /-- The file system. -/
  tree : FileTree
  /-- The working directory of the program. -/
  cwd : Place
  /-- What has happened, first to last. -/
  events : List Event

/-- A program that runs in a simulated world. -/
abbrev Simulation := ReaderT Setting (StateM World)

namespace World

/-- A world in which nothing has happened. -/
def ofTree (tree : FileTree) (cwd : Place) : World := ⟨tree, cwd, []⟩

/-- A world with another file tree; the program may have lost its directory. -/
def withTree (w : World) (tree : FileTree) : World :=
  { w with tree := tree, cwd := w.cwd.settle tree }

/-- A world in which one more thing has happened. -/
def record (w : World) (e : Event) : World :=
  { w with events := w.events ++ [e] }

end World

/-- The command of a process that was tried. -/
def Event.command? : Event → Option Command
  | ran c _ _ => some c
  | emitted _ => none

/-- The processes that were tried. -/
def World.commands (w : World) : List Command :=
  w.events.filterMap Event.command?

/-- The path of a place. -/
def Location.path (l : Location) : Path :=
  ⟨"/" ++ "/".intercalate l⟩

/-- The path of a place, unless it has been removed. -/
def Place.path (p : Place) : Except OsError Path :=
  if p.below = 0 then .ok p.location.path else .error .noEntry

/-- What the program sees of an entry. -/
def Entry.kind : Entry → EntryKind
  | directory => .directory
  | file _ x => .file x

/-- What the program sees at a path. -/
def FileTree.kind? (t : FileTree) (cwd : Place) (p : Path) : Option EntryKind :=
  match t.resolve cwd p with
  | .ok (_, e) => some e.kind
  | .error _ => none

namespace Simulation

/-- Runs a process. -/
def run (c : Command) (w : Wiring) : Simulation (Except OsError Exit) := fun s world =>
  match s.children world.commands.length c world.cwd world.tree with
  | .error e => (.error e, world.record (.ran c w (.error e)))
  | .ok (exit, tree) => (.ok exit, (world.withTree tree).record (.ran c w (.ok exit)))

/-- Changes the file tree by an operation that may be refused. -/
def change (f : Place → FileTree → Except OsError Unit × FileTree) :
    Simulation (Except OsError Unit) := fun _ world =>
  match f world.cwd world.tree with
  | (result, tree) => (result, world.withTree tree)

end Simulation

instance : Host Simulation where
  environment name := fun s world => (s.environment.value? name, world)
  currentDirectory := fun _ world => (world.cwd.path, world)
  entryKind? p := fun _ world => (world.tree.kind? world.cwd p, world)
  readText p := fun _ world => (world.tree.readText world.cwd p, world)
  createAll p := Simulation.change fun cwd t => t.createAll cwd p
  removeTree p := Simulation.change fun cwd t => t.removeTree cwd p
  run := Simulation.run
  emit e := fun _ world => ((), world.record (.emitted e))
  milliseconds := fun _ world => (0, world)

/-- The children of a system whose programs behave in a given way. -/
def childrenOf (environment : Environment)
    (behave : Launch → FileTree → Exit × FileTree) : Children := fun _ c cwd t =>
  match t.launch cwd environment c with
  | .error e => .error e
  | .ok l => .ok (behave l t)

/-! ## What is seen of a run -/

/-- What an event leaves on standard output. -/
def Event.stdout : Event → String
  | emitted (.output text) => text
  | ran _ .shown (.ok exit) => exit.stdout
  | _ => ""

/-- What an event leaves on standard error. -/
def Event.stderr (v : LogView) : Event → String
  | emitted (.notice text) => text
  | emitted (.log r) => v.text r
  | ran _ .shown (.ok exit) => exit.stderr
  | _ => ""

/-- What a run leaves on standard output. -/
def World.stdout (w : World) : String :=
  String.join (w.events.map Event.stdout)

/-- What a run leaves on standard error. -/
def World.stderr (w : World) (v : LogView) : String :=
  String.join (w.events.map (Event.stderr v))

end BuildVariants
