import BuildVariants.Host

/-!
# Searching for programs

A name with a slash stands for a file seen from the current directory, and a bare name for the
first executable of that name in the directories of `PATH`.  Only files that may be executed count.

A directory of `PATH` may begin with `~`, which stands for the user's home, in the words in which
that is given; any other is seen from the current directory.  The name is put behind it as it is,
so one that ends with a slash finds no file.

Where there is no current directory any more, a name with a slash is searched for in the
directories of `PATH` too, and a relative one of them is left as it is.
-/

namespace BuildVariants

/-- The text of one component. -/
def Component.text : Component → String
  | root => "/"
  | here => "."
  | up => ".."
  | name text => text

/-- Some components below a path. -/
def Path.descend (p : Path) (components : List Component) : Path :=
  components.foldl (fun q c => q.child c.text) p

/-- A path seen from a directory.  An absolute path stands alone; any other is spelled component by
component, without a leading dot. -/
def Path.seenFrom (p directory : Path) : Path :=
  if p.isAbsolute then p else directory.descend (p.components.dropWhile (· = .here))

/-- What follows a leading `~`. -/
def Path.belowTilde? (p : Path) : Option (List Component) :=
  match p.components with
  | .name first :: rest => if first = "~" then some rest else none
  | _ => none

/-- A directory of a search list: one below a known home is spelled from there, and any other is
seen from the current directory, if there is one. -/
def Path.searched (home? here? : Option Path) (directory : Path) : Path :=
  match home?, directory.belowTilde? with
  | some home, some rest => home.descend rest
  | _, _ =>
    match here? with
    | some here => directory.seenFrom here
    | none => directory

/-- The directories of a search list. -/
def searchDirectories (list : String) : List Path :=
  (go list.toList).map fun cs => ⟨String.ofList cs⟩
where
  /-- The pieces of a list between colons. -/
  go : List Char → List (List Char)
    | [] => [[]]
    | c :: cs =>
      if c = ':' then [] :: go cs
      else match go cs with
        | [] => [[c]]
        | d :: ds => (c :: d) :: ds

namespace Host

variable {m : Type → Type} [Monad m] [Host m]

/-- The first executable file among some paths. -/
def firstExecutable : List Path → m (Option Path)
  | [] => return none
  | p :: ps => do
    if ← isExecutable p then return some p else firstExecutable ps

/-- The paths a name may stand for in the directories of `PATH`. -/
def searchCandidates (here? : Option Path) (name : Path) : m (List Path) := do
  match ← environment "PATH" with
  | some list =>
    let home? ← home?
    return (searchDirectories list).map fun d => (d.searched home? here?).join name
  | none => return []

/-- The paths a name may stand for. -/
def candidates (name : Path) : m (List Path) := do
  match ← currentDirectory with
  | .ok here =>
    if 1 < name.components.length then return [name.seenFrom here]
    else searchCandidates (some here) name
  | .error _ => searchCandidates none name

/-- The executable a name stands for. -/
def findExecutable (name : String) : m (Option Path) := do
  if name = "" then return none
  firstExecutable (← candidates ⟨name⟩)

/-- The `cmake` to call: what the variable `CMAKE` names, if that is an executable, and otherwise
the one on the search list. -/
def findCMake : m (Option Path) := do
  match ← environment "CMAKE" with
  | some name =>
    match ← findExecutable name with
    | some path => return some path
    | none => findExecutable "cmake"
  | none => findExecutable "cmake"

end Host

end BuildVariants
