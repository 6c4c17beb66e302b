import BuildVariants.OsError
import BuildVariants.Path

/-!
# File trees

The part of a file system that the program can see: directories and files, no links.  A tree maps
the `Location` of an entry, the list of names from the root, to the `Entry` that stands there; the
root itself is always a directory.

A path is followed segment by segment (`walk`), and every step asks that the place left behind is
a directory, also the step of an empty segment or of a `.`; so `file/` and `file/.` do not exist
although `file` does, and `gone/..` does not exist although `.` does.  A relative path starts from
the `Place` of a process.  That may be a directory that has been removed since: nothing is found
or made in it any more, but it is still a directory, and the way up from it still exists.

The operations that change a tree say what they did and leave the tree behind, also when they fail
half way: `createAll` may have made some of the directories, and `removeTree` of a path that ends
in `.` empties the directory before the system refuses to remove it under that name.
-/

namespace BuildVariants

/-- A place in a file tree: the names from the root. -/
abbrev Location := List String

/-- What stands at a place. -/
inductive Entry
  /-- A directory. -/
  | directory
  /-- A file with its bytes, and whether it may be executed. -/
  | file (contents : ByteArray) (executable : Bool)

/-- Whether an entry is a directory. -/
def Entry.isDirectory : Entry → Bool
  | directory => true
  | file .. => false

/-- The directories and files below the root. -/
structure FileTree where
  /-- The entries with their places. -/
  entries : List (Location × Entry)

namespace FileTree

/-- A root directory without entries. -/
def empty : FileTree := ⟨[]⟩

instance : Inhabited FileTree := ⟨empty⟩

/-! ## Entries -/

/-- What stands at a place. -/
def get? (t : FileTree) (l : Location) : Option Entry :=
  if l = [] then some .directory else t.entries.lookup l

/-- Puts an entry at a place. -/
def put (t : FileTree) (l : Location) (e : Entry) : FileTree :=
  ⟨(l, e) :: t.entries.filter (·.1 ≠ l)⟩

/-- Whether a place lies in the directory `top` or deeper. -/
def Beneath (top l : Location) : Prop :=
  top <+: l ∧ l ≠ top

instance (top l : Location) : Decidable (Beneath top l) :=
  inferInstanceAs (Decidable (_ ∧ _))

/-- Takes everything out of a directory. -/
def clear (t : FileTree) (top : Location) : FileTree :=
  ⟨t.entries.filter fun e => ¬ Beneath top e.1⟩

/-- Takes the entry of one place away. -/
def drop (t : FileTree) (l : Location) : FileTree :=
  ⟨t.entries.filter (·.1 ≠ l)⟩

@[simp] theorem get?_root (t : FileTree) : t.get? [] = some .directory := rfl

theorem lookup_filter_of_forall {p : Location × Entry → Bool} {l : Location}
    (entries : List (Location × Entry)) (keep : ∀ e, p (l, e) = true) :
    (entries.filter p).lookup l = entries.lookup l := by
  induction entries with
  | nil => rfl
  | cons x xs ih =>
    obtain ⟨k, e⟩ := x
    by_cases h : l = k
    · subst h
      simp [keep e]
    · have h' : (l == k) = false := by simpa using h
      by_cases hp : p (k, e) = true
      · simp [hp, List.lookup_cons, h', ih]
      · simp [hp, List.lookup_cons, h', ih]

theorem lookup_filter_eq_none {p : Location × Entry → Bool} {l : Location}
    (entries : List (Location × Entry)) (gone : ∀ e, p (l, e) = false) :
    (entries.filter p).lookup l = none := by
  induction entries with
  | nil => rfl
  | cons x xs ih =>
    obtain ⟨k, e⟩ := x
    by_cases h : l = k
    · subst h
      simp [gone e, ih]
    · have h' : (l == k) = false := by simpa using h
      by_cases hp : p (k, e) = true
      · simp [hp, List.lookup_cons, h', ih]
      · simp [hp, ih]

/-- An entry that was put is found; the other places are as before. -/
theorem get?_put {t : FileTree} {l : Location} (e : Entry) (hl : l ≠ []) (k : Location) :
    (t.put l e).get? k = if k = l then some e else t.get? k := by
  by_cases hk : k = []
  · simp [get?, hk, Ne.symm hl]
  · by_cases h : k = l
    · subst h
      simp [get?, put, hl]
    · have h' : (k == l) = false := by simpa using h
      simp only [get?, put, hk, if_false, List.lookup_cons, h', h]
      exact lookup_filter_of_forall _ (by simp [h])

/-- What lies beneath a cleared directory is gone; the other places are as before. -/
theorem get?_clear (t : FileTree) (top k : Location) :
    (t.clear top).get? k = if Beneath top k then none else t.get? k := by
  by_cases hk : k = []
  · subst hk
    have : ¬ Beneath top [] := fun h => by
      obtain ⟨pre, ne⟩ := h
      exact ne (List.prefix_nil.1 pre).symm
    simp [this]
  · by_cases h : Beneath top k
    · simp only [get?, clear, hk, if_false, h, if_true]
      exact lookup_filter_eq_none _ (by simp [h])
    · simp only [get?, clear, hk, if_false, h]
      exact lookup_filter_of_forall _ (by simp [h])

/-- A dropped entry is gone; the other places are as before. -/
theorem get?_drop {t : FileTree} {l : Location} (hl : l ≠ []) (k : Location) :
    (t.drop l).get? k = if k = l then none else t.get? k := by
  by_cases hk : k = []
  · simp [get?, hk, Ne.symm hl]
  · by_cases h : k = l
    · subst h
      simp only [get?, drop, hk, if_false, if_true]
      exact lookup_filter_eq_none _ (by simp)
    · simp only [get?, drop, hk, if_false, h]
      exact lookup_filter_of_forall _ (by simp [h])

/-! ## Places -/

end FileTree

/-- A place that a path leads to: a location, or a directory that has been removed. -/
structure Place where
  /-- The location; for a removed directory that of the nearest directory above it that stands. -/
  location : Location
  /-- How many levels below the location the place is, in directories that have been removed. -/
  below : Nat
  deriving DecidableEq, Repr

namespace Place

/-- The root. -/
def root : Place := ⟨[], 0⟩

/-- The place above. -/
def up : Place → Place
  | ⟨l, 0⟩ => ⟨l.dropLast, 0⟩
  | ⟨l, n + 1⟩ => ⟨l, n⟩

/-- Where a process is that was `below` levels under a directory, given by its names from the
inside out, of which only some still stand. -/
def among (t : FileTree) : (names : List String) → (below : Nat) → Place
  | [], below => ⟨[], below⟩
  | name :: names, below =>
    match t.get? (name :: names).reverse with
    | some .directory => ⟨(name :: names).reverse, below⟩
    | _ => among t names (below + 1)

/-- Where a process is after the tree has changed.  A directory that is made later under the name
of a removed one is another directory. -/
def settle (p : Place) (t : FileTree) : Place :=
  among t p.location.reverse p.below

/-- A process in a directory that stands is where it was. -/
theorem settle_of_directory {p : Place} {t : FileTree}
    (h : t.get? p.location = some .directory) : p.settle t = p := by
  obtain ⟨l, n⟩ := p
  rw [settle]
  match names : l.reverse with
  | [] => rw [among, ← List.reverse_reverse l, names]; rfl
  | x :: xs =>
    have back : (x :: xs).reverse = l := by rw [← names, List.reverse_reverse]
    rw [among, back]
    simp [show t.get? l = some .directory from h]

end Place

namespace FileTree

/-- What is at a place; a removed directory is a directory. -/
def entry? (t : FileTree) (p : Place) : Option Entry :=
  if p.below = 0 then t.get? p.location else some .directory

/-- Takes everything out of the directory at a place. -/
def emptied (t : FileTree) (p : Place) : FileTree :=
  if p.below = 0 then t.clear p.location else t

/-! ## Following a path -/

/-- The longest name a directory can hold, in bytes. -/
def maxNameBytes : Nat := 255

/-- The length from where on a path is refused, in bytes. -/
def maxPathBytes : Nat := 4096

/-- One step of a path, taken from a place that has to be a directory. -/
def step (t : FileTree) (here : Place) (segment : String) : Except OsError Place :=
  match t.entry? here with
  | none => .error .noEntry
  | some (.file ..) => .error .notDirectory
  | some .directory =>
    if segment = "" ∨ segment = "." then .ok here
    else if segment = ".." then .ok here.up
    else if 0 < here.below then .error .noEntry
    else if maxNameBytes < segment.utf8ByteSize then .error .nameTooLong
    else .ok ⟨here.location ++ [segment], 0⟩

/-- The place some steps lead to; nothing need be there at the last one. -/
def walk (t : FileTree) : Place → List String → Except OsError Place
  | here, [] => .ok here
  | here, s :: ss =>
    match t.step here s with
    | .error e => .error e
    | .ok next => t.walk next ss

/-- The segments of a path. -/
def segments (p : Path) : List String :=
  (Path.splitSlash p.text.toList).map String.ofList

/-- The place a path starts from. -/
def origin (cwd : Place) (p : Path) : Place :=
  if p.isAbsolute then .root else cwd

/-- A path the system accepts as an argument: without NUL, not empty, and not too long. -/
def checkPath (p : Path) : Except OsError Unit :=
  if p.text.toList.contains '\x00' then .error .nulInPath
  else if p.text = "" then .error .noEntry
  else if maxPathBytes ≤ p.text.utf8ByteSize then .error .nameTooLong
  else .ok ()

/-- The place and the entry a path names. -/
def resolve (t : FileTree) (cwd : Place) (p : Path) : Except OsError (Place × Entry) :=
  match checkPath p with
  | .error e => .error e
  | .ok () =>
    match t.walk (origin cwd p) (segments p) with
    | .error e => .error e
    | .ok l =>
      match t.entry? l with
      | none => .error .noEntry
      | some e => .ok (l, e)

/-- Whether a directory stands at a path. -/
def isDirectory (t : FileTree) (cwd : Place) (p : Path) : Bool :=
  match t.resolve cwd p with
  | .ok (_, e) => e.isDirectory
  | .error _ => false

/-- The text of the file at a path. -/
def readText (t : FileTree) (cwd : Place) (p : Path) : Except OsError String :=
  match t.resolve cwd p with
  | .error e => .error e
  | .ok (_, .directory) => .error .isDirectory
  | .ok (_, .file contents _) =>
    match String.fromUTF8? contents with
    | none => .error .notUtf8
    | some s => .ok s

/-! ## Making and removing directories -/

/-- The steps that lead to the directory a path's last name stands in, and that name; slashes at
the end of a path do not count. -/
def splitLast (p : Path) : Option (List String × String) :=
  match (segments p).reverse.dropWhile (· = "") with
  | [] => none
  | last :: before => some (before.reverse, last)

/-- Makes one directory. -/
def makeDirectory (t : FileTree) (cwd : Place) (p : Path) : Except OsError FileTree :=
  match checkPath p with
  | .error e => .error e
  | .ok () =>
    match splitLast p with
    | none => .error .alreadyExists
    | some (before, last) =>
      match t.walk (origin cwd p) before with
      | .error e => .error e
      | .ok parent =>
        match t.step parent last with
        | .error e => .error e
        | .ok l =>
          if last = "." ∨ last = ".." then .error .alreadyExists
          else if (t.entry? l).isSome then .error .alreadyExists
          else .ok (t.put l.location .directory)

/-- Writes a file, over one that is already there. -/
def writeFile (t : FileTree) (cwd : Place) (p : Path) (contents : ByteArray)
    (executable : Bool) : Except OsError FileTree :=
  match checkPath p with
  | .error e => .error e
  | .ok () =>
    match t.walk (origin cwd p) (segments p) with
    | .error e => .error e
    | .ok l =>
      match t.entry? l with
      | some .directory => .error .isDirectory
      | _ => .ok (t.put l.location (.file contents executable))

/-- Makes the first directory of a list of ancestors, making those above it as far as they are
missing.  A directory that is already there will do. -/
def createAncestors (t : FileTree) (cwd : Place) : List Path → Except OsError Unit × FileTree
  | [] => (.error .noEntry, t)
  | p :: above =>
    if p.components = [] then (.ok (), t)
    else match t.makeDirectory cwd p with
      | .ok t' => (.ok (), t')
      | .error .noEntry =>
        match t.createAncestors cwd above with
        | (.error e, t') => (.error e, t')
        | (.ok (), t') =>
          match t'.makeDirectory cwd p with
          | .ok t'' => (.ok (), t'')
          | .error e => if t'.isDirectory cwd p then (.ok (), t') else (.error e, t')
      | .error e => if t.isDirectory cwd p then (.ok (), t) else (.error e, t)

/-- Makes a directory and those above it as far as they are missing. -/
def createAll (t : FileTree) (cwd : Place) (p : Path) : Except OsError Unit × FileTree :=
  t.createAncestors cwd p.ancestors

/-- Removes the emptied directory at a place, named by a path.  The path is followed once more, and
if it led through what has just been removed there is nothing left to do.  The system does not
remove a directory by the name of `.` or `..`. -/
def removeEmptied (t : FileTree) (cwd : Place) (p : Path) (l : Place) :
    Except OsError Unit × FileTree :=
  match splitLast p with
  | none => (.error .busy, t)
  | some (before, last) =>
    match t.walk (origin cwd p) (before ++ [last]) with
    | .error .noEntry => (.ok (), t)
    | .error e => (.error e, t)
    | .ok _ =>
      if last = "." then (.error .invalidArgument, t)
      else if last = ".." then (.error .notEmpty, t)
      else (.ok (), t.drop l.location)

/-- Removes a directory with everything in it; the directory of the process may be among that. -/
def removeTree (t : FileTree) (cwd : Place) (p : Path) : Except OsError Unit × FileTree :=
  match t.resolve cwd p with
  | .error e => (.error e, t)
  | .ok (_, .file ..) => (.error .notDirectory, t)
  | .ok (l, .directory) => (t.emptied l).removeEmptied (cwd.settle (t.emptied l)) p l

end FileTree

end BuildVariants
