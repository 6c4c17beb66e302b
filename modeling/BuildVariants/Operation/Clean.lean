import BuildVariants.Operation.Step

/-!
# Removing build directories

The build directories of the chosen variants are removed one after the other, each only once even
if several variants share it.  The result lists those that were there to be removed.
-/

namespace BuildVariants

/-- What is asked of a cleaning. -/
structure CleanRequest where
  /-- The variant, unless it is the first one. -/
  variant? : Option String
  /-- Whether all variants are meant. -/
  all : Bool
  deriving DecidableEq, Repr

/-- The first of every group of paths that are the same. -/
def distinctPaths (paths : List Path) : List Path :=
  paths.foldl (fun kept p => if kept.any fun q => decide (q.Same p) then kept else kept ++ [p]) []

namespace Task

variable {m : Type → Type} [Monad m] [Host m]

open Operation

/-- The variants that are meant. -/
def chosenVariants (t : Task) (r : CleanRequest) : Except Diagnostic (List Variant) :=
  if r.all then .ok t.registry.variants
  else match t.registry.variantOrDefault r.variant? with
    | .error e => .error e
    | .ok v => .ok [v]

/-- The build directories of some variants, each once. -/
def directories (t : Task) (vs : List Variant) : List Path :=
  distinctPaths (vs.map t.buildDir)

/-- Removes a directory if anything stands at its place, and says whether it did. -/
def removeIfPresent (d : Path) : Operation m Bool := do
  if ← ask (Host.pathExists d) then
    match ← ask (Host.removeTree d) with
    | .ok () => return true
    | .error e => throw (.removeDirectory d e)
  else return false

/-- Displays what would be removed. -/
def displayRemovals : List Path → Operation m Unit
  | [] => return ()
  | d :: ds => do
    ask (Host.printLine ("rm -rf " ++ d.text))
    displayRemovals ds

/-- Removes directories and gives those that were there. -/
def removeAll (t : Task) : List Path → Operation m (List Path)
  | [] => return []
  | d :: ds => do
    if ← removeIfPresent d then
      ask (Host.status t.shell .removed d.text)
      return d :: (← t.removeAll ds)
    else
      ask (Host.status t.shell .skipped (d.text ++ " (not present)"))
      t.removeAll ds

/-- Removes the build directories of the chosen variants. -/
def clean (t : Task) (r : CleanRequest) : Operation m (List Path) := do
  let vs ← ofExcept (t.chosenVariants r)
  if t.dryRun then
    displayRemovals (t.directories vs)
    return []
  else t.removeAll (t.directories vs)

end Task

end BuildVariants
