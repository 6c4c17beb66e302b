import BuildVariants.Command
import BuildVariants.Proofs.Plan.Declaring
import BuildVariants.Proofs.Words.WordLists
import Mathlib.Data.List.Dedup
import Mathlib.Data.List.Sort
import Mathlib.Data.String.Basic

/-!
# Displayed commands

A command is put together in steps, and any number of them may add arguments, set variables or
choose a directory.  Whatever their order, it is displayed as the variables, the program and the
arguments (`Command.pieces_assembled`): the arguments stand as they were added, and of the
assignments to a name the last one stands, the names in order (`Variables.entries_ofList`).

Nothing is quoted there.  The line is therefore cut into these pieces again just when each of them
is a plain word (`Command.splitLine_display_iff`).
-/

namespace BuildVariants

open Words

/-! ## What assignments come to -/

/-- The names that are assigned to, each once and in order. -/
def assignedNames (assignments : List (String × String)) : List String :=
  (assignments.map Prod.fst).dedup.insertionSort (· ≤ ·)

/-- The value that is assigned last to a name. -/
def lastAssigned? (assignments : List (String × String)) (name : String) : Option String :=
  assignments.reverse.lookup name

/-- The last assignment to each name, the names in order. -/
def lastAssignments (assignments : List (String × String)) : List (String × String) :=
  (assignedNames assignments).filterMap fun name =>
    (lastAssigned? assignments name).map fun value => (name, value)

theorem mem_assignedNames {assignments : List (String × String)} {name : String} :
    name ∈ assignedNames assignments ↔ name ∈ assignments.map Prod.fst := by
  unfold assignedNames
  rw [List.mem_insertionSort, List.mem_dedup]

theorem pairwise_assignedNames (assignments : List (String × String)) :
    (assignedNames assignments).Pairwise (· < ·) := by
  have distinct : (assignedNames assignments).Nodup :=
    (List.perm_insertionSort _ _).nodup_iff.2 (List.nodup_dedup _)
  have ordered : (assignedNames assignments).Pairwise (· ≤ ·) := List.pairwise_insertionSort _ _
  exact (ordered.and distinct).imp fun both => lt_of_le_of_ne both.1 both.2

/-- What is not found in a list of entries has none. -/
theorem lookup_eq_none_iff_notMem {entries : List (String × String)} {name : String} :
    entries.lookup name = none ↔ name ∉ entries.map Prod.fst := by
  rw [List.lookup_eq_none_iff, List.mem_map, not_exists]
  refine forall_congr' fun e => ?_
  rw [bne_iff_ne, not_and]
  exact imp_congr_right fun _ => ne_comm

namespace Variables

variable (assignments more : List (String × String)) (vars : Variables)

theorem insertAll_append :
    vars.insertAll (assignments ++ more) = (vars.insertAll assignments).insertAll more :=
  List.foldl_append

/-- A set of variables is read off its names. -/
theorem filterMap_names :
    (vars.entries.map Prod.fst).filterMap
      (fun name => (vars.lookup? name).map fun value => (name, value)) = vars.entries := by
  have distinct : (vars.entries.map Prod.fst).Nodup :=
    List.pairwise_map.2 (vars.sorted.imp ne_of_lt)
  exact Keyed.filterMap_keys ⟨vars.entries, distinct⟩

/-- Of several assignments to a name the last one counts. -/
theorem lookup?_ofList (name : String) :
    (ofList assignments).lookup? name = lastAssigned? assignments name := by
  unfold lastAssigned?
  induction assignments using List.reverseRecOn with
  | nil => rfl
  | append_singleton assignments e ih =>
    have last : ofList (assignments ++ [e]) = (ofList assignments).insert e.1 e.2 :=
      insertAll_append assignments [e] empty
    rw [last, lookup?_insert, ih, List.reverse_concat, List.lookup_cons]
    split
    · next same => rw [beq_iff_eq.2 same]
    · next other => rw [beq_eq_false_iff_ne.2 other]

/-- The names of the variables are those assigned to, in order. -/
theorem names_ofList : (ofList assignments).entries.map Prod.fst = assignedNames assignments := by
  refine List.Pairwise.eq_of_mem_iff (List.pairwise_map.2 (ofList assignments).sorted)
    (pairwise_assignedNames assignments) fun name => ?_
  have found : (ofList assignments).entries.lookup name = assignments.reverse.lookup name :=
    lookup?_ofList assignments name
  rw [mem_assignedNames, ← not_iff_not, ← lookup_eq_none_iff_notMem, found,
    lookup_eq_none_iff_notMem, List.map_reverse, List.mem_reverse]

/-- **What assignments come to**: the last one to each name, the names in order. -/
theorem entries_ofList : (ofList assignments).entries = lastAssignments assignments := by
  unfold lastAssignments
  rw [← filterMap_names, names_ofList]
  refine List.filterMap_congr fun name _ => ?_
  rw [lookup?_ofList]

end Variables

/-! ## Putting a command together -/

namespace Command

/-- A step of putting a command together. -/
inductive Addition
  /-- One more argument. -/
  | arg (text : String)
  /-- More arguments. -/
  | args (texts : List String)
  /-- Assignments to variables. -/
  | env (assignments : List (String × String))
  /-- A working directory. -/
  | cwd (directory : Path)

/-- The arguments that a step adds. -/
def Addition.argsAdded : Addition → List String
  | arg text => [text]
  | args texts => texts
  | env _ | cwd _ => []

/-- The assignments that a step makes. -/
def Addition.assignments : Addition → List (String × String)
  | env assignments => assignments
  | arg _ | args _ | cwd _ => []

/-- One step. -/
def add (c : Command) : Addition → Command
  | .arg text => c.addArgs [text]
  | .args texts => c.addArgs texts
  | .env assignments => c.addEnv assignments
  | .cwd directory => c.inDirectory directory

/-- The command that some steps lead to. -/
def assembled (program : Path) (steps : List Addition) : Command :=
  steps.foldl add (ofProgram program)

/-- The pieces that some steps lead to: the last assignment to each name, sorted by name, then the
program, then the arguments as they were added. -/
def assembledPieces (program : Path) (steps : List Addition) : List String :=
  (lastAssignments (steps.flatMap Addition.assignments)).map (fun e => e.1 ++ "=" ++ e.2)
    ++ program.text :: steps.flatMap Addition.argsAdded

variable (c : Command) (step : Addition)

@[simp] theorem program_add : (c.add step).program = c.program := by
  cases step <;> rfl

/-- One more step puts its arguments behind those that are there, -/
@[simp] theorem args_add : (c.add step).args = c.args ++ step.argsAdded := by
  cases step with
  | arg | args => rfl
  | env | cwd => exact (List.append_nil c.args).symm

/-- and makes its assignments after those that were made. -/
@[simp] theorem env_add : (c.add step).env = c.env.insertAll step.assignments := by
  cases step <;> rfl

/-- **Any number of steps** do the same. -/
theorem foldl_add (steps : List Addition) (c : Command) :
    (steps.foldl add c).program = c.program ∧
      (steps.foldl add c).args = c.args ++ steps.flatMap Addition.argsAdded ∧
      (steps.foldl add c).env = c.env.insertAll (steps.flatMap Addition.assignments) := by
  induction steps generalizing c with
  | nil => exact ⟨rfl, (List.append_nil c.args).symm, rfl⟩
  | cons step steps ih =>
    obtain ⟨program, args, env⟩ := ih (c.add step)
    rw [program_add] at program
    rw [args_add, List.append_assoc] at args
    rw [env_add, ← Variables.insertAll_append] at env
    exact ⟨program, args, env⟩

/-- A command is displayed in the pieces that its steps lead to. -/
theorem pieces_assembled (program : Path) (steps : List Addition) :
    (assembled program steps).pieces = assembledPieces program steps := by
  obtain ⟨same, args, env⟩ := foldl_add steps (ofProgram program)
  unfold pieces assembledPieces assembled
  rw [same, args, env, ← Variables.entries_ofList]
  rfl

/-! ## Reading it back -/

/-- **A displayed command can be read back just when it is plain.**  The line is cut into the pieces
it was made of if and only if each of them is a word as it stands: not empty, not the beginning of a
comment, and without blanks, quotes and backslashes. -/
theorem splitLine_display_iff (program : Path) (steps : List Addition) :
    splitLine (assembled program steps).display = .ok (assembledPieces program steps) ↔
      ∀ piece ∈ assembledPieces program steps, IsPlainWord piece := by
  unfold display
  rw [pieces_assembled, splitLine_eq_ok_iff]
  constructor
  · intro cut piece mem
    -- The program is there in any case, so there is a first piece.
    obtain ⟨first, others, is⟩ := List.exists_cons_of_ne_nil (List.ne_nil_of_mem mem)
    rw [is] at cut mem
    have plain := (split_eq_some_iff.1 cut).plain_of_length_le (Nat.le_of_eq length_intercalate)
      piece.toList (List.mem_map_of_mem mem)
    rwa [String.ofList_toList] at plain
  · intro plain
    have cut : split (" ".intercalate ((assembledPieces program steps).map id)) = some _ :=
      split_intercalate fun piece mem => run_start_of_plain (plain piece mem)
    rwa [List.map_id] at cut

/-- The last assignment to a name stands, and a value with a blank falls apart. -/
example :
    let steps := [.arg "-S", .env [("B", "1"), ("A", "x y")], .args [".", "-B"], .env [("B", "2")]]
    assembledPieces ⟨"cmake"⟩ steps = ["A=x y", "B=2", "cmake", "-S", ".", "-B"] ∧
      splitLine (assembled ⟨"cmake"⟩ steps).display
        = .ok ["A=x", "y", "B=2", "cmake", "-S", ".", "-B"] := by
  decide +kernel

end Command

end BuildVariants
