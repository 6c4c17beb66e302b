import BuildVariants.Proofs.Json.Printing
import BuildVariants.Proofs.Json.Reading
import BuildVariants.Proofs.Plan.Decoding
import BuildVariants.TaskConfig

/-!
# Printed task configurations are read back

What a task runner is told is printed as JSON: a whole task configuration with a field to a line,
the record of one variant without blanks.  A reader finds the value that was printed in either text,
and no other one; and from the value the task configuration can be put together again, with its
tables in the same order (`TaskConfig.read_text`).  So nothing is lost on the way to the task runner
(`printed_texts_read_back`).
-/

namespace BuildVariants

/-! ## Taking values apart -/

namespace Json

/-- What a field of an object is read as. -/
def read? {α : Type} (j : Json) (name : String) (value : Json → Option α) : Option α :=
  (j.field? name).bind value

/-- The text of a string. -/
def text? : Json → Option String
  | string s => some s
  | _ => none

theorem text?_string (s : String) : (string s).text? = some s := rfl

/-- The fields of an object in order, with what their values are read as. -/
def entries? {α : Type} (value : Json → Option α) : Json → Option (List (String × α))
  | object fs => fs.mapM fun f => (value f.2).map fun x => (f.1, x)
  | _ => none

variable {α : Type} {write : α → Json}

/-- Fields that are written one by one are read one by one, in the same order. -/
theorem entries?_map {value : Json → Option α} (h : ∀ x, value (write x) = some x)
    (entries : List (String × α)) :
    (object (entries.map fun e => (e.1, write e.2))).entries? value = some entries := by
  refine mapM_map_eq_some (fun e => (e.1, write e.2)) _ entries fun e _ => ?_
  rw [h]
  rfl

/-- An object can be printed if all values of its fields can. -/
theorem written_map (h : ∀ x, Written (write x)) (entries : List (String × α)) :
    Written (object (entries.map fun e => (e.1, write e.2))) := by
  refine .object fun f mem => ?_
  obtain ⟨e, -, rfl⟩ := List.mem_map.1 mem
  exact h e.2

/-- An object of two fields can be printed if both of its values can; the tables of a configuration
are nested in such pairs. -/
theorem written_pair {x y : Json} (k l : String) (hx : Written x) (hy : Written y) :
    Written (object [(k, x), (l, y)]) :=
  .object (by simp [hx, hy])

end Json

open Json (Written Document)

/-- Arguments from JSON. -/
def ArgumentText.ofJson? : Json → Option ArgumentText
  | .string text => some (.line text)
  | .array items => (items.mapM Json.text?).map .list
  | _ => none

/-- Variables from JSON. -/
def Variables.ofJson? (j : Json) : Option Variables :=
  (j.entries? Json.text?).map .ofList

/-- The entry of a variant from JSON. -/
def VariantTask.ofJson? (j : Json) : Option VariantTask := do
  let options ← j.field? "options"
  return ⟨← options.read? "args" Json.text?, ← options.read? "buildDir" Json.text?⟩

/-- The entry of a run target from JSON. -/
def RunTask.ofJson? (j : Json) : Option RunTask := do
  return ⟨← j.read? "build" Json.text?, ← j.read? "run" Json.text?,
    ← j.read? "args" ArgumentText.ofJson?, ← j.read? "cwd" Json.text?⟩

/-- A task configuration from JSON. -/
def TaskConfig.ofJson? (j : Json) : Option TaskConfig := do
  let cmake ← j.field? "cmake_config"
  let options ← cmake.field? "options"
  return {
    sourceDir := ← options.read? "srcDir" Json.text?
    env := ← options.read? "env" Variables.ofJson?
    configs := .ofList (← cmake.read? "configs" (Json.entries? VariantTask.ofJson?))
    runs := .ofList (← j.read? "cmake_run" (Json.entries? RunTask.ofJson?)) }

/-- The arguments in the record of a variant. -/
def Resolved.recordedLine? (j : Json) : Option String :=
  (j.field? "options").bind fun options => options.read? "args" Json.text?

/-! ## Putting them together again -/

/-- Arguments come back in the form they were given: a line stays a line and a list a list. -/
theorem ArgumentText.ofJson?_toJson (a : ArgumentText) : ofJson? a.toJson = some a := by
  cases a with
  | line text => rfl
  | list items =>
    have read := mapM_map_eq_some Json.string Json.text? items fun s _ => Json.text?_string s
    show ((items.map Json.string).mapM Json.text?).map list = _
    rw [read]
    rfl

/-- Variables come back as they were, since they are written in the order of their names. -/
theorem Variables.ofJson?_toJson (vars : Variables) : ofJson? vars.toJson = some vars := by
  have texts : vars.toJson.entries? Json.text? = some vars.entries :=
    Json.entries?_map Json.text?_string vars.entries
  unfold ofJson?
  rw [texts, Option.map_some, ofList_entries]

theorem VariantTask.ofJson?_toJson (t : VariantTask) : ofJson? t.toJson = some t := rfl

/-- The entry of a run target comes back with all four of its fields. -/
theorem RunTask.ofJson?_toJson (t : RunTask) : ofJson? t.toJson = some t := by
  have args : (Json.read? t.toJson "args" ArgumentText.ofJson?) = some t.args :=
    t.args.ofJson?_toJson
  unfold ofJson?
  rw [args]
  rfl

/-- The whole configuration comes back from its value.  Both tables keep their order, which an
object of JSON does not forget. -/
theorem TaskConfig.ofJson?_toJson (c : TaskConfig) : ofJson? c.toJson = some c := by
  have configs := Json.entries?_map VariantTask.ofJson?_toJson c.configs.entries
  have runs := Json.entries?_map RunTask.ofJson?_toJson c.runs.entries
  have env := c.env.ofJson?_toJson
  simp [ofJson?, toJson, Json.read?, Json.field?, Json.text?, List.lookup_cons, configs, runs, env,
    Keyed.ofList_entries]

/-! ## Printing and reading -/

/-- Both forms of arguments are made of texts, and texts can be printed. -/
theorem ArgumentText.written_toJson (a : ArgumentText) : Written a.toJson := by
  cases a with
  | line text => exact .string text
  | list items =>
    refine .array fun x mem => ?_
    obtain ⟨s, -, rfl⟩ := List.mem_map.1 mem
    exact .string s

theorem VariantTask.written_toJson (t : VariantTask) : Written t.toJson := by
  have options := Json.written_pair "args" "buildDir" (.string t.args) (.string t.buildDir)
  exact .object (by simpa using options)

/-- All fields of a run target are texts, but for the arguments. -/
theorem RunTask.written_toJson (t : RunTask) : Written t.toJson :=
  .object (by simp [Written.string, t.args.written_toJson])

/-- No number stands in a configuration, so all of it is printed as it is. -/
theorem TaskConfig.written_toJson (c : TaskConfig) : Written c.toJson := by
  have env : Written c.env.toJson := Json.written_map Written.string c.env.entries
  have configs := Json.written_map VariantTask.written_toJson c.configs.entries
  have runs := Json.written_map RunTask.written_toJson c.runs.entries
  have options := Json.written_pair "srcDir" "env" (.string c.sourceDir) env
  exact Json.written_pair _ _ (Json.written_pair _ _ options configs) runs

/-- The record of a variant can be printed, too. -/
theorem Resolved.written_record (r : Resolved) : Written r.record := by
  have options : Written (.object [("args", .string r.line)]) := .object (by simp [Written.string])
  exact .object (by simpa using options)

/-- What is printed is the one value that the text holds. -/
theorem Json.document_print_iff {sp : Spacing} (blank : sp.Blank) {j : Json} (h : Written j)
    (k : Json) : Document (String.ofList (print sp 0 j)) k ↔ k = j := by
  have document := document_print blank h 0
  exact ⟨fun other => other.unique document, fun same => same ▸ document⟩

/-- The text of a task configuration holds its value and no other one. -/
theorem TaskConfig.document_text_iff (c : TaskConfig) (j : Json) :
    Document c.text j ↔ j = c.toJson :=
  Json.document_print_iff Json.Spacing.blank_indented c.written_toJson j

/-- The text of a task configuration is read as that configuration. -/
theorem TaskConfig.read_text (c : TaskConfig) :
    (Json.parse? c.text).bind ofJson? = some c := by
  rw [Json.parse?_eq_some_iff.2 ((c.document_text_iff _).2 rfl)]
  exact c.ofJson?_toJson

/-- **Printed texts are read back.**  The reader reads just the documents of the grammar.  The text
of the task configuration of any registry is a document that holds this configuration and nothing
else, with all tables in their order, and two configurations never have the same text.  The text of
the record of any variant is a document, too, and holds its arguments on one line. -/
theorem printed_texts_read_back :
    (∀ text j, Json.parse? text = some j ↔ Document text j) ∧
    (∀ r : Registry, (∀ j, Document r.taskConfig.text j ↔ j = r.taskConfig.toJson) ∧
      (Json.parse? r.taskConfig.text).bind TaskConfig.ofJson? = some r.taskConfig) ∧
    (∀ c d : TaskConfig, c.text = d.text → c = d) ∧
    ∀ (request : Request) (probe : Probe),
      let r : Resolved := ⟨request, probe.override?⟩
      (∀ j, Document r.record.compact j ↔ j = r.record) ∧
      (Json.parse? r.record.compact).bind Resolved.recordedLine? = some r.line := by
  refine ⟨fun _ _ => Json.parse?_eq_some_iff, fun r => ?_, fun c d same => ?_, fun q p => ?_⟩
  · exact ⟨r.taskConfig.document_text_iff, r.taskConfig.read_text⟩
  · have read := c.read_text
    rw [same, d.read_text] at read
    exact (Option.some.inj read).symm
  · intro r
    have held := Json.document_print_iff Json.Spacing.blank_compact r.written_record
    refine ⟨held, ?_⟩
    have read : Json.parse? r.record.compact = some r.record :=
      Json.parse?_eq_some_iff.2 ((held _).2 rfl)
    rw [read]
    rfl

end BuildVariants
