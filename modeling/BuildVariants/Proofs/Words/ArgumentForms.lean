import BuildVariants.Proofs.Path.Joining
import BuildVariants.Proofs.Words.PlainWords
import BuildVariants.Variant

/-!
# The two forms of a variant's arguments

The arguments of a variant are put on one line for a task runner, and given one by one to a process.
The line is made by concatenation and has to be cut into words again.  Where the texts of a request
are plain, each of them is a word of the line as it stands, and the splitter reaches the options in
the state of the beginning of a line; so whatever they are, it reads them as it would read them
alone (`split_line`), and the two forms agree.
-/

namespace BuildVariants

open Words

/-- The place of the package overrides is not empty, whatever the home directory is. -/
theorem text_overrideFile_ne_empty (home : Path) : (overrideFile home).text ≠ "" := by
  intro empty
  have behind := Path.suffix_join home overridePath
  rw [show (home.join overridePath).text = "" from empty] at behind
  have none : overridePath.text.toList = [] := List.suffix_nil.1 behind
  exact absurd none (by decide)

/-- The override file that was found is the one of the user's home. -/
theorem Probe.eq_overrideFile {probe : Probe} {path : Path} (found : probe.override? = some path) :
    ∃ home, path = overrideFile home := by
  unfold Probe.override? at found
  split at found
  · cases found
  · next home _ =>
    split at found
    · cases found
      exact ⟨home, rfl⟩
    · cases found

namespace Resolved

/-- What a line is made of can be read back: the texts are plain, and the override file is a word of
its own. -/
structure HasPlainTexts (a : Resolved) : Prop where
  /-- The toolchain ends no word. -/
  toolchain : IsPlain a.request.toolchain
  /-- Neither does the configuration. -/
  config : IsPlain a.request.config
  /-- The path of the override file is one word. -/
  override : ∀ path, a.override? = some path → IsPlainWord path.text

variable {a : Resolved}

/-- **The words of the line** are the fixed arguments and then the words of the options. -/
theorem split_line (texts : a.HasPlainTexts) :
    split a.line = (split (optionLine a.request.options)).map
      ((a.overrideWords ++ [a.toolchainFlag, a.configFlag]) ++ ·) := by
  have toolchain : IsPlainWord a.toolchainFlag :=
    .append ⟨by decide, by decide, by decide⟩ texts.toolchain
  have config : IsPlainWord a.configFlag :=
    .append ⟨by decide, by decide, by decide⟩ texts.config
  -- The two flags are plain words, and are cut off in front of the options.
  have flags : split (a.toolchainFlag ++ " " ++ a.configFlag ++ " " ++ optionLine a.request.options)
      = (split (optionLine a.request.options)).map ([a.toolchainFlag, a.configFlag] ++ ·) := by
    have regroup : a.toolchainFlag ++ " " ++ a.configFlag ++ " " ++ optionLine a.request.options
        = a.toolchainFlag ++ " " ++ (a.configFlag ++ " " ++ optionLine a.request.options) := by
      simp only [String.append_assoc]
    rw [regroup, split_append_of_plain toolchain, split_append_of_plain config, Option.map_map]
    rfl
  unfold line overrideText overrideWords
  cases found : a.override? with
  | none =>
    simp only [String.empty_append, List.nil_append]
    exact flags
  | some path =>
    -- So are the two words that name the override.
    have word : IsPlainWord "-C" := ⟨by decide, by decide, by decide⟩
    have regroup : "-C " ++ path.text ++ " " ++ a.toolchainFlag ++ " " ++ a.configFlag ++ " "
          ++ optionLine a.request.options
        = "-C" ++ " " ++ (path.text ++ " " ++ (a.toolchainFlag ++ " " ++ a.configFlag ++ " "
          ++ optionLine a.request.options)) := by
      rw [show ("-C " : String) = "-C" ++ " " from rfl]
      simp only [String.append_assoc]
    show split ("-C " ++ path.text ++ " " ++ a.toolchainFlag ++ " " ++ a.configFlag ++ " "
      ++ optionLine a.request.options) = _
    rw [regroup, split_append_of_plain word, split_append_of_plain (texts.override path found),
      flags, Option.map_map, Option.map_map]
    rfl

/-- Options that are no list are cut into words like a line. -/
theorem optionWords_eq_splitLine {options : Option ArgumentText}
    (scalar : ∀ items, options ≠ some (.list items)) :
    optionWords options = splitLine (optionLine options) := by
  match options with
  | none => rfl
  | some (.line text) => rfl
  | some (.list items) => exact absurd rfl (scalar items)

/-- The line is cut into the words that are given one by one, or into none where those cannot be
given. -/
theorem splitLine_line (texts : a.HasPlainTexts)
    (scalar : ∀ items, a.request.options ≠ some (.list items)) :
    splitLine a.line = match a.words with
      | .ok words => .ok words
      | .error _ => .error (.malformedArguments a.line) := by
  unfold words
  rw [optionWords_eq_splitLine scalar]
  unfold splitLine
  rw [split_line texts]
  cases split (optionLine a.request.options) <;> rfl

/-- Only an argument line can keep arguments from being given one by one. -/
theorem malformed_of_words_eq_error {e : Diagnostic} (h : a.words = .error e) :
    ∃ text, e = .malformedArguments text := by
  have refused : optionWords a.request.options = .error e := by
    unfold words at h
    split at h
    · next is =>
      cases h
      exact is
    · cases h
  match a.request.options, refused with
  | none, refused => cases refused
  | some (.list items), refused => cases refused
  | some (.line text), refused =>
    change splitLine text = .error e at refused
    unfold splitLine at refused
    split at refused
    · cases refused
    · cases refused
      exact ⟨text, rfl⟩

/-- **The two argument forms agree.**  For options that are left out or given as one line, cutting
the line of a variant into words gives the words that its process is started with, whatever the
options hold; and where the options cannot be cut into words, neither form can. -/
theorem argument_forms_agree (probe : Probe) (r : Request)
    (scalar : ∀ items, r.options ≠ some (.list items)) (toolchain : IsPlain r.toolchain)
    (config : IsPlain r.config)
    (override : ∀ path, probe.override? = some path →
      IsPlain path.text ∧ path.text.toList.head? ≠ some '#') :
    let a : Resolved := ⟨r, probe.override?⟩
    (∀ words, splitLine a.line = .ok words ↔ a.words = .ok words) ∧
    ((∃ text, splitLine a.line = .error (.malformedArguments text)) ↔
      ∃ text, a.words = .error (.malformedArguments text)) := by
  intro a
  have texts : a.HasPlainTexts := by
    refine ⟨toolchain, config, ?_⟩
    intro path found
    obtain ⟨home, rfl⟩ := Probe.eq_overrideFile found
    obtain ⟨plain, noComment⟩ := override _ found
    exact ⟨text_overrideFile_ne_empty home, noComment, plain⟩
  rw [splitLine_line texts scalar]
  cases given : a.words with
  | ok words =>
    refine ⟨fun _ => Iff.rfl, ?_⟩
    exact iff_of_false (fun ⟨_, is⟩ => nomatch is) (fun ⟨_, is⟩ => nomatch is)
  | error e =>
    obtain ⟨text, rfl⟩ := malformed_of_words_eq_error given
    refine ⟨fun _ => iff_of_false nofun nofun, ?_⟩
    exact iff_of_true ⟨a.line, rfl⟩ ⟨text, rfl⟩

end Resolved

/-! ## Options with a group of words, an escaped blank and a comment -/

namespace QuotedOptions

/-- Such options. -/
def options : String :=
  "-DFLAGS=\"-O2 -g\" -DNAME=a\\ b # -DOFF=1"

/-- A request with these options. -/
def request : Request :=
  ⟨"clang", "Debug", some (.line options)⟩

/-- A user with package overrides. -/
def probe : Probe :=
  ⟨some ⟨"/home/dev"⟩, fun _ => true⟩

theorem override_found :
    probe.override? = some ⟨"/home/dev/.config/CPM/package-local.cmake"⟩ := by
  decide +kernel

theorem options_cut :
    optionWords request.options = .ok ["-DFLAGS=-O2 -g", "-DNAME=a b"] := by
  have cut : Words.split options = some ["-DFLAGS=-O2 -g", "-DNAME=a b"] := by decide +kernel
  show splitLine options = _
  unfold splitLine
  rw [cut]

end QuotedOptions

open QuotedOptions in
/-- The theorem for that request: its line is cut into the words that its process is given. -/
theorem quoted_options_agree :
    (∀ items, request.options ≠ some (.list items)) ∧ IsPlain request.toolchain ∧
    IsPlain request.config ∧
    (∀ path, probe.override? = some path →
      IsPlain path.text ∧ path.text.toList.head? ≠ some '#') ∧
    splitLine (Resolved.mk request probe.override?).line = .ok
      ["-C", "/home/dev/.config/CPM/package-local.cmake", "-DTOOLCHAIN=clang",
        "-DBUILD_CONFIG=Debug", "-DFLAGS=-O2 -g", "-DNAME=a b"] := by
  have toolchain : IsPlain request.toolchain := by decide +kernel
  have config : IsPlain request.config := by decide +kernel
  have override : ∀ path, probe.override? = some path →
      IsPlain path.text ∧ path.text.toList.head? ≠ some '#' := by
    intro path found
    rw [override_found] at found
    cases found
    decide +kernel
  refine ⟨nofun, toolchain, config, override, ?_⟩
  refine ((Resolved.argument_forms_agree probe request nofun toolchain config override).1 _).2 ?_
  unfold Resolved.words
  rw [options_cut, override_found]
  rfl

end BuildVariants
