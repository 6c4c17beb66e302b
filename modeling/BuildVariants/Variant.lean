import BuildVariants.ArgumentText
import BuildVariants.Json
import BuildVariants.Log

/-!
# Variants and their arguments

A `Request` asks for one flavour of a build: a toolchain, a configuration and some options.
Resolving it means adding the user's own package overrides, if there are any, and gives the
arguments of `cmake` in two forms.  `Resolved.line` is meant for a task runner and always has the
options behind a blank, even if there are none; `Resolved.words` is meant for a process, and there
the override file is one argument whatever its path looks like.

None of the texts is checked: they are put into the arguments as they are.
-/

namespace BuildVariants

/-- One flavour of a build. -/
structure Request where
  /-- The name of the toolchain. -/
  toolchain : String
  /-- The name of the configuration. -/
  config : String
  /-- What is said to `cmake` besides. -/
  options : Option ArgumentText
  deriving DecidableEq, Repr

/-- The name a request has unless it is given another one. -/
def Request.name (r : Request) : String :=
  r.toolchain ++ "-" ++ r.config

/-! ## The override file -/

/-- The user's package overrides, seen from the home directory. -/
def overridePath : Path := ⟨".config/CPM/package-local.cmake"⟩

/-- The place of the package overrides of a user. -/
def overrideFile (home : Path) : Path :=
  home.join overridePath

/-- What is known about the user: the home directory, and which paths exist. -/
structure Probe where
  /-- The home directory, if it is known. -/
  home : Option Path
  /-- Whether something stands at a path. -/
  has : Path → Bool

/-- The override file, if it exists. -/
def Probe.override? (p : Probe) : Option Path :=
  match p.home with
  | none => none
  | some home => if p.has (overrideFile home) then some (overrideFile home) else none

/-- The warning for a user without package overrides. -/
def missingOverride : String := "no local CPM configuration"

/-- What the log says about the override file. -/
def overrideRecord : Option Path → LogRecord
  | some path => ⟨.debug, "using CPM override file " ++ path.text⟩
  | none => ⟨.warn, missingOverride⟩

/-! ## Resolved arguments -/

/-- A request together with the override file that goes with it. -/
structure Resolved where
  /-- What was asked for. -/
  request : Request
  /-- The override file, if it exists. -/
  override? : Option Path
  deriving DecidableEq, Repr

namespace Resolved

/-- The argument that selects the toolchain. -/
def toolchainFlag (r : Resolved) : String :=
  "-DTOOLCHAIN=" ++ r.request.toolchain

/-- The argument that selects the configuration. -/
def configFlag (r : Resolved) : String :=
  "-DBUILD_CONFIG=" ++ r.request.config

/-- The beginning of the line that passes the override file. -/
def overrideText (r : Resolved) : String :=
  match r.override? with
  | some path => "-C " ++ path.text ++ " "
  | none => ""

/-- The arguments that pass the override file. -/
def overrideWords (r : Resolved) : List String :=
  match r.override? with
  | some path => ["-C", path.text]
  | none => []

/-- The arguments on one line. -/
def line (r : Resolved) : String :=
  r.overrideText ++ r.toolchainFlag ++ " " ++ r.configFlag ++ " " ++ optionLine r.request.options

/-- The arguments one by one. -/
def words (r : Resolved) : Except Diagnostic (List String) :=
  match optionWords r.request.options with
  | .error e => .error e
  | .ok options => .ok (r.overrideWords ++ [r.toolchainFlag, r.configFlag] ++ options)

/-- The record of a variant, for a task runner. -/
def record (r : Resolved) : Json :=
  .object [("options", .object [("args", .string r.line)])]

end Resolved

end BuildVariants
