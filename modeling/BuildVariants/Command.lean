import BuildVariants.Path
import BuildVariants.Variables

/-!
# Commands

A command is a process that has not been started: a program, its arguments, the variables set on
top of the inherited environment, and a working directory unless the current one will do.
-/

namespace BuildVariants

/-- A process that has not been started. -/
structure Command where
  /-- The program. -/
  program : Path
  /-- Its arguments. -/
  args : List String
  /-- The variables set for it. -/
  env : Variables
  /-- Its working directory. -/
  cwd? : Option Path
  deriving DecidableEq

namespace Command

/-- A program without arguments. -/
def ofProgram (program : Path) : Command := ⟨program, [], .empty, none⟩

/-- More arguments behind those there are. -/
def addArgs (c : Command) (args : List String) : Command :=
  { c with args := c.args ++ args }

/-- Variables set on top of those there are. -/
def addEnv (c : Command) (entries : List (String × String)) : Command :=
  { c with env := c.env.insertAll entries }

/-- Another working directory. -/
def inDirectory (c : Command) (cwd : Path) : Command :=
  { c with cwd? := some cwd }

/-- The pieces a command is displayed in: the assignments, the program, the arguments. -/
def pieces (c : Command) : List String :=
  c.env.entries.map (fun e => e.1 ++ "=" ++ e.2) ++ c.program.text :: c.args

/-- A command on one line.  Nothing is quoted. -/
def display (c : Command) : String :=
  " ".intercalate c.pieces

end Command

end BuildVariants
