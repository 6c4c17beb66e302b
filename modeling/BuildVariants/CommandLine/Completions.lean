import BuildVariants.CommandLine.Mistake

/-!
# Shell completions

Scripts that teach a shell the commands and options of the program.  Each offers the commands as
the first word and the options of the command behind it.
-/

namespace BuildVariants.CommandLine

/-- The names of all commands. -/
def commandNames : List String :=
  Verb.all.map Verb.name ++ [helpName]

/-- The spellings of a named parameter. -/
def Parameter.spellings (p : Parameter) : List String :=
  (p.letter?.map fun c => String.ofList ['-', c]).toList ++ (p.long?.map ("--" ++ ·)).toList

/-- The spellings of all options of a level. -/
def Level.spellings (l : Level) : List String :=
  l.options.flatMap Parameter.spellings

/-- A list of words between blanks. -/
def spaced (words : List String) : String :=
  " ".intercalate words

/-- Some lines, each with its end. -/
def lines (ls : List String) : String :=
  String.join (ls.map (· ++ "\n"))

/-- A word in single quotes; none of the words quoted here holds one. -/
def quoted (s : String) : String :=
  "'" ++ s ++ "'"

/-- The script for a shell with programmable completion of the Bourne kind. -/
def bashScript : String :=
  lines <|
    ["_" ++ programName ++ "() \x7b",
     "    local cur=\"$\x7bCOMP_WORDS[COMP_CWORD]\x7d\"",
     "    case \"$\x7bCOMP_WORDS[1]\x7d\" in"]
    ++ (Verb.all.map fun v =>
      "        " ++ v.name ++ ") COMPREPLY=($(compgen -W \""
        ++ spaced (Level.command v).spellings ++ "\" -- \"$cur\")) ;;")
    ++ ["        *) COMPREPLY=($(compgen -W \""
          ++ spaced (commandNames ++ Level.program.spellings) ++ "\" -- \"$cur\")) ;;",
        "    esac",
        "\x7d",
        "complete -F _" ++ programName ++ " " ++ programName]

/-- The script for the Z shell, by way of the one above. -/
def zshScript : String :=
  lines ["#compdef " ++ programName, "autoload -U +X bashcompinit && bashcompinit"] ++ bashScript

/-- The name of a function of the script for the friendly shell. -/
def fishName (what : String) : String :=
  "__fish_" ++ programName ++ "_" ++ what

/-- A named parameter as the friendly shell's parser of options wants it. -/
def Parameter.optionSpec (p : Parameter) : String :=
  String.join ((p.letter?.map fun c => String.ofList [c, '/']).toList ++ p.long?.toList)
    ++ if p.takesValue then "=" else ""

/-- The functions of the script for the friendly shell: the options of the program, whether a
command has been given, and whether it is a certain one. -/
def fishFunctions : List String :=
  ["# Print an optspec for argparse to handle cmd's options that are independent of any "
     ++ "subcommand.",
   "function " ++ fishName "global_optspecs",
   "    string join \\n " ++ spaced (Level.program.options.map Parameter.optionSpec),
   "end",
   "",
   "function " ++ fishName "needs_command",
   "    set -l cmd (commandline -opc)",
   "    set -e cmd[1]",
   "    argparse -s (" ++ fishName "global_optspecs" ++ ") -- $cmd 2>/dev/null",
   "    or return",
   "    if set -q argv[1]",
   "        echo $argv[1]",
   "        return 1",
   "    end",
   "    return 0",
   "end",
   "",
   "function " ++ fishName "using_subcommand",
   "    set -l cmd (" ++ fishName "needs_command" ++ ")",
   "    test -z \"$cmd\"",
   "    and return 1",
   "    contains -- $cmd[1] $argv",
   "end",
   ""]

/-- The line for the friendly shell that completes one parameter. -/
def fishOption (condition : String) (p : Parameter) : String :=
  "complete -c " ++ programName ++ " -n \"" ++ condition ++ "\""
    ++ (match p.letter? with
      | some c => " -s " ++ String.ofList [c]
      | none => "")
    ++ (match p.long? with
      | some long => " -l " ++ long
      | none => "")
    ++ " -d " ++ quoted p.about ++ (if p.takesValue then " -r" else "")

/-- The line for the friendly shell that offers a command. -/
def fishCommand (v : Verb) : String :=
  "complete -c " ++ programName ++ " -n \"" ++ fishName "needs_command" ++ "\" -f -a " ++ v.name
    ++ " -d \"" ++ v.about ++ "\""

/-- The script for the friendly shell. -/
def fishScript : String :=
  lines <| fishFunctions
    ++ Level.program.options.map (fishOption (fishName "needs_command"))
    ++ Verb.all.map fishCommand
    ++ Verb.all.flatMap fun v =>
      (Level.command v).options.map (fishOption (fishName "using_subcommand " ++ v.name))

/-- A case of a script: the words that are offered behind a command. -/
def offers (head : String) (words : List String) (tail : String) : String :=
  "        " ++ head ++ spaced (words.map quoted) ++ tail

/-- The script for the shell with objects. -/
def powershellScript : String :=
  lines <|
    ["",
     "using namespace System.Management.Automation",
     "using namespace System.Management.Automation.Language",
     "",
     "Register-ArgumentCompleter -Native -CommandName '" ++ programName ++ "' -ScriptBlock \x7b",
     "    param($word, $ast, $cursor)",
     "    $offered = switch ($ast.CommandElements[1].Value) \x7b"]
    ++ (Verb.all.map fun v =>
      offers (quoted v.name ++ " \x7b ") [spaced (Level.command v).spellings] " \x7d")
    ++ [offers "default \x7b " [spaced (commandNames ++ Level.program.spellings)] " \x7d",
        "    \x7d",
        "    $offered -split ' ' | Where-Object \x7b $_ -like \"$word*\" \x7d",
        "\x7d"]

/-- The script for the shell with structured values. -/
def elvishScript : String :=
  lines <|
    ["",
     "use builtin;",
     "use str;",
     "",
     "set edit:completion:arg-completer[" ++ programName ++ "] = \x7b|@words|",
     "    var offered = ["]
    ++ (Verb.all.map fun v =>
      offers ("&" ++ v.name ++ "=[") (Level.command v).spellings "]")
    ++ ["    ]",
        "    if (has-key $offered $words[1]) \x7b",
        "        all $offered[$words[1]]",
        "    \x7d else \x7b",
        "        put " ++ spaced (commandNames ++ Level.program.spellings),
        "    \x7d",
        "\x7d"]

/-- The completion script for a shell. -/
def CompletionShell.script : CompletionShell → String
  | bash => bashScript
  | elvish => elvishScript
  | fish => fishScript
  | powershell => powershellScript
  | zsh => zshScript

end BuildVariants.CommandLine
