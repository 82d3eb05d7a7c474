import RepoAtlas.Command.Arguments
import RepoAtlas.Command.Generate

/-!
# The command line

The program has commands that show its version, show and change the settings, and make the reports of a
repository. Arguments that no command takes are answered with how the program is used.
-/

namespace RepoAtlas.Command

/-- The version of the program. -/
def version : String := "2.0.0"

/-- How a call of the program ends. -/
inductive Ending where
  | result (r : Result)
  /-- The arguments are wrong. -/
  | usage (fault : ArgumentFault)
  /-- The user asked how the program is used. -/
  | help

/-- The option that asks how a command is used. -/
def helpOption : OptionSpec := { long := "--help" }

/-- The options of the program itself. -/
def topOptions : List OptionSpec := [{ long := "--version" }, helpOption]

/-- The options of the command that shows the settings. -/
def showOptions : List OptionSpec := [{ long := "--json" }, helpOption]

/-- The options for patterns. -/
def patternOptions : List OptionSpec :=
  [{ long := "--include", short := some 'i', takesValue := true },
    { long := "--exclude", short := some 'e', takesValue := true }]

/-- The options of the command that changes the patterns. -/
def changeOptions : List OptionSpec := patternOptions ++ [{ long := "--clear" }, helpOption]

/-- The options of the command that makes the reports. -/
def generateOptions : List OptionSpec :=
  patternOptions ++ [{ long := "--output", short := some 'o', takesValue := true },
    { long := "--verbose", short := some 'v' }, helpOption]

/-- Read options and go on with them, unless they are wrong or ask for help. -/
def withOptions (options : List OptionSpec) (args : List String) (run : Arguments → Result) :
    Ending :=
  match readArguments options true {} args with
  | .error f => .usage f
  | .ok a =>
    if a.has helpOption.long then .help
    else
      match a.rest with
      | [] => .result (run a)
      | arg :: _ => .usage (.surplus arg)

/-- Run a command on the settings. -/
def runSettings (s : Scene) (args : List String) : Ending :=
  match readArguments [helpOption] false {} args with
  | .error f => .usage f
  | .ok a =>
    if a.has helpOption.long then .help
    else
      match a.rest with
      | [] => .help
      | "show" :: more => withOptions showOptions more fun a =>
          showSettings s.home s.site.files (a.has "--json")
      | "agent" :: more => withOptions changeOptions more fun a =>
          changePatterns s.home s.site.files (a.value? "--include") (a.value? "--exclude")
            (a.has "--clear")
      | other :: _ => .usage (.unknown other)

/-- A result that only says something. -/
def saying (s : Scene) (lines : List String) : Result :=
  { transcript := ({} : Transcript).sayAll lines, files := s.site.files }

/-- Run a command. -/
def runCommand (s : Scene) : List String → Ending
  | [] => .help
  | "version" :: more => withOptions [helpOption] more fun _ =>
      saying s ["CodeWiki CLI v" ++ version, "Static codebase analysis tool"]
  | "config" :: more => runSettings s more
  | "generate" :: more => withOptions generateOptions more fun a =>
      generate s { output := (a.value? "--output").getD "docs", included := a.value? "--include"
                   excluded := a.value? "--exclude", verbose := a.has "--verbose" }
  | other :: _ => .usage (.unknown other)

/-- Run the program with its arguments. -/
def run (s : Scene) (args : List String) : Ending :=
  match readArguments topOptions false {} args with
  | .error f => .usage f
  | .ok a =>
    match a.flags with
    | "--version" :: _ => .result (saying s ["CodeWiki CLI, version " ++ version])
    | _ :: _ => .help
    | [] => runCommand s a.rest

end RepoAtlas.Command
