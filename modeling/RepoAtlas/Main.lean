import RepoAtlas.Command.Line
import RepoAtlas.Json.Reader
import RepoAtlas.Snapshot.Site

/-!
# The program

The settings are read from the home of the user. The command that makes reports reads a snapshot of the
repository from standard input, as parsers and other tools left it. What a command says is printed, and
what it wrote is written.
-/

namespace RepoAtlas.Program

open Command

/-- The text of a file, if it can be read. -/
def textOf (path : String) : IO (Option String) := do
  try
    return some (← IO.FS.readFile path)
  catch _ =>
    return none

/-- The snapshot on standard input; an empty one if there is none. -/
def snapshot : IO Json := do
  let text ← (← IO.getStdin).readToEnd
  return (Json.parse? text).getD (.obj [])

/-- The scene of a command: a snapshot and the settings of the user. -/
def sceneOf (home : String) (settings : Option String) (j : Json) : Scene :=
  let site := Snapshot.site j ((j.field "root").str?.getD "/repository")
  let place := Path.parts (⟨home, none⟩ : Settings.Store).file
  let files := match settings with
    | some text => site.files.insert place (.file (Text.encode text))
    | none => site.files
  { home := home, site := { site with files := files }
    surroundings := Snapshot.surroundings j (j.field "routines")
    clock := { date := Snapshot.text (j.field "date"), timeOfDay := Snapshot.text (j.field "time") } }

/-- Write a file of the scene to the place that it has there. -/
def store (files : FileNode) (path : String) : IO Unit := do
  match Files.readAnywhere files path with
  | .ok text =>
    IO.FS.createDirAll (Path.directory path)
    IO.FS.writeFile path text
  | .error _ => return ()

/-- Print what a command said and write what it wrote. -/
def finish (settings : String) : Ending → IO UInt32
  | .usage _ => do
    (← IO.getStderr).putStrLn "Usage: codewiki [version | config show | config agent | generate]"
    return 2
  | .help => do
    (← IO.getStdout).putStrLn "Usage: codewiki [version | config show | config agent | generate]"
    return 0
  | .result r => do
    for path in settings :: r.written do
      store r.files path
    (← IO.getStdout).putStr r.transcript.out
    (← IO.getStderr).putStr r.transcript.err
    return r.exit.toUInt32

end RepoAtlas.Program

open RepoAtlas Program

/-- Run a command. -/
def main (args : List String) : IO UInt32 := do
  let home := (← IO.getEnv "HOME").getD ""
  let file := (⟨home, none⟩ : Settings.Store).file
  let settings ← textOf file
  let j ← if args.contains "generate" then snapshot else pure (.obj [])
  finish file (Command.run (sceneOf home settings j) args)
